import S7Comm.Proofs.Operations

/-!
# What an operation gives to be written

However an operation writes its value, in the end it writes a list of items with their data.

* `DataItem.Made`: data as operations with values make them, bytes, a bit, or the elements of timers
  and counters. `Batch.Provided` is such data with a place of CPU memory.
* `Command.Gives order command given`: a command writes values whose bytes are `given`, or it has
  none, if the value cannot be expressed. Values of a numerical control, which are written as they
  are, are not among them.
* `Writes c given call`: a call does nothing, and fails, or it does what is done when a list is
  written that is provided, and whose payloads, put together (`Batch.payloads`), are `given`.

**Main result** (`Client.writes_perform`): every operation that gives `given` to be written, writes it
in this sense. The list is known before anything is sent, and a range that is cut into pieces is cut
without loss (`Client.flatten_pieces`). What is sent when a list is written needs then to be looked
into only once, as is done in `S7Comm.Proofs.WrittenLengths`.
-/

namespace S7Comm

open Call

/-! ## Data -/

/-- Data as operations with values make them. -/
inductive DataItem.Made : DataItem → Prop where
  /-- Bytes. -/
  | bytes (bytes : Bytes) : Made (.ofBytes bytes)
  /-- A bit. -/
  | bit (value : Bool) : Made (.ofBit value)
  /-- Elements of timers or counters. -/
  | elements (bytes : Bytes) : bytes.length ≤ 65535 → Made (.ofPayload .octets bytes)

namespace Batch

/-- An item of CPU memory, with data made for it. -/
def Provided (pair : RequestItem × DataItem) : Prop :=
  ∃ place, pair.1 = .standard place ∧ pair.2.Made

/-- The payloads of a list, put together. -/
def payloads (pairs : List (RequestItem × DataItem)) : Bytes :=
  pairs.flatMap fun pair => pair.2.payload

end Batch

namespace WriteList

/-- A list of places that was begun empty and has been added to. -/
inductive Collected : WriteList → Prop where
  /-- A list that is begun. -/
  | empty (byteOrder : ByteOrder) : Collected { byteOrder }
  /-- A bit is added. -/
  | bit {list longer : WriteList} {address : String} {value : Bool} :
    Collected list → list.addBit address value = .ok longer → Collected longer
  /-- Bytes are added. -/
  | bytes {list longer : WriteList} {address : String} {bytes : Bytes} :
    Collected list → list.addBytes address bytes = .ok longer → Collected longer
  /-- A number is added. -/
  | number {α : Type} [Numeric α] {list longer : WriteList} {address : String} {value : α} :
    Collected list → list.addNumber address value = .ok longer → Collected longer

variable {list longer : WriteList}

theorem provided_add (h : ∀ pair ∈ list.pairs.toList, Batch.Provided pair) (place : StandardItem)
    {data : DataItem} (hdata : data.Made) :
    ∀ pair ∈ (list.add place data).pairs.toList, Batch.Provided pair := by
  intro pair hpair
  rw [add, Array.toList_push] at hpair
  rcases List.mem_append.mp hpair with hpair | hpair
  · exact h pair hpair
  · obtain rfl := List.mem_singleton.mp hpair
    exact ⟨place, rfl, hdata⟩

theorem provided_addBytes {address : String} {bytes : Bytes}
    (h : ∀ pair ∈ list.pairs.toList, Batch.Provided pair)
    (hadd : list.addBytes address bytes = .ok longer) :
    ∀ pair ∈ longer.pairs.toList, Batch.Provided pair := by
  simp only [addBytes, except_bind_eq_ok_iff] at hadd
  obtain ⟨place, -, length, -, item, -, hend⟩ := hadd
  cases hend
  exact provided_add h item (.bytes bytes)

/-- Whatever was added to a list, its data were made for its places. -/
theorem Collected.provided (h : list.Collected) :
    ∀ pair ∈ list.pairs.toList, Batch.Provided pair := by
  induction h with
  | empty byteOrder => exact List.forall_mem_nil _
  | @bit list longer address value _ hadd ih =>
    simp only [addBit, except_bind_eq_ok_iff] at hadd
    obtain ⟨place, -, hend⟩ := hadd
    cases hend
    exact provided_add ih _ (.bit value)
  | bytes _ hadd ih => exact provided_addBytes ih hadd
  | number _ hadd ih => exact provided_addBytes ih hadd

end WriteList

/-- A command writes values whose bytes, put together, are the given ones, if they have bytes. -/
inductive Command.Gives (order : ByteOrder) : Command → Except ArgumentError Bytes → Prop where
  /-- Bytes. -/
  | bytes (address : String) (bytes : Bytes) : Gives order (.writeBytes address bytes) (.ok bytes)
  /-- A byte. -/
  | byte (address : String) (value : UInt8) : Gives order (.writeByte address value) (.ok [value])
  /-- A bit. -/
  | bit (address : String) (value : Bool) :
    Gives order (.writeBit address value) (.ok [if value then 1 else 0])
  /-- A number. -/
  | number (type : NumberType) (address : String) (value : type.Value) :
    Gives order (.writeNumber type address value) (.ok (Numeric.encode order value))
  /-- A string, with its length in front. -/
  | string (address text : String) :
    Gives order (.writeString address text)
      ((Payload.encodeText text).map fun payload => UInt8.ofNat payload.length :: payload)
  /-- A DATE. -/
  | date (address : String) (date : Calendar.Date) :
    Gives order (.writeDate address date) (Payload.encodeDate date)
  /-- A TIME_OF_DAY. -/
  | timeOfDay (address : String) (time : Calendar.TimeOfDay) :
    Gives order (.writeTimeOfDay address time) (.ok (Payload.encodeTimeOfDay time))
  /-- A TIME. -/
  | time (address : String) (duration : Calendar.Duration) :
    Gives order (.writeTime address duration) (Payload.encodeTime duration)
  /-- A DTL. -/
  | dateTime (address : String) (moment : Calendar.DateTime) :
    Gives order (.writeDateTime address moment) (Payload.encodeDateTime moment)
  /-- The values of a list of places, all of which must succeed. -/
  | many {list : WriteList} : list.Collected →
    Gives order (.writeMany list) (.ok (Batch.payloads list.pairs.toList))
  /-- The values of a list of places. -/
  | eachOf {list : WriteList} : list.Collected →
    Gives order (.writeEachOf list) (.ok (Batch.payloads list.pairs.toList))

/-! ## Pieces of a range -/

namespace Client

/-- Nothing is lost when bytes are cut into pieces. -/
theorem flatten_pieces (piece : Nat) (bytes : Bytes) : (pieces piece bytes).flatten = bytes := by
  -- the induction is on the bytes that are left, behind pieces that have been cut off
  have hrest : ∀ done, (piecesFrom piece done bytes).flatten = done.reverse.flatten ++ bytes := by
    intro done
    fun_induction piecesFrom piece done bytes with
    | case1 done => exact (List.append_nil _).symm
    | case2 done byte rest ih =>
      rw [ih, List.reverse_cons, List.flatten_append, List.flatten_singleton, List.append_assoc,
        List.cons_append, List.take_append_drop]
  exact hrest []

/-- The items of a range are places with the bytes of its pieces. -/
theorem provided_rangeWrites {address : Address} {piece : Nat} {bytes : Bytes}
    {pairs : List (RequestItem × DataItem)} (h : rangeWrites address piece bytes = .ok pairs) :
    (∀ pair ∈ pairs, Batch.Provided pair) ∧ Batch.payloads pairs = bytes := by
  have hpairs : List.Forall₂ (fun (input : Bytes × Nat) pair =>
      ∃ place, pair = (.standard place, .ofBytes input.1)) (pieces piece bytes).zipIdx pairs := by
    refine (forall₂_of_mapM h).imp fun input pair hpair => ?_
    simp only [pieceItem, except_bind_eq_ok_iff] at hpair
    obtain ⟨item, ⟨start, -, place, -, hplace⟩, hend⟩ := hpair
    cases hplace
    cases hend
    exact ⟨place, rfl⟩
  have hmade : (∀ pair ∈ pairs, Batch.Provided pair) ∧
      Batch.payloads pairs = ((pieces piece bytes).zipIdx.map Prod.fst).flatten := by
    clear h
    generalize (pieces piece bytes).zipIdx = inputs at hpairs
    induction hpairs with
    | nil => exact ⟨List.forall_mem_nil _, rfl⟩
    | cons hpair _ ih =>
      obtain ⟨place, rfl⟩ := hpair
      exact ⟨List.forall_mem_cons.mpr ⟨⟨place, rfl, .bytes _⟩, ih.1⟩, congrArg _ ih.2⟩
  rw [List.zipIdx_map_fst, flatten_pieces] at hmade
  exact hmade

end Client

/-! ## Operations that write

Unlike a `Client.Law` this is no property of every call: what is written depends on the operation. The
lemmas are those of a sequence in which all parts but one leave the state as it is.
-/

section Writes

variable {S α β : Type} {c : Client S} {given : Except ArgumentError Bytes}

/-- A call fails without having done anything, or does what is done when a list is written whose
data are made for their places, and whose payloads are the given bytes. -/
def Writes (c : Client S) (given : Except ArgumentError Bytes) (call : Call S α) : Prop :=
  ∀ s, (∃ e, call s = .error e s) ∨
    ∃ pairs, (∀ pair ∈ pairs, Batch.Provided pair) ∧ given = .ok (Batch.payloads pairs) ∧
      let written := (Batch.writeEach c.channel (pairs.map Prod.fst) (pairs.map Prod.snd)).outcome s
      (call.outcome s).2 = written.2 ∧
        ∀ value, (call.outcome s).1 = .ok value → ∃ codes, written.1 = .ok codes

namespace Writes

/-- To fail at once is to write nothing. -/
theorem refuse (e : Error) : Writes c given (throw e : Call S α) :=
  fun _ => .inl ⟨e, rfl⟩

/-- In front of a call there may be one that changes nothing. -/
theorem look_bind {look : Call S β} {next : β → Call S α}
    (hlook : ∀ s, (∃ value, look s = .ok value s) ∨ ∃ e, look s = .error e s)
    (hnext : ∀ value, look.Yields value → Writes c given (next value)) :
    Writes c given (look >>= next) := by
  intro s
  rcases hlook s with ⟨value, hvalue⟩ | ⟨e, he⟩
  · have h := hnext value ⟨s, s, hvalue⟩ s
    rw [← bind_of_ok hvalue next] at h
    unfold outcome at h ⊢
    rw [bind_of_ok hvalue next] at h ⊢
    exact h
  · exact .inl ⟨e, bind_of_error he next⟩

/-- In front of a call there may be a computation without state. -/
theorem ofExcept_bind {result : Except Error β} {next : β → Call S α}
    (hnext : ∀ value, result = .ok value → Writes c given (next value)) :
    Writes c given (Call.ofExcept result >>= next) := by
  refine look_bind (fun s => ?_) fun value hvalue => hnext value hvalue.of_ofExcept
  cases result with
  | ok value => exact .inl ⟨value, rfl⟩
  | error e => exact .inr ⟨e, rfl⟩

/-- In front of a call there may be a check. -/
theorem guard {p : Prop} [Decidable p] {e : Error} {next : PUnit → Call S α}
    (hnext : Writes c given (next ())) :
    Writes c given (if p then throw e >>= next else next ()) := by
  split
  · exact fun s => .inl ⟨e, rfl⟩
  · exact hnext

/-- In front of a call there may be a look at the session. -/
theorem session_bind {next : UInt16 → Call S α} (hnext : ∀ budget, Writes c given (next budget)) :
    Writes c given (do
      c.channel.ensureReady
      next (← c.channel.pduBudget)) := by
  refine look_bind (fun s => ?_) fun _ _ =>
    look_bind (fun s => .inl ⟨_, rfl⟩) fun budget _ => hnext budget
  cases hready : c.channel.checkReady s with
  | ok => exact .inl ⟨(), by rw [Channel.ensureReady, hready]; rfl⟩
  | error e => exact .inr ⟨e, by rw [Channel.ensureReady, hready]; rfl⟩

/-- What is returned can be given another form. -/
theorem form {call : Call S β} (h : Writes c given call) (form : β → α) :
    Writes c given (call >>= fun value => pure (form value)) := by
  intro s
  rcases h s with ⟨e, he⟩ | ⟨pairs, hpairs, hgiven, hafter, hvalue⟩
  · exact .inl ⟨e, bind_of_error he _⟩
  · refine .inr ⟨pairs, hpairs, hgiven, ?_, fun result hresult => ?_⟩
    · rw [outcome_bind_pure]
      exact hafter
    · obtain ⟨value, hok⟩ := exists_ok_of_bind_pure hresult
      exact hvalue value hok

/-- What is returned can be put into an answer. -/
theorem answer {call : Call S β} (h : Writes c given call) (answer : β → Answer) :
    Writes c given (call >>= fun value => pure (answer value)) :=
  h.form answer

variable {pairs : List (RequestItem × DataItem)}

/-- The writing of a list is that. -/
theorem writeEach (hpairs : ∀ pair ∈ pairs, Batch.Provided pair) :
    Writes c (.ok (Batch.payloads pairs))
      (Batch.writeEach c.channel (pairs.map Prod.fst) (pairs.map Prod.snd)) :=
  fun _ => .inr ⟨pairs, hpairs, rfl, rfl, fun codes h => ⟨codes, h⟩⟩

/-- So is the writing of a list all of which must succeed. -/
theorem writeAll (hpairs : ∀ pair ∈ pairs, Batch.Provided pair) :
    Writes c (.ok (Batch.payloads pairs))
      (Batch.writeAll c.channel (pairs.map Prod.fst) (pairs.map Prod.snd)) := by
  refine fun s => .inr ⟨pairs, hpairs, rfl, outcome_bind_check _ _ s, fun codes hok => ?_⟩
  cases hcall : Batch.writeEach c.channel (pairs.map Prod.fst) (pairs.map Prod.snd) s with
  | ok codes s' => exact ⟨codes, by rw [outcome_of_ok hcall]⟩
  | error e s' =>
    rw [Batch.writeAll, outcome_of_error (bind_of_error hcall _)] at hok
    cases hok

end Writes

namespace Client

/-- A single item is written. -/
theorem writes_writeItem (c : Client S) (place : StandardItem) {data : DataItem}
    (hdata : data.Made) : Writes c (.ok data.payload) (c.writeItem place data) := by
  have hprovided : ∀ pair ∈ [(RequestItem.standard place, data)], Batch.Provided pair :=
    List.forall_mem_singleton.mpr ⟨place, rfl, hdata⟩
  have hpayload : Batch.payloads [(RequestItem.standard place, data)] = data.payload :=
    List.append_nil data.payload
  rw [← hpayload]
  exact (Writes.writeAll hprovided).form fun _ => ()

/-- Bytes are written from an address on. -/
theorem writes_writeBytesAt (c : Client S) (address : Address) (bytes : Bytes) :
    Writes c (.ok bytes) (c.writeBytesAt address bytes) := by
  unfold writeBytesAt
  split
  -- timers and counters are one item, and areas of bytes a range of them
  · refine .ofExcept_bind fun pair hpair => ?_
    have hpair := lift_argument_eq_ok_iff.mp hpair
    simp only [elementWrite, guard_eq_ok_iff, except_bind_eq_ok_iff] at hpair
    obtain ⟨-, length, hlength, item, -, hend⟩ := hpair
    cases hend
    refine writes_writeItem c item (.elements bytes ?_)
    unfold itemLength at hlength
    split at hlength
    · cases hlength
    · split at hlength
      · cases hlength
      · next hshort => exact Nat.not_lt.mp hshort
  split
  · exact .refuse _
  · refine .session_bind fun budget => .ofExcept_bind fun pairs hpairs => ?_
    obtain ⟨hprovided, hpayloads⟩ := provided_rangeWrites (lift_argument_eq_ok_iff.mp hpairs)
    rw [← hpayloads]
    exact (Writes.writeAll hprovided).form fun _ => ()

/-- Bytes are written from an address on that is given by its text. -/
theorem writes_writeBytes (c : Client S) (address : String) (bytes : Bytes) :
    Writes c (.ok bytes) (c.writeBytes address bytes) :=
  .ofExcept_bind fun place _ => c.writes_writeBytesAt place bytes

/-- Bytes that stand for a value are written, if the value has some. -/
theorem writes_writeForm (c : Client S) (bytes : Except ArgumentError Bytes) (address : String) :
    Writes c bytes (Call.ofExcept (bytes.mapError .invalidArgument) >>= c.writeBytes address) := by
  refine .ofExcept_bind fun value hvalue => ?_
  rw [mapError_eq_ok_iff.mp hvalue]
  exact c.writes_writeBytes address value

/-- A string is written, with its length. -/
theorem writes_writeString (c : Client S) (address text : String) :
    Writes c ((Payload.encodeText text).map fun payload => UInt8.ofNat payload.length :: payload)
      (c.writeString address text) := by
  refine .ofExcept_bind fun place _ => .ofExcept_bind fun payload hpayload => ?_
  rw [lift_argument_eq_ok_iff.mp hpayload]
  exact .guard (.ofExcept_bind fun start _ => c.writes_writeBytesAt start _)

/-- Every operation that writes values writes a list, or fails without having done anything. -/
theorem writes_perform (c : Client S) {command : Command}
    (h : command.Gives c.profile.byteOrder given) : Writes c given (c.perform command) := by
  cases h with
  | bytes address bytes => exact (c.writes_writeBytes address bytes).answer fun _ => .nothing
  | byte address value => exact (c.writes_writeBytes address [value]).answer fun _ => .nothing
  | bit address value =>
    refine Writes.answer ?_ fun _ => .nothing
    exact .ofExcept_bind fun place _ => c.writes_writeItem (.single place) (.bit value)
  | number type address value => exact (c.writes_writeBytes address _).answer fun _ => .nothing
  | string address text => exact (c.writes_writeString address text).answer fun _ => .nothing
  | date address date => exact (c.writes_writeForm _ address).answer fun _ => .nothing
  | timeOfDay address time => exact (c.writes_writeBytes address _).answer fun _ => .nothing
  | time address duration => exact (c.writes_writeForm _ address).answer fun _ => .nothing
  | dateTime address moment => exact (c.writes_writeForm _ address).answer fun _ => .nothing
  | many hlist => exact ((Writes.writeAll hlist.provided).form fun _ => ()).answer fun _ => .nothing
  | eachOf hlist => exact (Writes.writeEach hlist.provided).answer .codes

end Client

end Writes

end S7Comm
