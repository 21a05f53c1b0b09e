import S7Comm.Proofs.AnswerErrors
import S7Comm.Proofs.Lifecycle
import S7Comm.Proofs.Plan

/-!
# A call that is refused has done nothing

Some errors do not come from the other end: a text is no address, an argument cannot be expressed, an
item is too large for the agreed length (`Error.isRefusal`). Requests are made one after the other
while a list is being read or written, and making a request can be refused, too; so it is not clear
that a call with such an error has sent nothing. That it has not is shown here.

**Three kinds of calls.**

* `Call.Looks call`: it changes nothing, `(call.outcome s).2 = s`.
* `Call.Certain call`: it may change anything, but never ends with a refusal.
* `Call.Atomic call`: if `call s = .error e s'` with `e.isRefusal`, then `s' = s`. An operation looks
  first and is certain afterwards, and then it is atomic (`Call.Atomic.look_bind`,
  `Call.Atomic.of_certain`).

**Why the requests of a list are certain.** A plan has runs that have items, have not more items than
can be told, and fit the agreed length, which fits a word; and no more is asked of a request that is
to be made (`Batch.encodeReadRequest_eq_ok`, `Batch.encodeWriteRequest_eq_ok`). What is wrong with an
answer is never called a refusal (`Unrefused.of_answer`).

**Main result** (`Station.refusals_change_nothing`), for all operations that refuse first, for lists
of items as they are, and for a block that cannot be named.

**What is left out.** Four operations do not refuse first (`Command.refusesFirst`). A string is read
with two requests, of which the second can be refused. Of the bytes that were read as a time of the
day or as a moment it can turn out that they are none, which is reported as an argument would be. And
a job of control takes its reference before it is looked at: so a job that cannot be expressed changes
the reference, and nothing else (`Client.control_inexpressible`).
-/

namespace S7Comm

open Call

/-! ## Refusals -/

/-- Whether a call was refused by the client: for an address, for another argument, or for an item
that is too large. -/
def Error.isRefusal : Error → Bool
  | .address _ _ | .invalidArgument _ | .itemTooLarge _ _ _ => true
  | _ => false

/-- That a session is not ready is not a refusal: its state is looked at, and not the call. -/
theorem Session.isRefusal_of_checkReady {s : Session} {e : Error} (h : s.checkReady = .error e) :
    e.isRefusal = false := by
  unfold checkReady at h
  split at h <;> cases h
  · next fault _ _ => cases fault <;> rfl
  · rfl

/-- A computation without state that refuses nothing. -/
def Unrefused {α : Type} (result : Except Error α) : Prop :=
  FailsWith (fun e => e.isRefusal = false) result

namespace Unrefused

variable {α : Type}

/-- What is wrong with an answer is not refused by the client. -/
theorem of_answer {result : Except Error α} (h : Pdu.OfAnswer result) : Unrefused result := by
  refine FailsWith.mono h fun e he => ?_
  cases e <;> first | rfl | cases he

/-- A payload that is too short was not refused by the client. -/
theorem shortage (result : Except Shortage α) : Unrefused (result.mapError .insufficientData) :=
  FailsWith.mapError (fun _ _ => trivial) fun _ _ => rfl

/-- Items that failed were not refused by the client. -/
theorem checkCodes (codes : List ReturnCode) : Unrefused (Batch.checkCodes codes) := by
  unfold Batch.checkCodes
  split
  · exact .ok _
  · exact .error rfl

end Unrefused

/-! ## Three kinds of calls

An atomic call composes in two ways only: behind one that looks, and in front of one that is certain.
Two atomic calls one after the other are not atomic, since the second can refuse what the first has
made possible; therefore this is no `Client.Law`.
-/

namespace Call

variable {S α β : Type}

/-- A call that changes nothing. -/
def Looks (call : Call S α) : Prop :=
  ∀ s, (call.outcome s).2 = s

/-- A call that never ends with a refusal. -/
def Certain (call : Call S α) : Prop :=
  ∀ s e s', call s = .error e s' → e.isRefusal = false

/-- A call that has changed nothing if it ends with a refusal. -/
def Atomic (call : Call S α) : Prop :=
  ∀ s e s', call s = .error e s' → e.isRefusal = true → s' = s

/-- A computation without state. -/
theorem looks_ofExcept (result : Except Error α) : Looks (ofExcept result : Call S α) := by
  intro s
  cases result <;> rfl

namespace Certain

/-- A value. -/
theorem pure (value : α) : Certain (Pure.pure value : Call S α) :=
  Errs.pure value

/-- A computation without state that refuses nothing. -/
theorem ofExcept {result : Except Error α} (h : Unrefused result) :
    Certain (Call.ofExcept result : Call S α) :=
  Errs.ofExcept h

/-- A sequence. -/
theorem bind {call : Call S α} {next : α → Call S β} (h : Certain call)
    (hnext : ∀ value, Certain (next value)) : Certain (call >>= next) :=
  Errs.bind h fun value _ => hnext value

/-- A row. -/
theorem mapM {call : α → Call S β} {inputs : List α}
    (h : ∀ input ∈ inputs, Certain (call input)) : Certain (inputs.mapM call) :=
  Errs.mapM h

end Certain

namespace Atomic

/-- What refuses nothing. -/
theorem of_certain {call : Call S α} (h : Certain call) : Atomic call := by
  intro s e s' hrun he
  rw [h s e s' hrun] at he
  cases he

/-- A value. -/
theorem pure (value : α) : Atomic (Pure.pure value : Call S α) :=
  of_certain (.pure value)

/-- A refusal. -/
theorem throw (e : Error) : Atomic (MonadExcept.throw e : Call S α) := by
  rintro s _ _ ⟨⟩ -
  rfl

/-- One may look first. -/
theorem look_bind {call : Call S α} {next : α → Call S β} (h : Looks call)
    (hnext : ∀ value, Yields call value → Atomic (next value)) : Atomic (call >>= next) := by
  intro s e s' hrun he
  rcases bind_cases call next s with ⟨value, middle, hcall, hbind⟩ | ⟨e', middle, hcall, hbind⟩
  · have hmiddle : middle = s := by
      have hlook := h s
      rw [outcome_of_ok hcall] at hlook
      exact hlook
    subst hmiddle
    exact hnext value ⟨middle, middle, hcall⟩ middle e s' (hbind.symm.trans hrun) he
  · cases hbind.symm.trans hrun
    have hlook := h s
    rw [outcome_of_error hcall] at hlook
    exact hlook

/-- One may look at the arguments first. -/
theorem ofExcept_bind {result : Except Error α} {next : α → Call S β}
    (hnext : ∀ value, result = .ok value → Atomic (next value)) :
    Atomic (Call.ofExcept result >>= next) :=
  look_bind (looks_ofExcept result) fun value hvalue => hnext value hvalue.of_ofExcept

/-- A check of the arguments. -/
theorem guard {condition : Prop} [Decidable condition] {e : Error} {next : PUnit → Call S α}
    (hnext : ¬ condition → Atomic (next ())) :
    Atomic (if condition then MonadExcept.throw e >>= next else next ()) := by
  split
  · exact look_bind (fun _ => rfl) fun value hvalue => absurd hvalue (not_yields_throw e value)
  · next hcondition => exact hnext hcondition

/-- What follows must not refuse anything any more. -/
theorem bind {call : Call S α} {next : α → Call S β} (h : Atomic call)
    (hnext : ∀ value, Certain (next value)) : Atomic (call >>= next) := by
  intro s e s' hrun he
  rcases bind_cases call next s with ⟨value, middle, -, hbind⟩ | ⟨e', middle, hcall, hbind⟩
  · rw [hnext value middle e s' (hbind.symm.trans hrun)] at he
    cases he
  · cases hbind.symm.trans hrun
    exact h s e s' hcall he

/-- A value may be given another form. -/
theorem form {call : Call S α} (h : Atomic call) (form : α → β) :
    Atomic (call >>= fun value => Pure.pure (form value)) :=
  h.bind fun value => .pure (form value)

end Atomic

end Call

/-! ## Lists of items -/

namespace Channel

variable {S : Type} {c : Channel S}

theorem looks_ensureReady : Looks c.ensureReady := by
  intro s
  have h := looks_ofExcept (c.checkReady s) s
  exact h

theorem looks_pduBudget : Looks c.pduBudget :=
  fun _ => rfl

/-- A request that can be made, to an end whose failures are no refusals. -/
theorem certain_ask {α : Type} {request : UInt16 → Except Error Bytes}
    {answer : UInt16 → Bytes → Except Error α} (hexchange : ∀ message, Certain (c.exchange message))
    (hrequest : ∀ reference, ∃ message, request reference = .ok message)
    (hanswer : ∀ reference response, Unrefused (answer reference response)) :
    Certain (c.ask request answer) := by
  refine errs_ask hexchange (fun reference => ?_) hanswer
  obtain ⟨message, hmessage⟩ := hrequest reference
  rw [hmessage]
  exact .ok message

end Channel

namespace Batch

variable {S : Type} {c : Channel S} (hexchange : ∀ message, Certain (c.exchange message))

include hexchange

/-- Where a list to be read can be divided, every request can be made. -/
theorem certain_readRuns {budget : UInt16} {items : List RequestItem}
    {runs : List (List RequestItem)} (hplan : planReads budget items = .ok runs) :
    Certain (runs.mapM (readRun c)) := by
  refine .mapM fun run hrun => ?_
  obtain ⟨halone, rfl⟩ := plan_eq_ok_iff.mp hplan
  obtain ⟨hne, hcount, -⟩ := runs_fit halone run hrun
  refine Channel.certain_ask hexchange (fun reference => ?_) fun reference response =>
    .of_answer (Pdu.ofAnswer_checkReadResponse response reference run)
  obtain ⟨message, hmessage, -⟩ := encodeReadRequest_eq_ok reference hne hcount
  exact ⟨message, hmessage⟩

/-- Reading a list. -/
theorem atomic_readEach (items : List RequestItem) : Atomic (readEach c items) := by
  unfold readEach
  split
  · exact .pure []
  refine .look_bind Channel.looks_ensureReady fun _ _ => ?_
  refine .look_bind Channel.looks_pduBudget fun budget _ => ?_
  refine .ofExcept_bind fun runs hplan => .of_certain ?_
  exact (certain_readRuns hexchange hplan).bind fun _ => .pure _

/-- Reading a list all of which must succeed. -/
theorem atomic_readAll (items : List RequestItem) : Atomic (readAll c items) :=
  (atomic_readEach hexchange items).bind fun results =>
    (Certain.ofExcept (.checkCodes _)).bind fun _ => .pure results

/-- Where a list to be written can be divided, every request can be made. -/
theorem certain_writeRuns {budget : UInt16} {pairs : List (RequestItem × DataItem)}
    {runs : List (List (RequestItem × DataItem))} (hplan : planWrites budget pairs = .ok runs) :
    Certain (runs.mapM (writeRun c)) := by
  refine .mapM fun run hrun => ?_
  obtain ⟨halone, rfl⟩ := plan_eq_ok_iff.mp hplan
  obtain ⟨hne, hcount, hfits⟩ := runs_fit halone run hrun
  refine Channel.certain_ask hexchange (fun reference => ?_) fun reference response =>
    .of_answer (Pdu.ofAnswer_checkWriteResponse response reference run.length)
  -- the agreed length is one that a header can declare
  have htotal := (fits_iff.mp hfits).1.trans (Nat.le_of_lt_succ budget.toNat_lt)
  obtain ⟨message, hmessage, -⟩ := encodeWriteRequest_eq_ok reference hne hcount htotal
  exact ⟨message, hmessage⟩

/-- Writing a list. -/
theorem atomic_writeEach (items : List RequestItem) (data : List DataItem) :
    Atomic (writeEach c items data) := by
  unfold writeEach
  refine .guard fun _ => ?_
  dsimp only
  split
  · exact .pure []
  refine .look_bind Channel.looks_ensureReady fun _ _ => ?_
  refine .look_bind Channel.looks_pduBudget fun budget _ => ?_
  refine .ofExcept_bind fun runs hplan => .of_certain ?_
  exact (certain_writeRuns hexchange hplan).bind fun _ => .pure _

/-- Writing a list all of which must succeed. -/
theorem atomic_writeAll (items : List RequestItem) (data : List DataItem) :
    Atomic (writeAll c items data) :=
  (atomic_writeEach hexchange items data).bind fun codes =>
    (Certain.ofExcept (.checkCodes _)).bind fun _ => .pure codes

end Batch

/-! ## Operations -/

namespace Client

variable {S : Type} {c : Client S}

/-- Payloads are decoded without a refusal. -/
theorem certain_decodeAll {α : Type} (results : List DataItem)
    (decode : Bytes → Except Shortage α) :
    Certain (results.mapM fun item =>
      (Call.ofExcept ((decode item.payload).mapError .insufficientData) : Call S α)) :=
  .mapM fun _ _ => .ofExcept (.shortage _)

section Exchange

variable (hexchange : ∀ message, Certain (c.channel.exchange message))

include hexchange

/-! ### Reading -/

/-- The payload of a single item. -/
theorem atomic_payload_of_single (item : RequestItem) :
    Atomic (do
      let items ← Batch.readAll c.channel [item]
      match items.getLast? with
      | some item => return item.payload
      | none => throw (.framing .noDataItem)) := by
  refine (Batch.atomic_readAll hexchange [item]).bind fun results => ?_
  cases results.getLast? with
  | some result => exact .pure result.payload
  | none => exact .ofExcept (FailsWith.error (e := Error.framing .noDataItem) rfl)

/-- Reading a single item. -/
theorem atomic_readItem (item : StandardItem) : Atomic (c.readItem item) :=
  atomic_payload_of_single hexchange (.standard item)

/-- Reading bytes. -/
theorem atomic_readBytesAt (address : Address) (count : Nat) :
    Atomic (c.readBytesAt address count) := by
  unfold readBytesAt
  refine .guard fun _ => ?_
  dsimp only
  split
  · refine .guard fun _ => ?_
    exact .ofExcept_bind fun item _ => atomic_readItem hexchange item
  · refine .look_bind Channel.looks_ensureReady fun _ _ => ?_
    refine .look_bind Channel.looks_pduBudget fun budget _ => ?_
    refine .ofExcept_bind fun items _ => ?_
    exact (Batch.atomic_readAll hexchange items).form _

/-- Reading bytes from an address on. -/
theorem atomic_readBytes (address : String) (count : Nat) : Atomic (c.readBytes address count) :=
  .ofExcept_bind fun address _ => atomic_readBytesAt hexchange address count

/-- Reading elements at a place given by its parts. -/
theorem atomic_readRaw (type : ElementType) (count : UInt16) (area : Area) (block : UInt16)
    (byte : UInt32) (bit : UInt8) : Atomic (c.readRaw type count area block byte bit) :=
  .ofExcept_bind fun _ _ => .ofExcept_bind fun item _ => atomic_readItem hexchange item

/-- Reading a number in a given order of its bytes. -/
theorem atomic_readAs (α : Type) [Numeric α] (order : ByteOrder) (address : String) :
    Atomic (c.readAs α order address) :=
  .ofExcept_bind fun item _ =>
    (atomic_readItem hexchange item).bind fun _ => .ofExcept (.shortage _)

/-- Reading a bit. -/
theorem atomic_readBit (address : String) : Atomic (c.readBit address) :=
  .ofExcept_bind fun address _ =>
    (atomic_readItem hexchange (.single address)).bind fun _ => .ofExcept (.shortage _)

/-- Reading numbers. -/
theorem atomic_readNumbers (α : Type) [Numeric α] (addresses : List String) :
    Atomic (c.readNumbers α addresses) :=
  .ofExcept_bind fun items _ => (Batch.atomic_readAll hexchange items).bind fun results =>
    certain_decodeAll results (Numeric.decode α c.profile.byteOrder)

/-- Reading bits all of which must succeed. -/
theorem atomic_readBits (addresses : List String) : Atomic (c.readBits addresses) :=
  .ofExcept_bind fun items _ => (Batch.atomic_readAll hexchange items).bind fun results =>
    certain_decodeAll results isSet

/-- Reading bits as far as they can be read. -/
theorem atomic_readEachBit (addresses : List String) : Atomic (c.readEachBit addresses) := by
  refine .ofExcept_bind fun items _ => ?_
  refine (Batch.atomic_readEach hexchange items).bind fun results => .mapM fun item _ => ?_
  split
  · exact (Certain.ofExcept (.shortage _)).bind fun bit => .pure (some bit)
  · exact .pure none

/-- Reading a string up to a length. -/
theorem atomic_readStringUpTo (address : String) (length : Nat) :
    Atomic (c.readStringUpTo address length) := by
  unfold readStringUpTo
  refine .guard fun _ => ?_
  refine .ofExcept_bind fun address _ => ?_
  refine (atomic_readBytesAt hexchange address _).bind fun _ => ?_
  exact (Certain.ofExcept (.shortage _)).bind fun _ => .ofExcept (.shortage _)

/-- Reading bytes that hold a value, if they suffice for one. -/
theorem atomic_readForm {α : Type} (decode : Bytes → Except Shortage α) (address : String)
    (length : Nat) :
    Atomic (c.readBytes address length >>= fun bytes =>
      Call.ofExcept ((decode bytes).mapError .insufficientData)) :=
  (atomic_readBytes hexchange address length).bind fun _ => .ofExcept (.shortage _)

/-! ### Writing -/

/-- Writing a single item. -/
theorem atomic_writeItem (item : StandardItem) (data : DataItem) :
    Atomic (c.writeItem item data) :=
  (Batch.atomic_writeAll hexchange _ _).form fun _ => ()

/-- Writing bytes. -/
theorem atomic_writeBytesAt (address : Address) (bytes : Bytes) :
    Atomic (c.writeBytesAt address bytes) := by
  unfold writeBytesAt
  split
  · exact .ofExcept_bind fun pair _ => atomic_writeItem hexchange pair.1 pair.2
  split
  · exact .throw _
  · refine .look_bind Channel.looks_ensureReady fun _ _ => ?_
    refine .look_bind Channel.looks_pduBudget fun budget _ => ?_
    refine .ofExcept_bind fun pairs _ => ?_
    exact (Batch.atomic_writeAll hexchange _ _).form fun _ => ()

/-- Writing bytes from an address on. -/
theorem atomic_writeBytes (address : String) (bytes : Bytes) :
    Atomic (c.writeBytes address bytes) :=
  .ofExcept_bind fun address _ => atomic_writeBytesAt hexchange address bytes

/-- Writing bytes that stand for a value, if the value has some. -/
theorem atomic_writeForm (bytes : Except ArgumentError Bytes) (address : String) :
    Atomic (Call.ofExcept (bytes.mapError .invalidArgument) >>= c.writeBytes address) :=
  .ofExcept_bind fun bytes _ => atomic_writeBytes hexchange address bytes

/-- Writing elements to a place given by its parts. -/
theorem atomic_writeRaw (type : ElementType) (count : UInt16) (area : Area) (block : UInt16)
    (byte : UInt32) (bit : UInt8) (size : TransportSize) (bytes : Bytes) :
    Atomic (c.writeRaw type count area block byte bit size bytes) := by
  unfold writeRaw
  refine .guard fun _ => ?_
  exact .ofExcept_bind fun _ _ => .ofExcept_bind fun item _ => atomic_writeItem hexchange item _

/-- Writing a bit. -/
theorem atomic_writeBit (address : String) (value : Bool) : Atomic (c.writeBit address value) :=
  .ofExcept_bind fun _ _ => atomic_writeItem hexchange _ _

/-- Writing a string. -/
theorem atomic_writeString (address text : String) : Atomic (c.writeString address text) := by
  refine .ofExcept_bind fun address _ => ?_
  refine .ofExcept_bind fun payload _ => ?_
  refine .guard fun _ => ?_
  exact .ofExcept_bind fun start _ => atomic_writeBytesAt hexchange start _

/-! ### Data of a numerical control -/

/-- Reading places of a numerical control. -/
theorem atomic_readNck (items : List NckItem) : Atomic (c.readNck items) :=
  Batch.atomic_readAll hexchange _

/-- Reading a number of a numerical control. -/
theorem atomic_readNckAs (α : Type) [Numeric α] (item : NckItem) : Atomic (c.readNckAs α item) :=
  (atomic_payload_of_single hexchange (.nck item)).bind fun _ => .ofExcept (.shortage _)

end Exchange

end Client

/-! ### All operations -/

/-- Whether an operation refuses what it refuses before it asks for anything. -/
def Command.refusesFirst : Command → Bool
  | .readString _ | .readTimeOfDay _ | .readDateTime _ | .control _ => false
  | _ => true

namespace Client

variable {S : Type} {c : Client S}

/-- An operation that refuses first has changed nothing if it refuses. -/
theorem atomic_perform (hexchange : ∀ message, Certain (c.channel.exchange message))
    {command : Command} (h : command.refusesFirst = true) : Atomic (c.perform command) := by
  -- what is made of the value of an operation does not matter; so one lemma for each operation is
  -- enough
  cases command with
  | readRaw type count area block byte bit =>
    exact (atomic_readRaw hexchange type count area block byte bit).form _
  | readBytes address count => exact (atomic_readBytes hexchange address count).form _
  | readByte address => exact (atomic_readAs hexchange UInt8 .big address).form _
  | readBit address => exact (atomic_readBit hexchange address).form _
  | readBits addresses => exact (atomic_readBits hexchange addresses).form _
  | readEachBit addresses => exact (atomic_readEachBit hexchange addresses).form _
  | readNumber type address => exact (atomic_readAs hexchange type.Value _ address).form _
  | readNumbers type addresses => exact (atomic_readNumbers hexchange type.Value addresses).form _
  | readMany list => exact (Batch.atomic_readAll hexchange _).form _
  | readEachOf list => exact ((Batch.atomic_readEach hexchange _).form _).form _
  | readStringUpTo address length => exact (atomic_readStringUpTo hexchange address length).form _
  | readDate address => exact (atomic_readForm hexchange Payload.decodeDate address 2).form _
  | readTime address => exact (atomic_readForm hexchange Payload.decodeTime address 4).form _
  | writeRaw type count area block byte bit size bytes =>
    exact (atomic_writeRaw hexchange type count area block byte bit size bytes).form _
  | writeBytes address bytes => exact (atomic_writeBytes hexchange address bytes).form _
  | writeByte address value => exact (atomic_writeBytes hexchange address [value]).form _
  | writeBit address value => exact (atomic_writeBit hexchange address value).form _
  | writeNumber type address value => exact (atomic_writeBytes hexchange address _).form _
  | writeString address text => exact (atomic_writeString hexchange address text).form _
  | writeDate address date => exact (atomic_writeForm hexchange _ address).form _
  | writeTimeOfDay address time => exact (atomic_writeBytes hexchange address _).form _
  | writeTime address duration => exact (atomic_writeForm hexchange _ address).form _
  | writeDateTime address moment => exact (atomic_writeForm hexchange _ address).form _
  | writeMany list => exact ((Batch.atomic_writeAll hexchange _ _).form _).form _
  | writeEachOf list => exact (Batch.atomic_writeEach hexchange _ _).form _
  | readNck items => exact (atomic_readNck hexchange items).form _
  | readNckText text => exact ((atomic_payload_of_single hexchange (.nck text.item)).form _).form _
  | readNckReal real => exact (atomic_readNckAs hexchange Real64 real.item).form _
  | readNckPosition position =>
    exact ((atomic_readNck hexchange position.items).bind fun results =>
      certain_decodeAll results (Numeric.decode Real64 .little)).form _
  | readNckWord word => exact (atomic_readNckAs hexchange UInt16 word.item).form _
  | readFirstAlarm => exact (atomic_readNckAs hexchange UInt32 .firstAlarm).form _
  | readString | readTimeOfDay | readDateTime | control => cases h

/-- Where requests can be sent, a job that cannot be expressed takes a reference, and does nothing
else. -/
theorem control_inexpressible {job : Pdu.Control} {cause : ArgumentError} {s : S}
    (hready : c.channel.checkReady s = .ok ()) (hjob : job.parameters = .error cause) :
    c.control job s = .error (.invalidArgument cause) (c.channel.nextReference s).2 := by
  have hensure : c.channel.ensureReady s = .ok () s := by
    rw [Channel.ensureReady, hready]
    rfl
  have hallocate : c.channel.allocate s =
      .ok (c.channel.nextReference s).1 (c.channel.nextReference s).2 := rfl
  have hencode : job.encode (c.channel.nextReference s).1 = .error cause := by
    rw [Pdu.Control.encode, hjob]
    rfl
  rw [control, bind_of_ok hensure, bind_of_ok hallocate, hencode]
  rfl

end Client

/-! ## Refusals on a session -/

namespace Station

variable {σ : Type}

/-- An exchange that fails has not been refused by the client. -/
theorem certain_exchange (peer : Peer σ) (message : Bytes) : Certain (exchange peer message) := by
  intro st e after hrun
  cases hcheck : st.session.checkReady with
  | error refusal =>
    rw [exchange_of_checkReady hcheck] at hrun
    cases hrun
    exact Session.isRefusal_of_checkReady hcheck
  | ok =>
    unfold exchange at hrun
    rw [hcheck] at hrun
    dsimp only at hrun
    split at hrun <;> cases hrun
    rfl

/-- **A call that is refused has done nothing**, in whatever state the session is and whatever the
other end has done before: if the error is one of an address, an argument, or an item that is too
large, then the station afterwards is that of before, so that nothing has been sent, and no field of
the session has changed.

* This holds of all operations that refuse first (`Command.refusesFirst`).
* It holds of reading and writing any list of items, whether all of them have to succeed or not,
  however many requests the list takes.
* A block whose number has more than five digits is not inserted either: if the session is ready, the
  error is `.invalidArgument (.blockNumber number)`, nothing is sent, and nothing changes but the
  reference, which becomes the following one. -/
theorem refusals_change_nothing (peer : Peer σ) :
    (∀ command : Command, command.refusesFirst = true → Atomic (perform peer (.command command))) ∧
    (∀ items : List RequestItem,
      Atomic (Batch.readEach (channel peer) items) ∧ Atomic (Batch.readAll (channel peer) items)) ∧
    (∀ (items : List RequestItem) (data : List DataItem),
      Atomic (Batch.writeEach (channel peer) items data) ∧
        Atomic (Batch.writeAll (channel peer) items data)) ∧
    ∀ (st : Station σ) (type : Pdu.BlockType) (number : UInt32) (fileSystem : Pdu.FileSystem),
      st.session.state = .ready → 99999 < number.toNat →
        perform peer (.command (.control (.insert type number fileSystem))) st =
          .error (.invalidArgument (.blockNumber number.toNat))
            { st with session :=
                { st.session with reference := Session.following st.session.reference } } := by
  have hexchange := certain_exchange peer
  refine ⟨fun command h st => ?_, fun items => ?_, fun items data => ?_, ?_⟩
  · exact Client.atomic_perform (c := .ofPeer peer st.session.options) hexchange h st
  · exact ⟨Batch.atomic_readEach hexchange items, Batch.atomic_readAll hexchange items⟩
  · exact ⟨Batch.atomic_writeEach hexchange items data, Batch.atomic_writeAll hexchange items data⟩
  · intro st type number fileSystem hready hnumber
    have hjob : (Pdu.Control.insert type number fileSystem).parameters =
        .error (.blockNumber number.toNat) :=
      if_pos hnumber
    exact bind_of_error (Client.control_inexpressible (c := .ofPeer peer st.session.options)
      (checkReady_of_ready peer hready) hjob) _

/-- Two items to be written, of which only the first fits a message: it is not sent either. -/
theorem refusals_change_nothing_too_large :
    let here := greeted 40 []
    let place (byte : UInt32) (count : UInt16) : RequestItem :=
      .standard
        { address := { area := .dataBlock, block := 1, byte, bit := 0 }, type := .byte, count }
    let list : WriteList :=
      { pairs := #[(place 0 2, .ofBytes [1, 2]), (place 2 20, .ofBytes (List.replicate 20 0))] }
    here.session.state = .ready ∧
      ∃ after, perform scripted (.command (.writeEachOf list)) here =
        .error (.itemTooLarge 1 48 40) after ∧ after = here := by
  intro here place list
  obtain ⟨after, hrun⟩ : ∃ after, perform scripted (.command (.writeEachOf list)) here =
      .error (.itemTooLarge 1 48 40) after := ⟨_, rfl⟩
  refine ⟨by decide, after, hrun, ?_⟩
  exact (refusals_change_nothing scripted).1 (.writeEachOf list) rfl here _ after hrun rfl

end Station

end S7Comm
