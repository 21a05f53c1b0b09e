import S7Comm.Proofs.Moments
import S7Comm.Proofs.Ranges

/-!
# Enough bytes for every value

Values are decoded from payloads, and a decoder that is given too few bytes says so; likewise an item
that was read alone might have no answer. Neither happens to a client that reads CPU memory.

* `Error.isShort`: the two errors, `.insufficientData` and `.framing .noDataItem`. `Sufficient` is a
  computation without state that does not end with them, and `Ample` such a call, in whatever state it
  is made.
* `StandardItem.le_dataLength_of_bytes`: an item for some bytes asks for as many at least, timers and
  counters being whole elements.
* `Client.le_length_of_readBytesAt`: what has been read as `count` bytes has so many, `count ≤
  bytes.length`; a range is tiled by its items. Behind the header of a string, as many characters are
  asked for as are taken.
* **Main result** (`Client.ample_perform`): every operation that reads CPU memory for values of a type
  (`Command.isTypedRead`) is ample, over any channel whose exchanges are.

**Why this is no law.** An answer is accepted only with the bytes that were asked for, so that what
has to be shown is that enough was asked for; and what is enough depends on the value that will be
decoded. In a sequence, what the first part can end with (`Yields`) is what the second one has to make
do with.

Answers that have another length than was asked for are dealt with in `S7Comm.Proofs.Misfits`.
-/

namespace S7Comm

open Call

/-! ## Errors that say that there is too little -/

/-- Whether an error says that something is missing of what was read: bytes of a value, or the answer
to an item. -/
def Error.isShort : Error → Bool
  | .insufficientData _ | .framing .noDataItem => true
  | _ => false

/-- A computation without state that lacks nothing. -/
def Sufficient {α : Type} (result : Except Error α) : Prop :=
  FailsWith (fun e => e.isShort = false) result

/-- A call that lacks nothing. -/
def Ample {S α : Type} (call : Call S α) : Prop :=
  Errs (fun e => e.isShort = false) call

namespace Sufficient

variable {α : Type}

/-- What is wrong with an argument is no lack. -/
theorem of_local {result : Except Error α} (h : Local result) : Sufficient result := by
  refine FailsWith.mono h fun e he => ?_
  cases e <;> first | rfl | cases he

/-- What is found where an answer is looked at is no lack. -/
theorem of_answer {result : Except Error α} (h : Pdu.OfAnswer result) : Sufficient result := by
  refine FailsWith.mono h fun e he => ?_
  cases e with
  | framing cause =>
    cases cause with
    | noDataItem => cases he
    | _ => rfl
  | insufficientData shortage => cases he
  | _ => rfl

/-- Where a list cannot be divided, an item is too large. -/
theorem plan {demand : α → Batch.Demand} {budget : UInt16} {items : List α} :
    Sufficient (Batch.plan demand budget items) := by
  unfold Batch.plan
  dsimp only
  split
  · exact .error rfl
  · exact .ok _

/-- Items that failed lack nothing. -/
theorem checkCodes (codes : List ReturnCode) : Sufficient (Batch.checkCodes codes) := by
  unfold Batch.checkCodes
  split
  · exact .ok _
  · exact .error rfl

/-- A request to read can be refused for its items only. -/
theorem encodeReadRequest (reference : UInt16) (items : List RequestItem) :
    Sufficient (Pdu.encodeReadRequest reference items) := by
  refine of_local ?_
  unfold Pdu.encodeReadRequest
  refine (local_argument _).bind fun _ _ => ?_
  exact (local_argument _).bind fun _ _ => .ok _

end Sufficient

namespace Ample

variable {S α β : Type}

/-- A computation without state that lacks nothing. -/
theorem ofExcept {result : Except Error α} (h : Sufficient result) :
    Ample (Call.ofExcept result : Call S α) :=
  Errs.ofExcept h

/-- What was computed without state can be gone on with. -/
theorem ofExcept_bind {result : Except Error α} {next : α → Call S β} (h : Sufficient result)
    (hnext : ∀ value, result = .ok value → Ample (next value)) :
    Ample (Call.ofExcept result >>= next) :=
  Errs.ofExcept_bind h hnext

end Ample

/-! ## Values

Each decoder has enough with the length that its type has, whatever the bytes are. Some of them fail
on bytes that are no value of the type, but that is another error.
-/

/-- Enough bytes are a number. -/
theorem Numeric.exists_decode {α : Type} [Numeric α] (order : ByteOrder) {bytes : Bytes}
    (h : Numeric.size α ≤ bytes.length) : ∃ value, decode α order bytes = .ok value :=
  ⟨_, if_neg (Nat.not_lt.mpr h)⟩

namespace Sufficient

/-- Where there is a value there is no lack. -/
theorem of_exists {α : Type} {result : Except Shortage α} (h : ∃ value, result = .ok value) :
    Sufficient (result.mapError .insufficientData) := by
  obtain ⟨value, rfl⟩ := h
  exact .ok value

/-- One byte is enough to see whether it is zero. -/
theorem isSet {bytes : Bytes} (h : 1 ≤ bytes.length) :
    Sufficient ((Client.isSet bytes).mapError .insufficientData) := by
  refine of_exists ?_
  obtain ⟨byte, hbyte⟩ := Numeric.exists_decode (α := UInt8) .big h
  rw [Client.isSet, hbyte]
  exact ⟨_, rfl⟩

/-- Two bytes are enough for a date, whichever they are. -/
theorem decodeDate {bytes : Bytes} (h : 2 ≤ bytes.length) :
    Sufficient ((Payload.decodeDate bytes).mapError .insufficientData) := by
  refine of_exists ?_
  obtain ⟨days, hdays⟩ := Numeric.exists_decode (α := UInt16) .big h
  rw [Payload.decodeDate, hdays]
  exact ⟨_, rfl⟩

/-- Four bytes are enough for a duration, whichever they are. -/
theorem decodeTime {bytes : Bytes} (h : 4 ≤ bytes.length) :
    Sufficient ((Payload.decodeTime bytes).mapError .insufficientData) := by
  refine of_exists ?_
  obtain ⟨ms, hms⟩ := Numeric.exists_decode (α := Int32) .big h
  rw [Payload.decodeTime, hms]
  exact ⟨_, rfl⟩

/-- Four bytes may be no time of the day, but they are enough for one. -/
theorem decodeTimeOfDay {bytes : Bytes} (h : 4 ≤ bytes.length) :
    Sufficient (Payload.decodeTimeOfDay bytes) := by
  obtain ⟨ms, hms⟩ := Numeric.exists_decode (α := UInt32) .big h
  unfold Payload.decodeTimeOfDay
  rw [hms]
  refine FailsWith.bind (FailsWith.ok ms) fun _ _ => ?_
  split
  · exact .ok _
  · exact .error rfl

/-- So it is with twelve bytes and a moment. -/
theorem decodeDateTime {bytes : Bytes} (h : Payload.dateTimeLength ≤ bytes.length) :
    Sufficient (Payload.decodeDateTime bytes) := by
  rw [Payload.decodeDateTime_of_length h]
  split
  · exact .ok _
  · exact .error rfl

/-- A header of one byte or more has the length of its string, in its last byte. -/
theorem stringLength {bytes : Bytes} {header : Nat} (hheader : 1 ≤ header)
    (h : header ≤ bytes.length) :
    Sufficient ((Client.stringLength bytes header).mapError .insufficientData) := by
  refine of_exists ?_
  have hlast : header - 1 < bytes.length := by omega
  rw [Client.stringLength, if_neg (Nat.ne_of_gt hheader), List.getElem?_eq_getElem hlast]
  exact ⟨_, rfl⟩

/-- Behind a header, as many characters are there as were read. -/
theorem stringText {bytes : Bytes} {header length : Nat} (h : header + length ≤ bytes.length) :
    Sufficient ((Client.stringText bytes header length).mapError .insufficientData) :=
  of_exists ⟨_, if_neg (Nat.not_lt.mpr h)⟩

end Sufficient

/-! ## What is asked for -/

/-- An item for some bytes asks for as many, and perhaps for one more: for timers and counters it asks
for `(count + 1) / 2` elements of two bytes, and in areas of bytes for the bytes. -/
theorem StandardItem.le_dataLength_of_bytes {address : Address} {count : UInt16}
    {item : StandardItem} (h : bytes address count = .ok item) : count.toNat ≤ item.dataLength := by
  have hmake : ∀ {place : Address} {type : ElementType} {number : UInt16},
      make place type number = .ok item → item.dataLength = number.toNat * type.byteSize := by
    intro place type number hmade
    unfold make at hmade
    split at hmade
    · cases hmade
    · split at hmade
      · cases hmade
      · cases hmade
        rfl
  have helements : (elementsFor count).toNat = (count.toNat + 1) / 2 := by
    have hlt := count.toNat_lt
    have hsmall : (count.toNat + 1) / 2 < 65536 := by omega
    exact UInt16.toNat_ofNat_of_lt' hsmall
  unfold bytes at h
  dsimp only at h
  -- for timers and counters half as many elements, rounded up, of two bytes each
  split at h
  · rw [hmake h, helements, ElementType.byteSize]
    omega
  · rw [hmake h, helements, ElementType.byteSize]
    omega
  · rw [hmake h, ElementType.byteSize, Nat.mul_one]

/-- An item of the memory that asks for some bytes at least. -/
def RequestItem.AsksFor (count : Nat) (item : RequestItem) : Prop :=
  ∃ place, item = .standard place ∧ count ≤ place.dataLength

namespace Client

/-- The items for some bytes at each of some addresses ask for them. -/
theorem asksFor_of_byteItems {addresses : List String} {count : UInt16} {items : List RequestItem}
    (h : byteItems addresses count = .ok items) :
    ∀ item ∈ items, item.AsksFor count.toNat := by
  have hitems := forall₂_of_mapM h
  intro item hitem
  obtain ⟨i, hi, rfl⟩ := List.getElem_of_mem hitem
  have hmade := hitems.get (hitems.length_eq ▸ hi) hi
  obtain ⟨address, -, hmade⟩ := except_bind_eq_ok_iff.mp hmade
  obtain ⟨place, hplace, hend⟩ := except_bind_eq_ok_iff.mp hmade
  exact ⟨place, (Except.ok.inj hend).symm,
    StandardItem.le_dataLength_of_bytes (lift_argument_eq_ok_iff.mp hplace)⟩

/-- The items for a bit at each of some addresses ask for a byte. -/
theorem asksFor_of_bitItems {addresses : List String} {items : List RequestItem}
    (h : bitItems addresses = .ok items) : ∀ item ∈ items, item.AsksFor 1 := by
  have hitems := forall₂_of_mapM h
  intro item hitem
  obtain ⟨i, hi, rfl⟩ := List.getElem_of_mem hitem
  have hmade := hitems.get (hitems.length_eq ▸ hi) hi
  obtain ⟨address, -, hend⟩ := except_bind_eq_ok_iff.mp hmade
  exact ⟨_, (Except.ok.inj hend).symm, Nat.le_refl 1⟩

end Client

/-! ## Lists of items -/

namespace Batch

variable {S : Type} {c : Channel S} {items : List RequestItem}

/-- A payload of an item that was read has what was asked for: if each of the items asks for `count`
bytes at least, and each of the answers is as long as its item asks for, then no payload that was read
is shorter. Items that failed are left out, as nothing is decoded of them. -/
theorem le_length_of_fulfils {count : Nat} {results : List DataItem}
    (hitems : ∀ item ∈ items, item.AsksFor count)
    (h : List.Forall₂ Pdu.Fulfils items results) :
    ∀ result ∈ results, result.isSuccess = true → count ≤ result.payload.length := by
  intro result hresult hsuccess
  obtain ⟨i, hi, rfl⟩ := List.getElem_of_mem hresult
  have hlt : i < items.length := h.length_eq ▸ hi
  obtain ⟨place, hplace, hcount⟩ := hitems _ (List.getElem_mem hlt)
  have hlength : results[i].payload.length = place.dataLength := h.get hlt hi place hplace hsuccess
  exact hcount.trans hlength.ge

/-- Where a whole list has been read strictly, each result has the length that was asked for, and each
has succeeded. -/
theorem isSuccess_of_readAll {results : List DataItem} (h : Yields (readAll c items) results) :
    List.Forall₂ Pdu.Fulfils items results ∧ ∀ result ∈ results, result.isSuccess = true := by
  obtain ⟨answers, hanswers, h⟩ := h.of_bind
  obtain ⟨_, hcodes, h⟩ := h.of_bind
  obtain rfl := h.of_pure
  refine ⟨fulfils_of_readEach hanswers, forall_isSuccess ?_⟩
  have hpassed : checkCodes (results.map DataItem.returnCode) = .ok _ := hcodes.of_ofExcept
  have hverdict := verdict_checkCodes (results.map DataItem.returnCode) results
  rw [hpassed] at hverdict
  cases hverdict with
  | passed hnone => exact hnone

variable (hready : ∀ s, Sufficient (c.checkReady s))
  (hexchange : ∀ message, Ample (c.exchange message))

include hready hexchange

/-- Reading a list. -/
theorem ample_readEach (items : List RequestItem) : Ample (readEach c items) := by
  have hrun : ∀ run, Ample (readRun c run) := fun run =>
    Channel.errs_ask hexchange (fun reference => Sufficient.encodeReadRequest reference run)
      fun reference response =>
        Sufficient.of_answer (Pdu.ofAnswer_checkReadResponse response reference run)
  have hensure : Ample c.ensureReady := by
    intro s
    exact Errs.ofExcept (hready s) s
  have hbudget : Ample c.pduBudget := by
    rintro s e s' ⟨⟩
  unfold readEach
  split
  · exact .pure []
  refine hensure.bind fun _ _ => hbudget.bind fun budget _ => ?_
  refine Ample.ofExcept_bind .plan fun runs _ => ?_
  exact (Errs.mapM fun run _ => hrun run).bind fun _ _ => .pure _

/-- Reading a list all of which must succeed. -/
theorem ample_readAll (items : List RequestItem) : Ample (readAll c items) :=
  (ample_readEach hready hexchange items).bind fun results _ =>
    (Ample.ofExcept (.checkCodes _)).bind fun _ _ => .pure results

end Batch

/-! ## Operations

There is one lemma for each way of reading, and those for single values are instances of that for a
range that is decoded (`ample_readBytes_bind`).
-/

/-- Whether an operation reads CPU memory for values of a type. -/
def Command.isTypedRead : Command → Bool
  | .readByte _ | .readBit _ | .readBits _ | .readEachBit _ | .readNumber _ _ | .readNumbers _ _ => true
  | .readString _ | .readStringUpTo _ _ => true
  | .readDate _ | .readTimeOfDay _ | .readTime _ | .readDateTime _ => true
  | _ => false

/-- No number is longer than eight bytes. -/
theorem NumberType.size_le (type : NumberType) : Numeric.size type.Value ≤ 8 := by
  cases type <;> decide

namespace Client

variable {S : Type} {c : Client S}

/-- What can be read as `count` bytes of an address has as many at least, `count ≤ bytes.length`. In
an area of bytes it has just so many, as the items tile the range; of timers and counters it may have
one more. -/
theorem le_length_of_readBytesAt (hcertain : ∀ message, Certain (c.channel.exchange message))
    {text : String} {address : Address} (hparse : Address.parse text = .ok address) {count : Nat}
    (hcount : 1 ≤ count) {bytes : Bytes} (h : Yields (c.readBytesAt address count) bytes) :
    count ≤ bytes.length := by
  obtain ⟨s, s', hrun⟩ := h
  by_cases harea : address.area.holdsElements = true
  · have hreads := readsElements_readBytesAt c harea hcount s
    by_cases hlong : 65535 < count
    · cases (hreads.many hlong).symm.trans hrun
    · rw [(hreads.single (Nat.not_lt.mp hlong)).2.2 bytes s' hrun]
      omega
  · have hbytes : address.area.holdsElements = false := Bool.eq_false_of_not_eq_true harea
    rcases hready : c.channel.checkReady s with e | _
    · -- a session that is not ready reads nothing
      have hensure : c.channel.ensureReady s = .error e s := by
        rw [Channel.ensureReady, hready]
        rfl
      rw [readBytesAt, if_neg (Nat.ne_of_gt hcount)] at hrun
      dsimp only at hrun
      rw [if_neg harea, bind_of_error hensure] at hrun
      cases hrun
    · have hmake := Address.make_of_parse hparse
      have hreads := readsPieces_readBytesAt hready hmake hbytes hcertain hcount
      by_cases hover : Overruns address (readPiece (c.channel.budget s)) count
      · obtain ⟨cause, s'', hrefused⟩ := hreads.bounded.refused.mpr hover
        cases hrefused.symm.trans hrun
      · obtain ⟨items, -, -, hall⟩ := hreads.tiled hover
        exact (hall bytes s' hrun).1.ge

section Ample

variable (hready : ∀ s, Sufficient (c.channel.checkReady s))
  (hexchange : ∀ message, Ample (c.channel.exchange message))

include hready hexchange

/-- Reading a single item: what was read has a result for each item, so the last of the results
exists, and the error for an item without an answer is not met. -/
theorem ample_readItem (item : StandardItem) : Ample (c.readItem item) := by
  refine (Batch.ample_readAll hready hexchange [.standard item]).bind fun results hresults => ?_
  obtain ⟨result, hresult⟩ := Batch.getLast?_of_readAll_singleton hresults
  rw [hresult]
  exact .pure result.payload

/-- Reading some bytes. -/
theorem ample_readBytesAt (address : Address) (count : Nat) : Ample (c.readBytesAt address count) := by
  unfold readBytesAt
  refine .guard rfl fun _ => ?_
  dsimp only
  split
  · refine .guard rfl fun _ => ?_
    exact Ample.ofExcept_bind (.of_local (local_argument _)) fun item _ =>
      ample_readItem hready hexchange item
  · have hensure : Ample c.channel.ensureReady := by
      intro s
      exact Errs.ofExcept (hready s) s
    have hbudget : Ample c.channel.pduBudget := by
      rintro s e s' ⟨⟩
    refine hensure.bind fun _ _ => hbudget.bind fun budget _ => ?_
    refine Ample.ofExcept_bind (.of_local (local_argument _)) fun items _ => ?_
    exact (Batch.ample_readAll hready hexchange items).bind fun _ _ => .pure _

/-- Reading a number. -/
theorem ample_readAs (α : Type) [Numeric α] (hsize : Numeric.size α ≤ 8) (order : ByteOrder)
    (address : String) : Ample (c.readAs α order address) := by
  have hcount : (UInt16.ofNat (Numeric.size α)).toNat = Numeric.size α :=
    UInt16.toNat_ofNat_of_lt' (Nat.lt_of_le_of_lt hsize (by decide))
  refine Ample.ofExcept_bind (.of_local ?_) fun item hitem => ?_
  · exact (local_parse address).bind fun _ _ => local_argument _
  · refine (ample_readItem hready hexchange item).bind fun bytes hbytes => ?_
    obtain ⟨s, s', hrun⟩ := hbytes
    obtain ⟨place, -, hplace⟩ := except_bind_eq_ok_iff.mp hitem
    have hasked := StandardItem.le_dataLength_of_bytes (lift_argument_eq_ok_iff.mp hplace)
    rw [hcount, ← length_of_readItem hrun] at hasked
    exact Ample.ofExcept (.of_exists (Numeric.exists_decode order hasked))

/-- Reading a bit. -/
theorem ample_readBit (address : String) : Ample (c.readBit address) := by
  refine Ample.ofExcept_bind (.of_local (local_parse address)) fun place _ => ?_
  refine (ample_readItem hready hexchange (.single place)).bind fun bytes hbytes => ?_
  obtain ⟨s, s', hrun⟩ := hbytes
  exact Ample.ofExcept (.isSet (length_of_readItem hrun).ge)

/-- Reading numbers. -/
theorem ample_readNumbers (α : Type) [Numeric α] (hsize : Numeric.size α ≤ 8)
    (addresses : List String) : Ample (c.readNumbers α addresses) := by
  have hcount : (UInt16.ofNat (Numeric.size α)).toNat = Numeric.size α :=
    UInt16.toNat_ofNat_of_lt' (Nat.lt_of_le_of_lt hsize (by decide))
  refine Ample.ofExcept_bind (.of_local (local_byteItems addresses _)) fun items hitems => ?_
  refine (Batch.ample_readAll hready hexchange items).bind fun results hresults => ?_
  obtain ⟨hfulfils, hsuccess⟩ := Batch.isSuccess_of_readAll hresults
  have hlength := Batch.le_length_of_fulfils (asksFor_of_byteItems hitems) hfulfils
  rw [hcount] at hlength
  refine Errs.mapM fun result hresult => Ample.ofExcept (.of_exists ?_)
  exact Numeric.exists_decode _ (hlength result hresult (hsuccess result hresult))

/-- Reading bits all of which must succeed. -/
theorem ample_readBits (addresses : List String) : Ample (c.readBits addresses) := by
  refine Ample.ofExcept_bind (.of_local (local_bitItems addresses)) fun items hitems => ?_
  refine (Batch.ample_readAll hready hexchange items).bind fun results hresults => ?_
  obtain ⟨hfulfils, hsuccess⟩ := Batch.isSuccess_of_readAll hresults
  have hlength := Batch.le_length_of_fulfils (asksFor_of_bitItems hitems) hfulfils
  exact Errs.mapM fun result hresult =>
    Ample.ofExcept (.isSet (hlength result hresult (hsuccess result hresult)))

/-- Reading bits as far as they can be read. -/
theorem ample_readEachBit (addresses : List String) : Ample (c.readEachBit addresses) := by
  refine Ample.ofExcept_bind (.of_local (local_bitItems addresses)) fun items hitems => ?_
  refine (Batch.ample_readEach hready hexchange items).bind fun results hresults => ?_
  have hlength := Batch.le_length_of_fulfils (asksFor_of_bitItems hitems)
    (Batch.fulfils_of_readEach hresults)
  refine Errs.mapM fun result hresult => ?_
  by_cases hsuccess : result.isSuccess = true
  · rw [DataItem.payload?, if_pos hsuccess]
    exact (Ample.ofExcept (.isSet (hlength result hresult hsuccess))).bind fun _ _ => .pure _
  · rw [DataItem.payload?, if_neg hsuccess]
    exact .pure none

variable (hcertain : ∀ message, Certain (c.channel.exchange message))

include hcertain

/-- Reading a value from bytes, by whatever decoder for which `count` bytes are enough. The decoders
of dates, times and moments are instances, each with the length of its type. -/
theorem ample_readBytes_bind {α : Type} {decode : Bytes → Except Error α} {count : Nat}
    (hcount : 1 ≤ count) (hdecode : ∀ bytes, count ≤ bytes.length → Sufficient (decode bytes))
    (address : String) :
    Ample (c.readBytes address count >>= fun bytes => Call.ofExcept (decode bytes)) := by
  unfold readBytes
  rw [bind_assoc]
  refine Ample.ofExcept_bind (.of_local (local_parse address)) fun place hparse => ?_
  refine (ample_readBytesAt hready hexchange place count).bind fun bytes hbytes => ?_
  exact Ample.ofExcept (hdecode bytes (le_length_of_readBytesAt hcertain hparse hcount hbytes))

/-- Reading a string: the header is read first, and then as many bytes as the header and the string
have together. So the length that the controller told is the length that is asked for, and the text is
cut from it. -/
theorem ample_readString (hheader : 1 ≤ c.stringHeader) (address : String) :
    Ample (c.readString address) := by
  refine Ample.ofExcept_bind (.of_local (local_parse address)) fun place hparse => ?_
  refine (ample_readBytesAt hready hexchange place _).bind fun head hhead => ?_
  have hroom := le_length_of_readBytesAt hcertain hparse hheader hhead
  refine Ample.ofExcept_bind (.stringLength hheader hroom) fun length _ => ?_
  split
  · exact .pure ""
  · refine (ample_readBytesAt hready hexchange place _).bind fun bytes hbytes => ?_
    have hlength := le_length_of_readBytesAt hcertain hparse (Nat.le_add_right_of_le hheader) hbytes
    exact Ample.ofExcept (.stringText hlength)

/-- Reading a string of at most some length. The header and `length` bytes are read at once, and of
these as many are taken as the header tells, but not more than `length`. -/
theorem ample_readStringUpTo (hheader : 1 ≤ c.stringHeader) (address : String) (length : Nat) :
    Ample (c.readStringUpTo address length) := by
  unfold readStringUpTo
  refine .guard rfl fun _ => ?_
  refine Ample.ofExcept_bind (.of_local (local_parse address)) fun place hparse => ?_
  refine (ample_readBytesAt hready hexchange place _).bind fun bytes hbytes => ?_
  have hroom := le_length_of_readBytesAt hcertain hparse (Nat.le_add_right_of_le hheader) hbytes
  refine Ample.ofExcept_bind (.stringLength hheader ?_) fun actual _ => Ample.ofExcept (.stringText ?_)
  · omega
  · omega

/-- **Every operation that reads CPU memory for values has enough for them**, for a client whose
channel reports nothing of the kind itself, neither where a request cannot be sent nor in an exchange,
whose exchanges never end with a refusal (`Certain`), and whose strings have a header. By cases on the
operation, each with its lemma from above. -/
theorem ample_perform (hheader : 1 ≤ c.stringHeader) {command : Command}
    (h : command.isTypedRead = true) : Ample (c.perform command) := by
  have hvalue {α : Type} {call : Call S α} (hcall : Ample call) (form : α → Answer) :
      Ample (call >>= fun value => pure (form value)) :=
    hcall.bind fun value _ => .pure (form value)
  -- only the operations that read values are left
  cases command <;> try cases h
  case readByte address =>
    exact hvalue (ample_readAs hready hexchange UInt8 (by decide) .big address) .byte
  case readBit address => exact hvalue (ample_readBit hready hexchange address) .bit
  case readBits addresses => exact hvalue (ample_readBits hready hexchange addresses) .bits
  case readEachBit addresses =>
    exact hvalue (ample_readEachBit hready hexchange addresses) .maybeBits
  case readNumber type address =>
    exact hvalue (ample_readAs hready hexchange type.Value type.size_le _ address) (.number type)
  case readNumbers type addresses =>
    exact hvalue (ample_readNumbers hready hexchange type.Value type.size_le addresses) (.numbers type)
  case readString address =>
    exact hvalue (ample_readString hready hexchange hcertain hheader address) .text
  case readStringUpTo address length =>
    exact hvalue (ample_readStringUpTo hready hexchange hcertain hheader address length) .text
  case readDate address =>
    exact hvalue (ample_readBytes_bind hready hexchange hcertain (by decide)
      (fun _ => Sufficient.decodeDate) address) .date
  case readTimeOfDay address =>
    exact hvalue (ample_readBytes_bind hready hexchange hcertain (by decide)
      (fun _ => Sufficient.decodeTimeOfDay) address) .timeOfDay
  case readTime address =>
    exact hvalue (ample_readBytes_bind hready hexchange hcertain (by decide)
      (fun _ => Sufficient.decodeTime) address) .duration
  case readDateTime address =>
    exact hvalue (ample_readBytes_bind hready hexchange hcertain (by decide)
      (fun _ => Sufficient.decodeDateTime) address) .dateTime

end Ample

end Client

end S7Comm
