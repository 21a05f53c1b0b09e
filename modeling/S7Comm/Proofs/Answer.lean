import S7Comm.Proofs.Request

/-!
# What a controller answers

The library only takes answers apart. To say what it does against a controller that does its part, one
has to say what such a controller sends, and this is done here.

* `Pdu.answer access reference count data`: an acknowledgment with data, whose parameters are the
  function and the number of items. `Pdu.readAnswer` has a row of items for its data, and
  `Pdu.writeAnswer` a byte for each item.
* `Answered`: one item of an answer to a request to read, given by its bytes: any return code, any
  code for the transport size, and any length field, so long as the field declares the payload that
  follows. Several fields declare the same payload (in bits, 1 to 8 all mean one byte), so the items
  of a controller are more than those that `DataItem.encode` writes; where it puts fill bytes is the
  same.
* `Suits request answered`: what a controller may answer to an item, exactly the bytes that were asked
  for, or a failure and no bytes.

**Main results.** What was put together here is what the library finds in it:
`Pdu.decodeReadResponse_readAnswer` for reading, `Pdu.decodeWriteResponse_writeAnswer` for writing.
The checks that follow the decoding pass if the items suit the request
(`Batch.checkReadResponse_readAnswer`, `Batch.checkWriteResponse_writeAnswer`). The converse, that
nothing else is accepted, is in `S7Comm.Proofs.AnswerFormat` and `S7Comm.Proofs.Received`.
-/

namespace S7Comm

open Call

/-! ## Items of an answer

A reader finds the end of an item from its length field and skips a byte behind an odd payload. The
writer of `encode` puts that byte behind every item but the last, so that the two meet in every case
(`decode_encode_false`, `decode_encode_true`).
-/

/-- One item of an answer to a request to read, as it stands on the wire. -/
structure Answered where
  /-- The byte of the return code. -/
  code : UInt8
  /-- The byte of the transport size. -/
  sizeCode : UInt8
  /-- The length field. -/
  field : UInt16
  /-- The payload. -/
  payload : Bytes
  /-- The length field declares the payload. -/
  declared : (TransportSize.ofCode sizeCode).payloadLength field = payload.length

namespace Answered

/-- What is found in the item. -/
def item (a : Answered) : DataItem :=
  { returnCode := .ofCode a.code, size := .ofCode a.sizeCode, payload := a.payload }

/-- The bytes of the item, which is the last of its block or not. -/
def encode (a : Answered) (last : Bool) : Bytes :=
  [a.code, a.sizeCode] ++ wordBytes a.field ++ a.payload ++
    if !last && a.item.isOdd then [0] else []

/-- The bytes of a row of items. -/
def encodeBlock : List Answered → Bytes
  | [] => []
  | [a] => a.encode true
  | a :: next :: others => a.encode false ++ encodeBlock (next :: others)

/-- An item takes its header, its payload, and a fill byte if it has an odd payload and is not the
last. -/
theorem length_encode (a : Answered) (last : Bool) :
    (a.encode last).length = a.item.encodedLength + if !last && a.item.isOdd then 1 else 0 := by
  have hbody : ([a.code, a.sizeCode] ++ wordBytes a.field ++ a.payload).length =
      a.item.encodedLength := by
    simp [DataItem.encodedLength, DataItem.headerLength, wordBytes, item]
    omega
  rw [encode, List.length_append, hbody]
  cases !last && a.item.isOdd <;> rfl

theorem length_encode_le (a : Answered) (last : Bool) :
    (a.encode last).length ≤
      DataItem.headerLength + a.payload.length + if a.item.isOdd then 1 else 0 := by
  have hbody : a.item.encodedLength = DataItem.headerLength + a.payload.length := rfl
  rw [length_encode, hbody]
  cases last with
  | true => exact Nat.le_add_right _ _
  | false => exact Nat.le_refl _

/-- The last item of a row is the one behind which the row is empty. -/
theorem encodeBlock_cons (a : Answered) (answers : List Answered) :
    encodeBlock (a :: answers) = a.encode answers.isEmpty ++ encodeBlock answers := by
  cases answers with
  | nil => exact (List.append_nil _).symm
  | cons next others => rfl

/-- Behind an item a reader skips the byte that its odd payload needs, if there is one. -/
theorem decode_declared (a : Answered) (behind : Bytes) :
    DataItem.decode ([a.code, a.sizeCode] ++ wordBytes a.field ++ a.payload ++ behind) =
      .ok (a.item, if a.payload.length % 2 = 1 then behind.tail else behind) := by
  show DataItem.decode (a.code :: a.sizeCode :: UInt8.ofNat (a.field.toNat / 256) ::
    UInt8.ofNat a.field.toNat :: (a.payload ++ behind)) = _
  rw [DataItem.decode]
  dsimp only
  rw [word_wordBytes, a.declared, List.take_left, List.drop_left, if_neg (Nat.lt_irrefl _)]
  rfl

/-- An item that is not the last is followed by what follows it. -/
theorem decode_encode_false (a : Answered) (rest : Bytes) :
    DataItem.decode (a.encode false ++ rest) = .ok (a.item, rest) := by
  rw [encode, List.append_assoc, decode_declared]
  by_cases hodd : a.payload.length % 2 = 1
  · simp [DataItem.isOdd, item, hodd]
  · simp [DataItem.isOdd, item, hodd]

/-- Behind the last item there is nothing. -/
theorem decode_encode_true (a : Answered) :
    DataItem.decode (a.encode true) = .ok (a.item, []) := by
  rw [encode, decode_declared]
  simp

/-- A row of items is read as the items that it was put together from, and nothing is left. -/
theorem decodeItems_encodeBlock (index : Nat) (answers : List Answered) :
    Pdu.decodeItems index answers.length (encodeBlock answers) =
      .ok (answers.map item, []) := by
  fun_induction encodeBlock answers generalizing index with
  | case1 => rfl
  | case2 a =>
    show (DataItem.decode (a.encode true)).mapError _ >>= _ = _
    rw [decode_encode_true]
    rfl
  | case3 a next others ih =>
    show (DataItem.decode (a.encode false ++ encodeBlock (next :: others))).mapError _ >>= _ = _
    rw [decode_encode_false]
    show Pdu.decodeItems (index + 1) (next :: others).length (encodeBlock (next :: others)) >>= _ = _
    rw [ih]
    rfl

end Answered

/-- What a controller may answer to an item: exactly the bytes that were asked for, or a failure and
no bytes. Of data of a numerical control nothing is known beforehand. -/
def Suits : RequestItem → Answered → Prop
  | .standard item, a =>
    if a.item.isSuccess then a.payload.length = item.dataLength else a.payload = []
  | .nck _, _ => True

/-! ## Checks of a header -/

namespace Pdu.Header

variable {header : Header}

/-- An acknowledgment with data is told by its kind. -/
theorem requireAckData_eq_ok_iff : header.requireAckData = .ok () ↔ header.kind = .ackData := by
  unfold requireAckData
  split
  · next hkind => exact iff_of_true rfl hkind
  · next hkind => exact iff_of_false nofun hkind

/-- An answer is told by its reference. -/
theorem requireReference_eq_ok_iff {reference : UInt16} :
    header.requireReference reference = .ok () ↔ header.reference = reference := by
  unfold requireReference
  split
  · next hreference => exact iff_of_true rfl hreference
  · next hreference => exact iff_of_false nofun hreference

/-- Anything but two zeros is a report. -/
theorem report_ne_iff : header.report ≠ ⟨0, 0⟩ ↔
    header.report.errorClass ≠ 0 ∨ header.report.errorCode ≠ 0 := by
  rw [ne_eq, ProtocolError.mk.injEq header.report.errorClass header.report.errorCode 0 0,
    not_and_or]

/-- Without a report, the check for one is passed. -/
theorem requireNoReport_eq_ok_iff : header.requireNoReport = .ok () ↔ header.report = ⟨0, 0⟩ := by
  unfold requireNoReport
  split
  · next hreport => exact iff_of_false nofun (report_ne_iff.mpr hreport)
  · next hreport => exact iff_of_true rfl (not_not.mp (mt report_ne_iff.mp hreport))

/-- A report is the error of the check. -/
theorem requireNoReport_of_report (h : header.report ≠ ⟨0, 0⟩) :
    header.requireNoReport = .error header.report := by
  rw [requireNoReport, if_pos (report_ne_iff.mp h)]

/-- An acknowledgment with data is an acknowledgment. -/
theorem isAck_of_ackData (h : header.kind = .ackData) : header.kind.isAck = true := by
  rw [h]
  rfl

/-- So it is not refused as something else. -/
theorem requireAck_of_ackData (h : header.kind = .ackData) : header.requireAck = .ok () :=
  if_pos (isAck_of_ackData h)

end Pdu.Header

/-! ## Answers -/

namespace Pdu

/-- The header of an acknowledgment with a data block of the given length, which repeats function and
number of items. -/
def answerHeader (reference : UInt16) (length : Nat) : Header :=
  { kind := .ackData, reference, parameterLength := UInt16.ofNat Access.countLength,
    dataLength := UInt16.ofNat length }

/-- The answer of a controller to a request with the given reference and number of items. -/
def answer (access : Access) (reference : UInt16) (count : Nat) (data : Bytes) : Bytes :=
  (answerHeader reference data.length).encode ++ [access.code, UInt8.ofNat count] ++ data

/-- The answer to a request to read. -/
def readAnswer (reference : UInt16) (answers : List Answered) : Bytes :=
  answer .read reference answers.length (Answered.encodeBlock answers)

/-- The answer to a request to write, which has a byte for each item. -/
def writeAnswer (reference : UInt16) (codes : List UInt8) : Bytes :=
  answer .write reference codes.length codes

/-- An answer takes a header, the function and the number of items, and its data. -/
theorem length_answer (access : Access) (reference : UInt16) (count : Nat) (data : Bytes) :
    (answer access reference count data).length =
      ackHeaderLength + Access.countLength + data.length := by
  have hheader : (answerHeader reference data.length).encode.length = ackHeaderLength :=
    Header.length_encode _
  simp only [answer, List.length_append, hheader, List.length_cons, List.length_nil,
    Access.countLength]

/-- An answer is opened to its header and its blocks. -/
theorem openAnswer_answer {access : Access} {reference : UInt16} {count : Nat} {data : Bytes}
    (h : data.length ≤ 65535) :
    openAnswer (answer access reference count data) =
      .ok (answerHeader reference data.length, [access.code, UInt8.ofNat count], data) := by
  have hlength : (UInt16.ofNat data.length).toNat = data.length := by
    simp
    omega
  have hdecode : Header.decode (answer access reference count data) =
      .ok (answerHeader reference data.length, access.code :: UInt8.ofNat count :: data) := by
    show Except.ok (_, _) = _
    rw [word_wordBytes, word_wordBytes, word_wordBytes]
    rfl
  have hblocks : (answerHeader reference data.length).splitBlocks
      (access.code :: UInt8.ofNat count :: data) = .ok ([access.code, UInt8.ofNat count], data) := by
    simp [Header.splitBlocks, answerHeader, hlength, Access.countLength]
    omega
  simp only [openAnswer, except_bind_eq_ok_iff, lift_framing_eq_ok_iff]
  exact ⟨_, hdecode, (), rfl, (), rfl, (), rfl, _, hblocks, rfl⟩

/-- What a controller answered is what is found in its answer. -/
theorem decodeReadResponse_readAnswer {reference : UInt16} {answers : List Answered}
    (hcount : answers.length ≤ Access.maxItems)
    (hlength : (Answered.encodeBlock answers).length ≤ 65535) :
    decodeReadResponse (readAnswer reference answers) =
      .ok (answerHeader reference (Answered.encodeBlock answers).length,
        answers.map Answered.item) := by
  have hitems : decodeItems 0 (UInt8.ofNat answers.length).toNat (Answered.encodeBlock answers) =
      .ok (answers.map Answered.item, []) := by
    rw [Access.toNat_count hcount, Answered.decodeItems_encodeBlock]
  simp only [decodeReadResponse, except_bind_eq_ok_iff, lift_framing_eq_ok_iff, guard_eq_ok_iff]
  exact ⟨_, openAnswer_answer hlength, _, rfl, _, hitems, not_not_intro rfl, rfl⟩

/-- The codes that a controller answered are the codes that are found in its answer. -/
theorem decodeWriteResponse_writeAnswer {reference : UInt16} {codes : List UInt8}
    (hcount : codes.length ≤ Access.maxItems) :
    decodeWriteResponse (writeAnswer reference codes) =
      .ok (answerHeader reference codes.length, codes.map ReturnCode.ofCode) := by
  have htold := Access.toNat_count hcount
  have hlength : codes.length ≤ 65535 := Nat.le_trans hcount (by decide)
  simp only [decodeWriteResponse, except_bind_eq_ok_iff, lift_framing_eq_ok_iff, guard_eq_ok_iff]
  exact ⟨_, openAnswer_answer hlength, _, rfl, not_not_intro htold.symm, rfl⟩

end Pdu

/-! ## Checks of an answer -/

namespace Batch

/-- Items that suit the request pass the check of their payloads. -/
theorem checkPayloads_of_suits {items : List RequestItem} {answers : List Answered}
    (h : List.Forall₂ Suits items answers) (index : Nat) :
    checkPayloads index items (answers.map Answered.item) = .ok () := by
  induction h generalizing index with
  | nil => rfl
  | @cons item a items answers hsuits _ ih =>
    cases item with
    | nck item => exact ih (index + 1)
    | standard item =>
      have hpass : ¬ (a.item.isSuccess ∧ a.item.payload.length ≠ item.dataLength) := by
        rintro ⟨hsuccess, hlength⟩
        simp only [Suits, hsuccess, if_true] at hsuits
        exact hlength hsuits
      show (if a.item.isSuccess ∧ a.item.payload.length ≠ item.dataLength then _
        else checkPayloads (index + 1) items (answers.map Answered.item)) = _
      rw [if_neg hpass]
      exact ih (index + 1)

/-- The answer of a controller that does its part is accepted, and what is returned is what the
controller answered. -/
theorem checkReadResponse_readAnswer {reference : UInt16} {items : List RequestItem}
    {answers : List Answered} (h : List.Forall₂ Suits items answers)
    (hcount : items.length ≤ Pdu.Access.maxItems)
    (hlength : (Answered.encodeBlock answers).length ≤ 65535) :
    checkReadResponse (Pdu.readAnswer reference answers) reference items =
      .ok (answers.map Answered.item) := by
  have hsame : answers.length = items.length := h.length_eq.symm
  refine checkReadResponse_eq_ok_iff.mpr ⟨_, Pdu.decodeReadResponse_readAnswer ?_ hlength, ?_, ?_,
    checkPayloads_of_suits h 0⟩
  · rw [hsame]
    exact hcount
  · exact if_pos rfl
  · rw [List.length_map, hsame]

/-- So is the row of codes that answers a request to write. -/
theorem checkWriteResponse_writeAnswer {reference : UInt16} {codes : List UInt8}
    (hcount : codes.length ≤ Pdu.Access.maxItems) :
    checkWriteResponse (Pdu.writeAnswer reference codes) reference codes.length =
      .ok (codes.map ReturnCode.ofCode) := by
  have hreference : (Pdu.answerHeader reference codes.length).requireReference reference = .ok () :=
    if_pos rfl
  simp only [checkWriteResponse, except_bind_eq_ok_iff, lift_framing_eq_ok_iff, guard_eq_ok_iff]
  refine ⟨_, Pdu.decodeWriteResponse_writeAnswer hcount, (), hreference, ?_, rfl⟩
  rw [List.length_map]
  exact not_not_intro rfl

end Batch

end S7Comm
