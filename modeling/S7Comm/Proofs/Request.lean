import Mathlib
import S7Comm.Proofs.Operations

/-!
# What a client asks for

When a request can be expressed, and what its bytes are.

* `encodeReadRequest_eq_ok_iff`: a request to read is refused only for the number of its items, which
  has to be from 1 to 255.
* `encodeWriteRequest_eq_ok_iff`: in a request to write, the length of the data has to be one that a
  header can declare as well. That of the parameters always is one, as 255 items take at most `2 + 12
  * 255` bytes (`itemsLength_le`).
* `StandardItem.decode_encode`, `StandardItem.sent`: the bytes are taken apart as a controller would
  do it, the header first and then the items one after the other. Of an item everything comes back but
  a place that three bytes do not hold, and its bit if its place is a number.

These are facts about single messages. How many messages there are, and which items go together, is
the business of a plan.
-/

namespace S7Comm

open Call

/-! ## Items -/

/-- What the items of a request take: 12 bytes for each place in memory, and 10 for each of a
numerical control. -/
def itemsLength (items : List RequestItem) : Nat :=
  (items.map RequestItem.encodedLength).sum

/-- The codes of some items in a row are as long as the items take. -/
theorem length_flatMap_encode (items : List RequestItem) :
    (items.flatMap RequestItem.encode).length = itemsLength items := by
  have hlengths : items.map (fun item => item.encode.length) = items.map RequestItem.encodedLength :=
    List.map_congr_left fun item _ => item.length_encode
  rw [List.length_flatMap, hlengths]
  rfl

/-- No item takes more than 12 bytes. -/
theorem itemsLength_le (items : List RequestItem) : itemsLength items ≤ 12 * items.length := by
  induction items with
  | nil => exact Nat.le_refl _
  | cons item items ih =>
    have hitem : item.encodedLength ≤ 12 := by
      cases item with
      | standard item => exact Nat.le_refl _
      | nck item => exact (by decide : NckItem.encodedLength ≤ 12)
    simp only [itemsLength, List.map_cons, List.sum_cons, List.length_cons] at ih ⊢
    omega

/-- An item as it is read back: its place is what three bytes hold of it. -/
def StandardItem.sent (item : StandardItem) : StandardItem :=
  let place := offsetOf item.type (item.place.toNat % capacity 3)
  { item with address := { item.address with byte := place.1, bit := place.2 } }

/-- An item is read back as it was sent, and what stands behind it is left: `decode (item.encode ++
rest) = .ok (item.sent, rest)`, for any item and any bytes behind it. So items in a row can be read
back one after the other. -/
theorem StandardItem.decode_encode (item : StandardItem) (rest : Bytes) :
    decode (item.encode ++ rest) = .ok (item.sent, rest) := by
  obtain ⟨place₂, place₁, place₀, hplace⟩ : ∃ place₂ place₁ place₀,
      bigEndian 3 item.place.toNat = [place₂, place₁, place₀] := ⟨_, _, _, rfl⟩
  have hspelled := spelled_bigEndian 3 item.place.toNat
  rw [hplace] at hspelled
  have htype : ElementType.ofCode? item.type.code = some item.type :=
    ElementType.ofCode?_eq_some_iff.mpr rfl
  have harea : Area.ofCode? item.address.area.code = some item.address.area :=
    Area.ofCode?_eq_some_iff.mpr rfl
  rw [encode, hplace]
  simp only [wordBytes, List.cons_append, List.nil_append, decode, htype, harea, word_wordBytes,
    hspelled]
  rfl

/-! ## Requests -/

namespace Pdu

/-- A number of items that can be told is told. -/
theorem Access.toNat_count {count : Nat} (h : count ≤ maxItems) :
    (UInt8.ofNat count).toNat = count := by
  simp only [maxItems] at h
  simp
  omega

/-- The header of a request whose blocks have the given lengths. -/
def requestHeader (reference : UInt16) (parameters data : Nat) : Header :=
  { kind := .job, reference, parameterLength := UInt16.ofNat parameters,
    dataLength := UInt16.ofNat data }

/-- The parameter block of a request. -/
def Access.parameters (access : Access) (items : List RequestItem) : Bytes :=
  access.code :: UInt8.ofNat items.length :: items.flatMap RequestItem.encode

/-- The request to read some items. -/
def readRequest (reference : UInt16) (items : List RequestItem) : Bytes :=
  (requestHeader reference (Access.read.parameters items).length 0).encode ++
    Access.read.parameters items

/-- The request to write data to some items. -/
def writeRequest (reference : UInt16) (items : List RequestItem) (data : List DataItem) : Bytes :=
  (requestHeader reference (Access.write.parameters items).length
    (DataItem.encodeBlock data).length).encode ++ Access.write.parameters items ++
      DataItem.encodeBlock data

/-- What follows the header of a request is found behind it. -/
theorem decode_requestHeader (reference : UInt16) (parameters data : Nat) (rest : Bytes) :
    Header.decode ((requestHeader reference parameters data).encode ++ rest) =
      .ok (requestHeader reference parameters data, rest) := by
  show Except.ok (_, _) = _
  rw [word_wordBytes, word_wordBytes, word_wordBytes]
  rfl

/-- The parameters have the function, the number of the items, and the items. -/
theorem length_parameters (access : Access) (items : List RequestItem) :
    (access.parameters items).length = Access.countLength + itemsLength items := by
  rw [Access.parameters, List.length_cons, List.length_cons, length_flatMap_encode]
  simp only [Access.countLength]
  omega

/-- Parameters can be encoded exactly of 1 to 255 items, and are then `access.parameters items`. That
the number of them is a byte is why there are not more. -/
theorem encodeParameters_eq_ok_iff {access : Access} {items : List RequestItem} {bytes : Bytes} :
    access.encodeParameters items = .ok bytes ↔
      items ≠ [] ∧ items.length ≤ Access.maxItems ∧ bytes = access.parameters items := by
  unfold Access.encodeParameters
  split
  · next hmany => exact ⟨by rintro ⟨⟩, fun h => absurd h.2.1 (Nat.not_le.mpr hmany)⟩
  · next hcount =>
    split
    · next hnone => exact ⟨by rintro ⟨⟩, fun h => absurd hnone h.1⟩
    · next hsome =>
      constructor
      · rintro ⟨⟩
        exact ⟨hsome, Nat.not_lt.mp hcount, rfl⟩
      · rintro ⟨-, -, rfl⟩
        rfl

/-- The header of a request can be made exactly if each of its two blocks has at most 65535 bytes. -/
theorem job_eq_ok_iff {reference : UInt16} {parameters data : Nat} {header : Header} :
    Header.job reference parameters data = .ok header ↔
      parameters ≤ 65535 ∧ data ≤ 65535 ∧ header = requestHeader reference parameters data := by
  unfold Header.job
  split
  · next hlong => exact ⟨by rintro ⟨⟩, fun h => absurd h.1 (Nat.not_le.mpr hlong)⟩
  · next hparameters =>
    split
    · next hlong => exact ⟨by rintro ⟨⟩, fun h => absurd h.2.1 (Nat.not_le.mpr hlong)⟩
    · next hdata =>
      constructor
      · rintro ⟨⟩
        exact ⟨Nat.not_lt.mp hparameters, Nat.not_lt.mp hdata, rfl⟩
      · rintro ⟨-, -, rfl⟩
        rfl

/-- The parameters of a request with at most 255 items can always be declared, being `2 + 12 * 255`
bytes at most. So it is never for its parameters that a header is refused. -/
theorem length_parameters_le (access : Access) {items : List RequestItem}
    (hcount : items.length ≤ Access.maxItems) : (access.parameters items).length ≤ 65535 := by
  have hitems := itemsLength_le items
  rw [length_parameters]
  simp only [Access.maxItems] at hcount
  simp only [Access.countLength]
  omega

/-- A request to read can be expressed exactly if it has 1 to 255 items. There is one message for the
items and the reference, and it is `readRequest reference items`. -/
theorem encodeReadRequest_eq_ok_iff {reference : UInt16} {items : List RequestItem}
    {message : Bytes} :
    encodeReadRequest reference items = .ok message ↔
      items ≠ [] ∧ items.length ≤ Access.maxItems ∧ message = readRequest reference items := by
  simp only [encodeReadRequest, except_bind_eq_ok_iff, lift_argument_eq_ok_iff,
    encodeParameters_eq_ok_iff, job_eq_ok_iff]
  constructor
  · rintro ⟨_, ⟨hne, hcount, rfl⟩, _, ⟨-, -, rfl⟩, h⟩
    cases h
    exact ⟨hne, hcount, rfl⟩
  · rintro ⟨hne, hcount, rfl⟩
    exact ⟨_, ⟨hne, hcount, rfl⟩, _, ⟨length_parameters_le .read hcount, Nat.zero_le _, rfl⟩, rfl⟩

/-- A request to write can be expressed exactly if it has as many data as items, 1 to 255 items, and a
data block of at most 65535 bytes. The length of each single payload is no condition: the length field
of an item takes what is left of it in 16 bits. -/
theorem encodeWriteRequest_eq_ok_iff {reference : UInt16} {items : List RequestItem}
    {data : List DataItem} {message : Bytes} :
    encodeWriteRequest reference items data = .ok message ↔
      items.length = data.length ∧ items ≠ [] ∧ items.length ≤ Access.maxItems ∧
        DataItem.blockLength data ≤ 65535 ∧ message = writeRequest reference items data := by
  simp only [encodeWriteRequest, guard_eq_ok_iff, except_bind_eq_ok_iff, lift_argument_eq_ok_iff,
    encodeParameters_eq_ok_iff, job_eq_ok_iff, ← DataItem.length_encodeBlock]
  constructor
  · rintro ⟨hpaired, _, ⟨hne, hcount, rfl⟩, _, ⟨-, hdata, rfl⟩, h⟩
    cases h
    exact ⟨not_not.mp hpaired, hne, hcount, hdata, rfl⟩
  · rintro ⟨hpaired, hne, hcount, hdata, rfl⟩
    exact ⟨not_not.mpr hpaired, _, ⟨hne, hcount, rfl⟩, _,
      ⟨length_parameters_le .write hcount, hdata, rfl⟩, rfl⟩

/-- The length of a request to read: 12 bytes, and the items. -/
theorem length_readRequest (reference : UInt16) (items : List RequestItem) :
    (readRequest reference items).length =
      jobHeaderLength + Access.countLength + itemsLength items := by
  have hheader : (requestHeader reference (Access.read.parameters items).length 0).encode.length =
      jobHeaderLength :=
    Header.length_encode _
  rw [readRequest, List.length_append, hheader, length_parameters]
  omega

/-- A request to read always fits a packet: at most `12 + 12 * 255` bytes, where a packet takes 65528.
-/
theorem length_readRequest_le (reference : UInt16) {items : List RequestItem}
    (hcount : items.length ≤ Access.maxItems) : (readRequest reference items).length ≤ 65528 := by
  have hitems := itemsLength_le items
  rw [length_readRequest]
  simp only [Access.maxItems] at hcount
  simp only [jobHeaderLength, Access.countLength]
  omega

/-- The length of a request to write: 12 bytes, the items, and the data block with its fill bytes. -/
theorem length_writeRequest (reference : UInt16) (items : List RequestItem)
    (data : List DataItem) :
    (writeRequest reference items data).length =
      jobHeaderLength + Access.countLength + itemsLength items + DataItem.blockLength data := by
  have hheader : (requestHeader reference (Access.write.parameters items).length
      (DataItem.encodeBlock data).length).encode.length = jobHeaderLength :=
    Header.length_encode _
  rw [writeRequest, List.length_append, List.length_append, hheader, length_parameters,
    DataItem.length_encodeBlock]
  omega

end Pdu

end S7Comm
