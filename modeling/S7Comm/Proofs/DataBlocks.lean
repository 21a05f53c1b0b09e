import S7Comm.Proofs.AnswerFormat
import S7Comm.Proofs.WrittenLengths

/-!
# Blocks that are read as they were written

A data block is a row of items without a mark where one ends and the next begins. A reader finds the
end of an item from its length field, and takes the byte behind an odd payload for a fill byte if
there is one. So a row can be read as it was written only if every length in it is right: one that is
not shifts all that follows.

* `DataItem.Expressible item`: its return code is that of a byte, and its payload is not longer than
  its transport size can tell, `payload.length ≤ size.maxLength`.
* `DataItem.decodeItems_encodeBlock_iff`: a row is read as it was written exactly if each of its items
  can be expressed, whatever the mix of odd, even and empty payloads. The one direction is by
  induction on the row; in the other, the first item that is read back has its own header, and what is
  left is the row of the others.
* `Pdu.decodeReadResponse_compose`, `Pdu.exists_encodeWriteRequest_iff`: the two messages in which a
  block travels.

**Main result** (`DataItem.blocks_read_back`), of both directions: in the answer to a request to read,
and in a request to write.
-/

namespace S7Comm

open Call

/-- No length field that is written says more than its transport size can tell. -/
theorem TransportSize.payloadLength_lengthField_le (size : TransportSize) (length : Nat) :
    size.payloadLength (size.lengthField length) ≤ size.maxLength := by
  cases size <;> simp only [payloadLength, lengthField, maxLength] <;> simp <;> omega

namespace DataItem

/-! ## Items that can be expressed -/

/-- An item that can be told from its bytes. -/
structure Expressible (item : DataItem) : Prop where
  /-- The return code is that of a byte. -/
  code : ∃ byte, item.returnCode = .ofCode byte
  /-- The transport size can tell the length of the payload. -/
  length : item.payload.length ≤ item.size.maxLength

variable {item : DataItem}

/-- The length in front of a payload is right exactly up to the limit of its transport size. -/
theorem told_iff : item.Told ↔ item.payload.length ≤ item.size.maxLength := by
  constructor
  · intro htold
    have hle := item.size.payloadLength_lengthField_le item.payload.length
    rw [htold] at hle
    exact hle
  · exact TransportSize.payloadLength_lengthField

/-- The return code of a byte is read from the byte that it is written as. -/
theorem Expressible.ofCode_code (h : item.Expressible) :
    ReturnCode.ofCode item.returnCode.code = item.returnCode := by
  obtain ⟨byte, hbyte⟩ := h.code
  rw [hbyte, ReturnCode.code_ofCode]

/-- An item that can be expressed is decoded, and what follows it is left. -/
theorem Expressible.decode_encode (h : item.Expressible) (rest : Bytes) :
    decode (item.encode false ++ rest) = .ok (item, rest) := by
  obtain ⟨a, hitem, hencode⟩ := exists_answered h.ofCode_code (told_iff.mpr h.length)
  rw [← hencode, a.decode_encode_false, hitem]

/-- Only such an item is what is decoded from its bytes. -/
theorem expressible_of_decode {last : Bool} {rest behind : Bytes}
    (h : decode (item.encode last ++ rest) = .ok (item, behind)) : item.Expressible := by
  obtain ⟨a, tail, hitem, hbytes, -⟩ := decode_eq_ok_iff.mp h
  have hcode : item.returnCode = .ofCode a.code := congrArg returnCode hitem
  have hsize : item.size = .ofCode a.sizeCode := congrArg size hitem
  have hpayload : item.payload = a.payload := congrArg payload hitem
  -- the four bytes of the header are the same on both sides
  have hfield : wordBytes (item.size.lengthField item.payload.length) = wordBytes a.field := by
    have hheader := congrArg (fun bytes => (bytes.drop 2).take 2) hbytes
    exact hheader
  have hlength : item.size.lengthField item.payload.length = a.field := by
    obtain ⟨hupper, hlower⟩ := List.cons.inj hfield
    rw [← word_wordBytes (item.size.lengthField item.payload.length), hupper,
      (List.cons.inj hlower).1, word_wordBytes]
  refine ⟨⟨a.code, hcode⟩, told_iff.mp ?_⟩
  rw [Told, hlength, hsize, a.declared, hpayload]

/-! ## Rows of items -/

/-- The items of a row that is read as it was written can be expressed. -/
theorem expressible_of_decodeItems {index : Nat} {items : List DataItem} {behind : Bytes}
    (h : Pdu.decodeItems index items.length (encodeBlock items) = .ok (items, behind)) :
    ∀ item ∈ items, item.Expressible := by
  fun_induction encodeBlock items generalizing index with
  | case1 => exact List.forall_mem_nil _
  | case2 item =>
    simp only [List.length_cons, Pdu.decodeItems, except_bind_eq_ok_iff, mapError_eq_ok_iff] at h
    obtain ⟨⟨_, rest⟩, hitem, ⟨_, _⟩, -, hend⟩ := h
    rw [← List.append_nil (item.encode true)] at hitem
    cases hend
    exact List.forall_mem_singleton.mpr (expressible_of_decode hitem)
  | case3 item next items ih =>
    rw [List.length_cons, Pdu.decodeItems] at h
    simp only [except_bind_eq_ok_iff, mapError_eq_ok_iff] at h
    obtain ⟨⟨_, rest⟩, hitem, ⟨_, _⟩, hothers, hend⟩ := h
    cases hend
    -- the first item can be expressed, so that what is left is the row of the others
    have hexpressible := expressible_of_decode hitem
    cases (hexpressible.decode_encode _).symm.trans hitem
    exact List.forall_mem_cons.mpr ⟨hexpressible, ih hothers⟩

/-- A row is read as it was written exactly if each of its items can be expressed. -/
theorem decodeItems_encodeBlock_iff {items : List DataItem} :
    Pdu.decodeItems 0 items.length (encodeBlock items) = .ok (items, []) ↔
      ∀ item ∈ items, item.Expressible := by
  refine ⟨expressible_of_decodeItems, fun h => ?_⟩
  exact decodeItems_encodeBlock (fun item hitem => (h item hitem).ofCode_code)
    fun item hitem => told_iff.mpr (h item hitem).length

/-- Of a row, the last item is written as the last, and the others are not. -/
theorem encodeBlock_concat (front : List DataItem) (last : DataItem) :
    encodeBlock (front ++ [last]) =
      front.flatMap (fun item => item.encode false) ++ last.encode true := by
  induction front with
  | nil => rfl
  | cons item front ih =>
    rw [List.flatMap_cons, List.append_assoc, ← ih]
    cases front <;> rfl

end DataItem

/-! ## Blocks in messages -/

namespace Pdu

/-- An acknowledgment with data and without a report is opened to the blocks that it was put together
from. -/
theorem openAnswer_compose_of_ackData {header : Header} (hkind : header.kind = .ackData)
    (hreport : header.report = ⟨0, 0⟩) (reserved₁ reserved₀ : UInt8) {parameters data : Bytes}
    (behind : Bytes) (hparameters : parameters.length ≤ 65535) (hdata : data.length ≤ 65535) :
    openAnswer (compose header reserved₁ reserved₀ parameters data behind) =
      .ok (header.declaring parameters data, parameters, data) := by
  have htold : (header.declaring parameters data).told = header.declaring parameters data := by
    have hack : (header.declaring parameters data).kind.isAck = true :=
      Header.isAck_of_ackData hkind
    rw [Header.told, if_pos hack]
  have hanswer : header.told.requireAnswer = .ok () := by
    obtain ⟨kind, reference, parameterLength, dataLength, report⟩ := header
    subst hkind hreport
    rfl
  rw [openAnswer_compose header reserved₁ reserved₀ behind hparameters hdata, hanswer, htold]
  rfl

/-- What is found in an answer whose blocks are the function and the number of items, and a block of
as many items, are the items. -/
theorem decodeReadResponse_compose {header : Header} {items : List DataItem}
    (hkind : header.kind = .ackData) (hreport : header.report = ⟨0, 0⟩)
    (hcount : items.length ≤ Access.maxItems)
    (hlength : (DataItem.encodeBlock items).length ≤ 65535)
    (hitems : decodeItems 0 items.length (DataItem.encodeBlock items) = .ok (items, []))
    (reserved₁ reserved₀ : UInt8) (behind : Bytes) :
    let parameters := [Access.read.code, UInt8.ofNat items.length]
    decodeReadResponse
        (compose header reserved₁ reserved₀ parameters (DataItem.encodeBlock items) behind) =
      .ok (header.declaring parameters (DataItem.encodeBlock items), items) := by
  intro parameters
  have hopen := openAnswer_compose_of_ackData hkind hreport reserved₁ reserved₀ behind
    (show parameters.length ≤ 65535 from (by decide : 2 ≤ 65535)) hlength
  rw [← Access.toNat_count hcount] at hitems
  simp only [decodeReadResponse, except_bind_eq_ok_iff, lift_framing_eq_ok_iff, guard_eq_ok_iff]
  exact ⟨_, hopen, _, rfl, _, hitems, not_not_intro rfl, rfl⟩

/-- Data can be written to items exactly if there are as many items as data, not too many and not
none, and if the length of the block can be told. -/
theorem exists_encodeWriteRequest_iff {reference : UInt16} {requests : List RequestItem}
    {data : List DataItem} (hne : data ≠ []) :
    (∃ message, encodeWriteRequest reference requests data = .ok message) ↔
      requests.length = data.length ∧ data.length ≤ Access.maxItems ∧
        (DataItem.encodeBlock data).length ≤ 65535 := by
  simp only [encodeWriteRequest_eq_ok_iff, DataItem.length_encodeBlock]
  constructor
  · rintro ⟨message, hpaired, -, hcount, hlength, -⟩
    exact ⟨hpaired, hpaired ▸ hcount, hlength⟩
  · rintro ⟨hpaired, hcount, hlength⟩
    refine ⟨_, hpaired, ?_, hpaired ▸ hcount, hlength, rfl⟩
    rw [← List.length_pos_iff, hpaired]
    exact List.length_pos_iff.mpr hne

end Pdu

namespace DataItem

/-- **Blocks are read as they were written.** Let a row have at least one item, and let each of its
items be one that can be expressed.

* Its block, in which just the last item is written as the last, has the length that it is said to
  have, `encodeBlock items` being `blockLength items` bytes long.
* Who goes through it item by item finds the row, and nothing is left. So the row is what is found in
  an answer to a request to read that has this block.
* A request to write the row can be made whenever its items can be counted and its length can be told,
  and carries the row. -/
theorem blocks_read_back {items : List DataItem} (hne : items ≠ [])
    (h : ∀ item ∈ items, item.Expressible) :
    let block := encodeBlock items
    block = items.dropLast.flatMap (fun item => item.encode false) ++
        (items.getLast hne).encode true ∧
      block.length = blockLength items ∧
      Pdu.decodeItems 0 items.length block = .ok (items, []) ∧
      (items.length ≤ 255 → block.length ≤ 65535 →
        ∀ (header : Pdu.Header) (reserved₁ reserved₀ : UInt8) (behind : Bytes),
          header.kind = .ackData → header.report = ⟨0, 0⟩ →
            let parameters := [0x04, UInt8.ofNat items.length]
            Pdu.decodeReadResponse
                (Pdu.compose header reserved₁ reserved₀ parameters block behind) =
              .ok (header.declaring parameters block, items)) ∧
      ∀ reference requests,
        ((∃ message, Pdu.encodeWriteRequest reference requests items = .ok message) ↔
          requests.length = items.length ∧ items.length ≤ 255 ∧ block.length ≤ 65535) ∧
        ∀ message, Pdu.encodeWriteRequest reference requests items = .ok message →
          Pdu.Carries message items := by
  intro block
  have hitems : Pdu.decodeItems 0 items.length block = .ok (items, []) :=
    decodeItems_encodeBlock_iff.mpr h
  -- all parts rest on the row being read back
  refine ⟨?_, length_encodeBlock items, hitems, ?_, fun reference requests => ⟨?_, ?_⟩⟩
  · rw [← encodeBlock_concat, List.dropLast_concat_getLast hne]
  · intro hcount hlength header reserved₁ reserved₀ behind hkind hreport
    exact Pdu.decodeReadResponse_compose hkind hreport hcount hlength hitems reserved₁ reserved₀
      behind
  · exact Pdu.exists_encodeWriteRequest_iff hne
  · intro message hmessage
    exact Pdu.carries_of_told hmessage (fun item hitem => (h item hitem).ofCode_code)
      fun item hitem => told_iff.mpr (h item hitem).length

/-- Three bytes, an item that was refused and has none, a bit, and a byte with a code without meaning:
in an answer to request 7 they take 23 bytes, of which two are fill bytes, one behind the first item
and one behind the third. -/
theorem blocks_read_back_mixed :
    let items : List DataItem :=
      [⟨.success, .byte, [1, 2, 3]⟩, ⟨.accessDenied, .null, []⟩, ⟨.success, .bit, [1]⟩,
        ⟨.other 0x42, .octets, [9]⟩]
    let block : Bytes :=
      [0xFF, 4, 0, 24, 1, 2, 3, 0, 3, 0, 0, 0, 0xFF, 3, 0, 1, 1, 0, 0x42, 9, 0, 1, 9]
    let header : Pdu.Header :=
      { kind := .ackData, reference := 7, parameterLength := 2, dataLength := 23 }
    items ≠ [] ∧ (∀ item ∈ items, item.Expressible) ∧ encodeBlock items = block ∧
      Pdu.decodeReadResponse ([0x32, 3, 0, 0, 0, 7, 0, 2, 0, 23, 0, 0] ++ [0x04, 4] ++ block) =
        .ok (header, items) := by
  intro items block header
  have hne : items ≠ [] := List.cons_ne_nil _ _
  have hexpressible : ∀ item ∈ items, item.Expressible := by
    intro item hitem
    simp only [items, List.mem_cons, List.not_mem_nil, or_false] at hitem
    rcases hitem with rfl | rfl | rfl | rfl
    · exact ⟨⟨0xFF, rfl⟩, by decide⟩
    · exact ⟨⟨0x03, rfl⟩, by decide⟩
    · exact ⟨⟨0xFF, rfl⟩, by decide⟩
    · exact ⟨⟨0x42, rfl⟩, by decide⟩
  have hmessage : Pdu.compose header 0 0 [0x04, 4] (encodeBlock items) [] =
      [0x32, 3, 0, 0, 0, 7, 0, 2, 0, 23, 0, 0] ++ [0x04, 4] ++ block := by
    decide
  have hheader : header.declaring [0x04, 4] (encodeBlock items) = header := by
    decide
  obtain ⟨-, -, -, hread, -⟩ := blocks_read_back hne hexpressible
  have hfound := hread (by decide) (by decide) header 0 0 [] rfl rfl
  rw [← hmessage]
  refine ⟨hne, hexpressible, by decide, hfound.trans ?_⟩
  exact congrArg (fun header => Except.ok (header, items)) hheader

end DataItem

end S7Comm
