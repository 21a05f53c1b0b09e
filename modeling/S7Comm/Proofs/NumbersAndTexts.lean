import Mathlib.Data.List.Induction
import S7Comm.Payload
import S7Comm.Proofs.Composition

/-!
# Numbers and texts in a payload

Every value of a payload is a number or a text in the end, and here is what is known of the two.

**Numbers.** Bytes and the number that they spell determine each other (`spelled_bigEndian`,
`bigEndian_spelled`). So it remains to be said of a kind of number that its values and the patterns of
its size do too.

* `Numeric.Lawful α`: `bits value < capacity (size α)`, and `bits` and `ofBits` are inverse to each
  other below that. It holds of all kinds (`NumberType.lawful`); a kind whose patterns are the values
  of another one has it from that (`Numeric.Lawful.of_pattern`).
* `NumberType.bits_eq_emod`: a signed number has the pattern of its remainder, in two's complement.
* `Numeric.encode_eq_iff`, `Numeric.decode_append`: from the law it follows which bytes are the code
  of a value, and that the value is read from them, whatever follows.

**Texts.** Some bytes are the code of a text exactly if they decode to it (`Latin1.encode_eq_ok_iff`).
A text has no code if one of its characters has none, and the first of these is the reason
(`Latin1.encode_eq_error_iff`).

**Main result** (`Payload.numbers_and_texts_round_trip`). Of floating point numbers only the patterns
are known here, and not which numbers they stand for.
-/

namespace S7Comm

open Call

/-! ## Bytes of a number -/

/-- Bytes are the bytes of the number that they spell. -/
theorem bigEndian_spelled (bytes : Bytes) : bigEndian bytes.length (spelled bytes) = bytes := by
  induction bytes using List.reverseRecOn with
  | nil => rfl
  | append_singleton bytes byte ih =>
    have hbyte := byte.toNat_lt
    have hupper : spelled (bytes ++ [byte]) / 256 = spelled bytes := by
      rw [spelled_concat]
      omega
    have hlower : UInt8.ofNat (spelled (bytes ++ [byte])) = byte := by
      rw [spelled_concat]
      apply UInt8.toNat_inj.mp
      simp
    rw [List.length_append, List.length_singleton, bigEndian, hupper, hlower, ih]

/-- Bytes spell a number that their width can hold. -/
theorem spelled_lt (bytes : Bytes) : spelled bytes < capacity bytes.length := by
  induction bytes using List.reverseRecOn with
  | nil => decide
  | append_singleton bytes byte ih =>
    have hbyte := byte.toNat_lt
    rw [spelled_concat, List.length_append, List.length_singleton, capacity]
    omega

/-- So it is with a known number of bytes. -/
theorem spelled_lt_of_length {bytes : Bytes} {width : Nat} (h : bytes.length = width) :
    spelled bytes < capacity width :=
  h ▸ spelled_lt bytes

/-! ## Kinds of number -/

/-- A kind of number has one value for each pattern of its size. -/
class Numeric.Lawful (α : Type) [Numeric α] : Prop where
  /-- The bits of a value fit the size. -/
  bits_lt (value : α) : bits value < capacity (size α)
  /-- A value is the one with its bits. -/
  ofBits_bits (value : α) : ofBits (bits value) = value
  /-- Bits that fit are those of a value. -/
  bits_ofBits {n : Nat} (h : n < capacity (size α)) : bits (ofBits n : α) = n

namespace Numeric

instance : Lawful UInt16 := ⟨UInt16.toNat_lt, fun _ => UInt16.ofNat_toNat, UInt16.toNat_ofNat_of_lt'⟩
instance : Lawful UInt32 := ⟨UInt32.toNat_lt, fun _ => UInt32.ofNat_toNat, UInt32.toNat_ofNat_of_lt'⟩
instance : Lawful UInt64 := ⟨UInt64.toNat_lt, fun _ => UInt64.ofNat_toNat, UInt64.toNat_ofNat_of_lt'⟩

/-- The law passes to a kind whose values have the values of another one as their patterns. -/
theorem Lawful.of_pattern {α β : Type} [Numeric α] [Numeric β] [Lawful β] (pattern : α → β)
    (ofPattern : β → α) (hsize : size α = size β) (hbits : ∀ v : α, bits v = bits (pattern v))
    (hofBits : ∀ n, (ofBits n : α) = ofPattern (ofBits n)) (hvalue : ∀ v, ofPattern (pattern v) = v)
    (hpattern : ∀ p, pattern (ofPattern p) = p) : Lawful α where
  bits_lt v := by
    rw [hbits, hsize]
    exact bits_lt _
  ofBits_bits v := by rw [hofBits, hbits, ofBits_bits, hvalue]
  bits_ofBits h := by
    rw [hsize] at h
    rw [hofBits, hbits, hpattern, bits_ofBits h]

instance : Lawful Int16 :=
  .of_pattern Int16.toUInt16 UInt16.toInt16 rfl (fun _ => rfl) (fun _ => rfl) Int16.toInt16_toUInt16
    UInt16.toUInt16_toInt16

instance : Lawful Int32 :=
  .of_pattern Int32.toUInt32 UInt32.toInt32 rfl (fun _ => rfl) (fun _ => rfl) Int32.toInt32_toUInt32
    UInt32.toUInt32_toInt32

instance : Lawful Int64 :=
  .of_pattern Int64.toUInt64 UInt64.toInt64 rfl (fun _ => rfl) (fun _ => rfl) Int64.toInt64_toUInt64
    UInt64.toUInt64_toInt64

instance : Lawful Real32 :=
  .of_pattern Real32.pattern Real32.mk rfl (fun _ => rfl) (fun _ => rfl) (fun _ => rfl) (fun _ => rfl)

instance : Lawful Real64 :=
  .of_pattern Real64.pattern Real64.mk rfl (fun _ => rfl) (fun _ => rfl) (fun _ => rfl) (fun _ => rfl)

/-- The bits of a value are reduced. -/
theorem bits_emod {α : Type} [Numeric α] [Lawful α] (value : α) :
    (bits value : Int) % capacity (size α) = bits value :=
  Int.emod_eq_of_lt (Int.natCast_nonneg _) (Int.ofNat_lt.mpr (Lawful.bits_lt value))

end Numeric

namespace NumberType

/-- All kinds that a program variable can have are lawful. -/
instance lawful (type : NumberType) : Numeric.Lawful type.Value :=
  match type with
  | .int16 => inferInstanceAs (Numeric.Lawful Int16)
  | .uint16 => inferInstanceAs (Numeric.Lawful UInt16)
  | .int32 => inferInstanceAs (Numeric.Lawful Int32)
  | .uint32 => inferInstanceAs (Numeric.Lawful UInt32)
  | .int64 => inferInstanceAs (Numeric.Lawful Int64)
  | .uint64 => inferInstanceAs (Numeric.Lawful UInt64)
  | .real32 => inferInstanceAs (Numeric.Lawful Real32)
  | .real64 => inferInstanceAs (Numeric.Lawful Real64)

/-- The number that a value is, or its pattern where the library does not know the number. -/
def number : (type : NumberType) → type.Value → Int
  | .int16, v => v.toInt
  | .uint16, v => v.toNat
  | .int32, v => v.toInt
  | .uint32, v => v.toNat
  | .int64, v => v.toInt
  | .uint64, v => v.toNat
  | .real32, v => v.pattern.toNat
  | .real64, v => v.pattern.toNat

/-- A pattern is the remainder of the number that it stands for in two's complement. -/
theorem eq_emod_of_bmod {n m : Nat} {k : Int} (h : k = (n : Int).bmod m) (hlt : n < m) :
    (n : Int) = k % m := by
  rw [h, Int.bmod_emod, Int.emod_eq_of_lt (Int.natCast_nonneg n) (Int.ofNat_lt.mpr hlt)]

/-- The bits of a value are the remainder of its number by the capacity of its size. -/
theorem bits_eq_emod : (type : NumberType) → (value : type.Value) →
    (Numeric.bits value : Int) = type.number value % capacity (Numeric.size type.Value)
  | .int16, v | .int32, v | .int64, v =>
    eq_emod_of_bmod (BitVec.toInt_eq_toNat_bmod v.toBitVec) (Numeric.Lawful.bits_lt v)
  | .uint16, v | .uint32, v | .uint64, v | .real32, v | .real64, v => (Numeric.bits_emod v).symm

end NumberType

/-! ## Codes of numbers -/

namespace Numeric

variable {α : Type} [Numeric α] {order : ByteOrder} {bytes : Bytes} {value : α}

/-- A code spells the bits of its value. -/
theorem spelled_encode [Lawful α] (order : ByteOrder) (value : α) :
    spelled (order.arrange (encode order value)) = bits value := by
  rw [encode, ByteOrder.arrange_arrange, spelled_bigEndian, Nat.mod_eq_of_lt (Lawful.bits_lt value)]

/-- Bytes are the code of a value if they are as many as it takes and spell its bits. -/
theorem encode_eq_iff [Lawful α] :
    encode order value = bytes ↔
      bytes.length = size α ∧ spelled (order.arrange bytes) = bits value := by
  constructor
  · rintro rfl
    exact ⟨length_encode order value, spelled_encode order value⟩
  · rintro ⟨hlength, hspelled⟩
    have harranged : (order.arrange bytes).length = size α := by rw [ByteOrder.length_arrange, hlength]
    rw [encode, ← hspelled, ← harranged, bigEndian_spelled, ByteOrder.arrange_arrange]

/-- As many bytes as a value takes are the code of one. -/
theorem encode_ofBits [Lawful α] (h : bytes.length = size α) :
    encode order (ofBits (spelled (order.arrange bytes)) : α) = bytes := by
  have harranged : (order.arrange bytes).length = size α := by rw [ByteOrder.length_arrange, h]
  have hbits := Lawful.bits_ofBits (α := α) (spelled_lt_of_length harranged)
  exact encode_eq_iff.mpr ⟨h, hbits.symm⟩

/-- A number is read from as many bytes as it takes, whatever follows them. -/
theorem decode_append (h : bytes.length = size α) (rest : Bytes) :
    decode α order (bytes ++ rest) = .ok (ofBits (spelled (order.arrange bytes))) := by
  have henough : ¬ (bytes ++ rest).length < size α := by
    rw [List.length_append]
    omega
  rw [decode, if_neg henough, List.take_left' h]

/-- A number is read from its code. -/
theorem decode_encode_append [Lawful α] (order : ByteOrder) (value : α) (rest : Bytes) :
    decode α order (encode order value ++ rest) = .ok value := by
  rw [decode_append (length_encode order value), spelled_encode, Lawful.ofBits_bits]

/-- From enough bytes a number is read, and the first of them are its code. -/
theorem exists_decode_of_le [Lawful α] (h : size α ≤ bytes.length) :
    ∃ value : α, decode α order bytes = .ok value ∧ encode order value = bytes.take (size α) := by
  have hlength := List.length_take_of_le h
  refine ⟨_, ?_, encode_ofBits hlength⟩
  rw [← decode_append hlength (bytes.drop (size α)), List.take_append_drop]

/-- From too few bytes nothing is read, and it is said how many it takes and how many there are. -/
theorem decode_of_length_lt (h : bytes.length < size α) :
    decode α order bytes = .error { needed := size α, available := bytes.length } :=
  if_pos h

end Numeric

/-! ## Codes of texts -/

namespace Latin1

/-- The codes of some characters, if they have one: their numbers. -/
def codes (cs : List Char) : Bytes :=
  cs.map fun c => UInt8.ofNat c.toNat

/-- There is a code for each. -/
@[simp]
theorem length_codes (cs : List Char) : (codes cs).length = cs.length :=
  List.length_map _

/-- A text of Latin-1 characters has their codes. -/
theorem encode_eq_codes {text : String} (h : ∀ c ∈ text.toList, c.toNat ≤ 255) :
    encode text = .ok (codes text.toList) :=
  mapM_eq_ok fun c hc => if_pos (Nat.lt_succ_of_le (h c hc))

/-- A text with another character has none. -/
theorem exists_error_of_encode {text : String} {c : Char} (hc : c ∈ text.toList) (h : 255 < c.toNat) :
    ∃ c', encode text = .error c' :=
  exists_error_of_mapM hc (if_neg (Nat.not_lt.mpr h))

/-- As many bytes as characters, if there are any bytes. -/
theorem length_of_encode {text : String} {bytes : Bytes} (h : encode text = .ok bytes) :
    bytes.length = text.length := by
  rw [← String.length_toList]
  exact (forall₂_of_mapM h).length_eq.symm

/-- The characters are found in their codes. -/
theorem decode_codes {cs : List Char} (h : ∀ c ∈ cs, c.toNat ≤ 255) :
    decode (codes cs) = String.ofList cs := by
  have hchars : cs.map (fun c => Char.ofNat (UInt8.ofNat c.toNat).toNat) = cs.map id := by
    refine List.map_congr_left fun c hc => ?_
    rw [UInt8.toNat_ofNat_of_lt' (Nat.lt_succ_of_le (h c hc)), Char.ofNat_toNat]
    rfl
  rw [decode, codes, List.map_map]
  exact congrArg String.ofList (hchars.trans (List.map_id cs))

/-- Only a text of Latin-1 characters has a code. -/
theorem le_of_encode {text : String} {bytes : Bytes} (h : encode text = .ok bytes) :
    ∀ c ∈ text.toList, c.toNat ≤ 255 := by
  intro c hc
  by_contra hlarge
  obtain ⟨_, herror⟩ := exists_error_of_encode hc (Nat.not_le.mp hlarge)
  rw [herror] at h
  cases h

/-- Bytes are the code of the text to which they decode, and of no other. -/
theorem encode_eq_ok_iff {text : String} {bytes : Bytes} :
    encode text = .ok bytes ↔ decode bytes = text := by
  constructor
  · intro h
    have hall := le_of_encode h
    rw [encode_eq_codes hall] at h
    cases h
    rw [decode_codes hall, String.ofList_toList]
  · rintro rfl
    exact encode_decode bytes

/-- A character has a byte if it is one of the first 256. -/
theorem exists_byteOf_iff {c : Char} : (∃ byte, byteOf c = .ok byte) ↔ c.toNat ≤ 255 := by
  rw [← Nat.lt_succ_iff, byteOf]
  split
  · next hsmall => exact iff_of_true ⟨_, rfl⟩ hsmall
  · next hlarge => exact iff_of_false (by rintro ⟨_, ⟨⟩⟩) hlarge

/-- Any other character is itself the reason why it has none. -/
theorem byteOf_eq_error_iff {c found : Char} :
    byteOf c = .error found ↔ 255 < c.toNat ∧ c = found := by
  unfold byteOf
  split
  · next hsmall => exact iff_of_false (by rintro ⟨⟩) fun h => absurd hsmall (Nat.not_lt.mpr h.1)
  · next hlarge =>
    have habove : 255 < c.toNat := Nat.not_lt.mp hlarge
    rw [Except.error.injEq, and_iff_right habove]

/-- A text has no code if a character has none, and the first such character is the reason. -/
theorem encode_eq_error_iff {text : String} {c : Char} :
    encode text = .error c ↔ ∃ before after, text.toList = before ++ c :: after ∧
      (∀ earlier ∈ before, earlier.toNat ≤ 255) ∧ 255 < c.toNat := by
  rw [encode, mapM_eq_error_iff]
  simp only [exists_byteOf_iff, byteOf_eq_error_iff]
  constructor
  · rintro ⟨before, _, after, hlist, hbefore, hlarge, rfl⟩
    exact ⟨before, after, hlist, hbefore, hlarge⟩
  · rintro ⟨before, after, hlist, hbefore, hlarge⟩
    exact ⟨before, c, after, hlist, hbefore, hlarge, rfl⟩

end Latin1

namespace Payload

/-- Bytes are written for the text to which they decode. -/
theorem encodeText_eq_ok_iff {text : String} {bytes : Bytes} :
    encodeText text = .ok bytes ↔ Latin1.decode bytes = text := by
  rw [encodeText, mapError_eq_ok_iff, Latin1.encode_eq_ok_iff]

/-- A text is refused for a character. -/
theorem encodeText_eq_error_iff {text : String} {e : ArgumentError} :
    encodeText text = .error e ↔ ∃ c, Latin1.encode text = .error c ∧ .notLatin1 c = e := by
  rw [encodeText, mapError_eq_error_iff]

/-- A text is refused if one of its characters is outside of Latin-1. -/
theorem exists_encodeText_error_iff {text : String} :
    (∃ e, encodeText text = .error e) ↔ ∃ c ∈ text.toList, 255 < c.toNat := by
  constructor
  · rintro ⟨e, h⟩
    obtain ⟨c, hencode, -⟩ := encodeText_eq_error_iff.mp h
    obtain ⟨before, after, hlist, -, hlarge⟩ := Latin1.encode_eq_error_iff.mp hencode
    refine ⟨c, ?_, hlarge⟩
    rw [hlist]
    exact List.mem_append_right before List.mem_cons_self
  · rintro ⟨c, hc, hlarge⟩
    obtain ⟨found, hfound⟩ := Latin1.exists_error_of_encode hc hlarge
    exact ⟨_, encodeText_eq_error_iff.mpr ⟨found, hfound, rfl⟩⟩

/-- **Numbers and texts.** For each of the eight kinds of number and both orders of bytes:

* A number is read back from its code, whatever follows it.
* With the least significant byte first its code is the reverse of that with the most significant
  first, and the latter spells the number in two's complement, `type.number value % capacity size`.
* From enough bytes some number is read, and written it gives back those it was read from; too few
  bytes are refused with the number that it takes and the number that there is.

Bytes are written for the text to which they decode, and for no other text; a text is refused exactly
if it has a character beyond the first 256, and the first such character is the reason. -/
theorem numbers_and_texts_round_trip :
    (∀ (type : NumberType) (order : ByteOrder) (value : type.Value) (rest : Bytes),
      Numeric.decode type.Value order (Numeric.encode order value ++ rest) = .ok value) ∧
    (∀ (type : NumberType) (value : type.Value),
      Numeric.encode .little value = (Numeric.encode .big value).reverse ∧
      (spelled (Numeric.encode .big value) : Int) =
        type.number value % capacity (Numeric.size type.Value)) ∧
    (∀ (type : NumberType) (order : ByteOrder) (bytes : Bytes),
      (Numeric.size type.Value ≤ bytes.length → ∃ value : type.Value,
        Numeric.decode type.Value order bytes = .ok value ∧
          Numeric.encode order value = bytes.take (Numeric.size type.Value)) ∧
      (bytes.length < Numeric.size type.Value →
        Numeric.decode type.Value order bytes =
          .error { needed := Numeric.size type.Value, available := bytes.length })) ∧
    (∀ bytes, encodeText (Latin1.decode bytes) = .ok bytes) ∧
    ∀ text,
      (∀ bytes, encodeText text = .ok bytes → Latin1.decode bytes = text) ∧
      ((∃ e, encodeText text = .error e) ↔ ∃ c ∈ text.toList, 255 < c.toNat) ∧
      ∀ e, encodeText text = .error e → ∃ before c after, text.toList = before ++ c :: after ∧
        (∀ earlier ∈ before, earlier.toNat ≤ 255) ∧ 255 < c.toNat ∧ e = .notLatin1 c := by
  refine ⟨?_, ?_, ?_, ?_, ?_⟩
  · intro type order value rest
    exact Numeric.decode_encode_append order value rest
  · intro type value
    have hspelled : spelled (Numeric.encode .big value) = Numeric.bits value :=
      Numeric.spelled_encode .big value
    refine ⟨rfl, ?_⟩
    rw [hspelled, type.bits_eq_emod]
  · intro type order bytes
    exact ⟨Numeric.exists_decode_of_le, Numeric.decode_of_length_lt⟩
  · intro bytes
    exact encodeText_eq_ok_iff.mpr rfl
  · intro text
    refine ⟨fun bytes => encodeText_eq_ok_iff.mp, exists_encodeText_error_iff, ?_⟩
    intro e h
    obtain ⟨c, hencode, rfl⟩ := encodeText_eq_error_iff.mp h
    obtain ⟨before, after, hlist, hbefore, hlarge⟩ := Latin1.encode_eq_error_iff.mp hencode
    exact ⟨before, c, after, hlist, hbefore, hlarge, rfl⟩

/-- A negative number is read from its four bytes and one more, and not from two; a text with an
umlaut is the one that its code decodes to, and one with a sign for a currency has no code. -/
theorem numbers_and_texts_round_trip_negative :
    (∃ value : Int32, Numeric.decode Int32 .little [0xFE, 0xFF, 0xFF, 0xFF, 7] = .ok value ∧
      Numeric.encode .little value = [0xFE, 0xFF, 0xFF, 0xFF]) ∧
    Numeric.decode Int32 .big [0xFF, 0xFE] = .error { needed := 4, available := 2 } ∧
    Latin1.decode [0x41, 0xE4] = "Aä" ∧
    ∃ before c after, "A€".toList = before ++ c :: after ∧
      (∀ earlier ∈ before, earlier.toNat ≤ 255) ∧ 255 < c.toNat ∧
      ArgumentError.notLatin1 '€' = .notLatin1 c := by
  obtain ⟨-, -, hread, -, htext⟩ := numbers_and_texts_round_trip
  have hwritten : encodeText "Aä" = .ok [0x41, 0xE4] := by decide +kernel
  have hrefused : encodeText "A€" = .error (.notLatin1 '€') := by decide +kernel
  exact ⟨(hread .int32 .little [0xFE, 0xFF, 0xFF, 0xFF, 7]).1 (by decide),
    (hread .int32 .big [0xFF, 0xFE]).2 (by decide), (htext "Aä").1 _ hwritten,
    (htext "A€").2.2 _ hrefused⟩

end Payload

end S7Comm
