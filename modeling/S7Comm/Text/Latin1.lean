import S7Comm.Bytes

/-!
# Latin-1 text

A string in a controller is a run of bytes, each of which stands for the character of the same
number: the first 256 characters of Unicode, and no others.

**Main statement.** `Latin1.encode_decode`: every run of bytes is the code of the text it decodes to.
The other direction holds exactly for texts of Latin-1 characters; the encoder names the first
character that is none.
-/

namespace S7Comm.Latin1

/-- The text of some bytes. -/
def decode (bytes : Bytes) : String :=
  String.ofList (bytes.map fun byte => Char.ofNat byte.toNat)

/-- The byte of a character, or the character itself when it has none. -/
def byteOf (c : Char) : Except Char UInt8 :=
  if c.toNat < 256 then .ok (UInt8.ofNat c.toNat) else .error c

/-- The bytes of a text, or the first character that has none. -/
def encode (text : String) : Except Char Bytes :=
  text.toList.mapM byteOf

/-- A byte is the byte of its character. -/
theorem byteOf_ofNat (byte : UInt8) : byteOf (Char.ofNat byte.toNat) = .ok byte := by
  have h : ∀ n : Fin 256, (Char.ofNat n).toNat = n := by decide +kernel
  have hb := h ⟨byte.toNat, byte.toNat_lt⟩
  simp only at hb
  simp [byteOf, hb, byte.toNat_lt]

/-- Every run of bytes is the code of the text it decodes to. -/
theorem encode_decode (bytes : Bytes) : encode (decode bytes) = .ok bytes := by
  simp only [encode, decode, String.toList_ofList]
  induction bytes with
  | nil => rfl
  | cons byte bytes ih =>
    rw [List.map_cons, List.mapM_cons, byteOf_ofNat, ih]
    rfl

end S7Comm.Latin1
