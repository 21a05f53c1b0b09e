import S7Comm.Bytes

/-!
# Numbers in a payload

The frames of the protocol are big-endian throughout, but the payload of an item is the business of
the two ends: a CPU keeps its numbers with the most significant byte first, a numerical control with
the least significant first. So a number is coded under a `ByteOrder`, and both orders share one
account of the number itself: how many bytes it takes and which natural number its bits are.

**What a number is here.** `Numeric` is that account, with instances for the eight kinds that a
program variable can have. Floating-point values are their IEEE bit patterns (`Real32`, `Real64`):
nothing in the library computes with them, and a pattern is what travels.

**Main statements.** A code has the size of its kind (`Numeric.length_encode`); fewer bytes than that
are a `Shortage` which names both lengths, and nothing else is refused.
-/

namespace S7Comm

/-! ## Byte order -/

/-- The order in which the bytes of a number follow each other. -/
inductive ByteOrder where
  /-- Most significant byte first. -/
  | big
  /-- Least significant byte first. -/
  | little
  deriving DecidableEq, Repr, Inhabited

/-- Bring bytes from most-significant-first into the order, or back: both are the same turn. -/
def ByteOrder.arrange : ByteOrder → Bytes → Bytes
  | .big, bytes => bytes
  | .little, bytes => bytes.reverse

/-- Arranging bytes does not change their number. -/
@[simp]
theorem ByteOrder.length_arrange (order : ByteOrder) (bytes : Bytes) :
    (order.arrange bytes).length = bytes.length := by
  cases order <;> simp [arrange]

/-- To arrange bytes twice is to leave them. -/
@[simp]
theorem ByteOrder.arrange_arrange (order : ByteOrder) (bytes : Bytes) :
    order.arrange (order.arrange bytes) = bytes := by
  cases order <;> simp [arrange]

/-! ## Kinds of number -/

/-- An IEEE number of four bytes, by its bit pattern. -/
structure Real32 where
  /-- The pattern, sign bit uppermost. -/
  pattern : UInt32
  deriving DecidableEq, Repr, Inhabited

/-- An IEEE number of eight bytes, by its bit pattern. -/
structure Real64 where
  /-- The pattern, sign bit uppermost. -/
  pattern : UInt64
  deriving DecidableEq, Repr, Inhabited

/-- How values of a type lie in a payload: their size, and their bits as a natural number. -/
class Numeric (α : Type) where
  /-- Number of bytes of a value. -/
  size : Nat
  /-- The bits of a value; below `capacity size` in every instance. -/
  bits : α → Nat
  /-- The value with the given bits. -/
  ofBits : Nat → α

instance : Numeric UInt8 := ⟨1, UInt8.toNat, UInt8.ofNat⟩
instance : Numeric UInt16 := ⟨2, UInt16.toNat, UInt16.ofNat⟩
instance : Numeric UInt32 := ⟨4, UInt32.toNat, UInt32.ofNat⟩
instance : Numeric UInt64 := ⟨8, UInt64.toNat, UInt64.ofNat⟩
instance : Numeric Int16 := ⟨2, fun v => v.toUInt16.toNat, fun n => (UInt16.ofNat n).toInt16⟩
instance : Numeric Int32 := ⟨4, fun v => v.toUInt32.toNat, fun n => (UInt32.ofNat n).toInt32⟩
instance : Numeric Int64 := ⟨8, fun v => v.toUInt64.toNat, fun n => (UInt64.ofNat n).toInt64⟩
instance : Numeric Real32 := ⟨4, fun v => v.pattern.toNat, fun n => ⟨UInt32.ofNat n⟩⟩
instance : Numeric Real64 := ⟨8, fun v => v.pattern.toNat, fun n => ⟨UInt64.ofNat n⟩⟩

/-! ## Coding -/

/-- Fewer bytes than a value of the wanted kind takes. -/
structure Shortage where
  /-- Bytes the value takes. -/
  needed : Nat
  /-- Bytes there were. -/
  available : Nat
  deriving DecidableEq, Repr

/-- The shortage in words. -/
def Shortage.message (s : Shortage) : String :=
  let needed := s.needed
  let available := s.available
  s!"insufficient data: needed {needed} bytes, available {available} bytes"

namespace Numeric

variable {α : Type} [Numeric α]

/-- The bytes of a number. -/
def encode (order : ByteOrder) (value : α) : Bytes :=
  order.arrange (bigEndian (size α) (bits value))

/-- The number at the front of some bytes; what follows it does not matter. -/
def decode (α : Type) [Numeric α] (order : ByteOrder) (bytes : Bytes) : Except Shortage α :=
  if bytes.length < size α then .error ⟨size α, bytes.length⟩
  else .ok (ofBits (spelled (order.arrange (bytes.take (size α)))))

/-- A code has the size of its kind. -/
@[simp]
theorem length_encode (order : ByteOrder) (value : α) :
    (encode order value).length = size α := by
  simp [encode, length_bigEndian]

end Numeric

/-- Bit `bit` of the first byte; only the lowest three bits of `bit` count. -/
def decodeBit (bytes : Bytes) (bit : UInt8) : Except Shortage Bool := do
  let byte ← Numeric.decode UInt8 .big bytes
  return byte &&& ((1 : UInt8) <<< (bit &&& 7)) ≠ 0

/-! ## The kinds as data

A caller that learns only at run time which kind of number it deals with names it by a
`NumberType`. -/

/-- The kinds of number that a program variable can have. -/
inductive NumberType where
  /-- Two bytes, with a sign. -/
  | int16
  /-- Two bytes, without a sign. -/
  | uint16
  /-- Four bytes, with a sign. -/
  | int32
  /-- Four bytes, without a sign. -/
  | uint32
  /-- Eight bytes, with a sign. -/
  | int64
  /-- Eight bytes, without a sign. -/
  | uint64
  /-- A floating-point number of four bytes. -/
  | real32
  /-- A floating-point number of eight bytes. -/
  | real64
  deriving DecidableEq, Repr

/-- The values of a kind. -/
abbrev NumberType.Value : NumberType → Type
  | .int16 => Int16
  | .uint16 => UInt16
  | .int32 => Int32
  | .uint32 => UInt32
  | .int64 => Int64
  | .uint64 => UInt64
  | .real32 => Real32
  | .real64 => Real64

instance (type : NumberType) : Numeric type.Value :=
  match type with
  | .int16 => inferInstanceAs (Numeric Int16)
  | .uint16 => inferInstanceAs (Numeric UInt16)
  | .int32 => inferInstanceAs (Numeric Int32)
  | .uint32 => inferInstanceAs (Numeric UInt32)
  | .int64 => inferInstanceAs (Numeric Int64)
  | .uint64 => inferInstanceAs (Numeric UInt64)
  | .real32 => inferInstanceAs (Numeric Real32)
  | .real64 => inferInstanceAs (Numeric Real64)

end S7Comm
