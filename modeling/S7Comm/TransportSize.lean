import S7Comm.ElementType

/-!
# The unit of a data item's length

In front of every payload stands a length of sixteen bits, and the transport size says what it
counts: bits for bit, byte and integer access, bytes for the others. `TransportSize.payloadLength`
reads such a length as a number of bytes, `TransportSize.lengthField` writes one.

**Limits.** A length in bits reaches 8191 bytes only, one in bytes 65535; a bit item can carry one
byte and a null item none. Within those limits the two functions are inverse
(`payloadLength_lengthField`); beyond them the field keeps the lowest sixteen bits of the length.
-/

namespace S7Comm

/-- What the length in front of a payload counts. -/
inductive TransportSize where
  /-- Nothing: no payload follows. -/
  | null
  /-- Bits, of which the last byte need not be full. -/
  | bit
  /-- Bits of whole bytes. -/
  | byte
  /-- Bits of whole bytes, holding an integer. -/
  | integer
  /-- Bytes, holding a floating-point number. -/
  | real
  /-- Bytes. -/
  | octets
  deriving DecidableEq, Repr

namespace TransportSize

/-- The code of a transport size. -/
def code : TransportSize → UInt8
  | .null => 0x00
  | .bit => 0x03
  | .byte => 0x04
  | .integer => 0x05
  | .real => 0x07
  | .octets => 0x09

/-- The transport size of a code. Codes that are no transport size stand for an item without
payload. -/
def ofCode (code : UInt8) : TransportSize :=
  match code with
  | 0x03 => .bit
  | 0x04 => .byte
  | 0x05 => .integer
  | 0x07 => .real
  | 0x09 => .octets
  | _ => .null

/-- The transport size in which elements of a type are carried. -/
def ofElement : ElementType → TransportSize
  | .bit => .bit
  | .int => .integer
  | .real => .real
  | .counter | .timer => .octets
  | _ => .byte

/-- The number of payload bytes that a length field stands for. -/
def payloadLength (size : TransportSize) (field : UInt16) : Nat :=
  match size with
  | .null => 0
  | .bit => (field.toNat + 7) / 8
  | .byte | .integer => field.toNat / 8
  | .real | .octets => field.toNat

/-- The length field for some number of payload bytes, in the unit of the transport size. -/
def lengthField (size : TransportSize) (length : Nat) : UInt16 :=
  match size with
  | .null => 0
  | .bit => UInt16.ofNat (min length 1)
  | .byte | .integer => UInt16.ofNat (length * 8)
  | .real | .octets => UInt16.ofNat length

/-- The most payload bytes that a length field can express. -/
def maxLength : TransportSize → Nat
  | .null => 0
  | .bit => 1
  | .byte | .integer => 8191
  | .real | .octets => 65535

/-- A code is read as the transport size it is the code of. -/
theorem ofCode_code (size : TransportSize) : ofCode size.code = size := by
  cases size <;> rfl

/-- Up to the limit of the transport size, the length written is the length read. -/
theorem payloadLength_lengthField {size : TransportSize} {length : Nat}
    (h : length ≤ size.maxLength) : size.payloadLength (size.lengthField length) = length := by
  cases size <;> simp only [maxLength] at h <;> simp [payloadLength, lengthField] <;> omega

end TransportSize

end S7Comm
