import S7Comm.Item.Nck
import S7Comm.Item.Standard

/-!
# Request items

One request may ask for CPU memory and for data of a numerical control side by side; a `RequestItem`
is either. How many payload bytes will be answered is known beforehand for CPU memory only.
-/

namespace S7Comm

/-- One of the things that a request asks for. -/
inductive RequestItem where
  /-- Elements of CPU memory. -/
  | standard (item : StandardItem)
  /-- Data of a numerical control. -/
  | nck (item : NckItem)
  deriving DecidableEq, Repr

namespace RequestItem

/-- Bytes of the item on the wire. -/
def encodedLength : RequestItem → Nat
  | .standard _ => StandardItem.encodedLength
  | .nck _ => NckItem.encodedLength

/-- The number of payload bytes that the item asks for, where the item tells. -/
def dataLength? : RequestItem → Option Nat
  | .standard item => some item.dataLength
  | .nck _ => none

/-- The bytes of the item. -/
def encode : RequestItem → Bytes
  | .standard item => item.encode
  | .nck item => item.encode

/-- An item is as long on the wire as it is said to be. -/
theorem length_encode (item : RequestItem) : item.encode.length = item.encodedLength := by
  cases item <;>
    simp [encode, encodedLength, StandardItem.encode, StandardItem.encodedLength, NckItem.encode,
      NckItem.encodedLength, wordBytes, length_bigEndian]

end RequestItem

end S7Comm
