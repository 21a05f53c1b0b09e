import S7Comm.Bytes
import S7Comm.Error.Framing
import S7Comm.ReturnCode
import S7Comm.TransportSize

/-!
# Data items

The data block of a message is a row of data items, in a response one for every item that was read,
in a request one for every item to be written. An item has a header of four bytes, which are the
return code, the transport size and the length, and then its payload.

**Fill bytes.** Every item but the first begins at an even distance from the start of the block, so
that a payload of odd length is followed by one more byte, except at the end of the block. A writer
knows which item is the last; a reader skips the byte if anything is left to skip.

**Main definitions.** `DataItem.encode` and `DataItem.decode` are about one item,
`DataItem.encodeBlock` about a row of them, whose length `DataItem.blockLength` counts.
-/

namespace S7Comm

/-- One item of a data block. -/
structure DataItem where
  /-- What the controller says of the item; in a request, zero. -/
  returnCode : ReturnCode
  /-- What the length in front of the payload counts. -/
  size : TransportSize
  /-- The payload. -/
  payload : Bytes
  deriving DecidableEq, Repr

namespace DataItem

/-! ## Items to be written -/

/-- A payload to be written, under the given transport size. -/
def ofPayload (size : TransportSize) (payload : Bytes) : DataItem :=
  { returnCode := .other 0, size, payload }

/-- Bytes to be written. -/
def ofBytes (payload : Bytes) : DataItem :=
  ofPayload .byte payload

/-- A bit to be written. -/
def ofBit (value : Bool) : DataItem :=
  ofPayload .bit [if value then 1 else 0]

/-! ## Items that were read -/

/-- Whether the item was read. -/
def isSuccess (item : DataItem) : Bool :=
  item.returnCode.isSuccess

/-- The payload of an item that was read. -/
def payload? (item : DataItem) : Option Bytes :=
  if item.isSuccess then some item.payload else none

/-! ## Coding -/

/-- Bytes of the header of an item. -/
def headerLength : Nat := 4

/-- Bytes of the item on the wire, without a fill byte. -/
def encodedLength (item : DataItem) : Nat :=
  headerLength + item.payload.length

/-- Whether a fill byte follows the item when another item does. -/
def isOdd (item : DataItem) : Bool :=
  item.payload.length % 2 == 1

/-- The header and the payload of an item. -/
def encodeBody (item : DataItem) : Bytes :=
  [item.returnCode.code, item.size.code] ++ wordBytes (item.size.lengthField item.payload.length) ++
    item.payload

/-- The bytes of an item, which is the last of its block or not. -/
def encode (item : DataItem) (last : Bool) : Bytes :=
  item.encodeBody ++ if !last && item.isOdd then [0] else []

/-- The bytes of a row of items. -/
def encodeBlock : List DataItem → Bytes
  | [] => []
  | [item] => item.encode true
  | item :: next :: items => item.encode false ++ encodeBlock (next :: items)

/-- The length of a row of items, fill bytes included. -/
def blockLength : List DataItem → Nat
  | [] => 0
  | [item] => item.encodedLength
  | item :: next :: items =>
    item.encodedLength + (if item.isOdd then 1 else 0) + blockLength (next :: items)

/-- The item at the front of some bytes, and the bytes behind it. A fill byte belongs to the item
in front of it, whatever its value. -/
def decode (bytes : Bytes) : Except FramingError (DataItem × Bytes) :=
  match bytes with
  | code :: sizeCode :: length₁ :: length₀ :: body =>
    let size := TransportSize.ofCode sizeCode
    let length := size.payloadLength (word length₁ length₀)
    let payload := body.take length
    if payload.length < length then .error (.dataTruncated length payload.length)
    else
      let behind := body.drop length
      .ok ({ returnCode := .ofCode code, size, payload },
        if length % 2 = 1 then behind.tail else behind)
  | _ => .error (.dataHeaderTooShort bytes.length)

/-- A row of items is as long as it is said to be. -/
theorem length_encodeBlock (items : List DataItem) :
    (encodeBlock items).length = blockLength items := by
  fun_induction encodeBlock items with
  | case1 => rfl
  | case2 item =>
    simp [encode, encodeBody, blockLength, encodedLength, headerLength, wordBytes]
    omega
  | case3 item next items ih =>
    rw [List.length_append, ih, blockLength]
    by_cases h : item.isOdd <;>
      simp [encode, encodeBody, encodedLength, headerLength, wordBytes, h] <;> omega

end DataItem

end S7Comm
