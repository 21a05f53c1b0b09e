import S7Comm.Address.Basic
import S7Comm.Bytes
import S7Comm.ElementType
import S7Comm.Error.Framing

/-!
# Request items for CPU memory

A standard item asks for a number of consecutive elements of one type from an address. On the wire it
has twelve bytes: a fixed start of three (`0x12`, the length 10, and `0x10` for this way of
addressing), the type, the number of elements, the number of the data block, the area, and three
bytes for the place.

**The place.** It is the number of a bit, eight times the byte plus the bit; for timers and counters
it is the number of the element. Of a place that does not fit three bytes the lowest 24 bits are
sent. Since the byte of a `make`d address has at most 21 bits, nothing is lost for those.

**Counting bytes.** `StandardItem.bytes` asks for bytes, which in the areas of timers and counters
means as many whole elements as the bytes need.
-/

namespace S7Comm

/-- A request for elements of CPU memory. -/
structure StandardItem where
  /-- Where the elements begin. -/
  address : Address
  /-- Their type. -/
  type : ElementType
  /-- Their number. -/
  count : UInt16
  deriving DecidableEq, Repr

namespace StandardItem

/-- The item with the given parts, if it asks for something and its bit exists. -/
def make (address : Address) (type : ElementType) (count : UInt16) :
    Except ArgumentError StandardItem :=
  if count = 0 then .error .zeroCount
  else if address.bit > 7 then .error .itemBit
  else .ok { address, type, count }

/-- The single bit at an address. -/
def single (address : Address) : StandardItem :=
  { address, type := .bit, count := 1 }

/-- The number of elements of two bytes that hold some bytes. -/
def elementsFor (count : UInt16) : UInt16 :=
  UInt16.ofNat ((count.toNat + 1) / 2)

/-- Some bytes from the byte of an address on, whatever its bit. -/
def bytes (address : Address) (count : UInt16) : Except ArgumentError StandardItem :=
  let start := { address with bit := 0 }
  match address.area with
  | .timer => make start .timer (elementsFor count)
  | .counter => make start .counter (elementsFor count)
  | _ => make start .byte count

/-- The number of payload bytes that the elements take. -/
def dataLength (item : StandardItem) : Nat :=
  item.count.toNat * item.type.byteSize

/-! ## Coding -/

/-- Bytes of an item on the wire. -/
def encodedLength : Nat := 12

/-- The place of the first element, as a number. -/
def place (item : StandardItem) : UInt32 :=
  if item.type.isNumbered then item.address.byte
  else (item.address.byte <<< 3) ||| (item.address.bit &&& 7).toUInt32

/-- The bytes of an item. -/
def encode (item : StandardItem) : Bytes :=
  [0x12, 10, 0x10, item.type.code] ++ wordBytes item.count ++ wordBytes item.address.block ++
    [item.address.area.code] ++ bigEndian 3 item.place.toNat

/-- The byte and the bit that a place stands for. -/
def offsetOf (type : ElementType) (place : Nat) : UInt32 × UInt8 :=
  if type.isNumbered then (UInt32.ofNat place, 0)
  else (UInt32.ofNat (place / 8), UInt8.ofNat (place % 8))

/-- The item at the front of some bytes, and the bytes behind it. -/
def decode (bytes : Bytes) : Except FramingError (StandardItem × Bytes) :=
  match bytes with
  | start :: length :: addressing :: typeCode :: count₁ :: count₀ :: block₁ :: block₀ :: areaCode ::
      place₂ :: place₁ :: place₀ :: rest =>
    if start ≠ 0x12 ∨ length ≠ 10 ∨ addressing ≠ 0x10 then .error .notStandardItem
    else match ElementType.ofCode? typeCode with
      | none => .error (.unknownElementType typeCode)
      | some type =>
        match Area.ofCode? areaCode with
        | none => .error (.unknownArea areaCode)
        | some area =>
          let (byte, bit) := offsetOf type (spelled [place₂, place₁, place₀])
          let address := { area, block := word block₁ block₀, byte, bit }
          .ok ({ address, type, count := word count₁ count₀ }, rest)
  | _ => .error .standardItemTruncated

end StandardItem

end S7Comm
