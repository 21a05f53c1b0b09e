import S7Comm.Client.Lists
import S7Comm.Client.Range
import S7Comm.Payload

/-!
# Writing

The operations that write. A range of bytes is written in pieces; timers and counters are written as
whole elements with a single item, and so is a bit. Values are coded before anything else is looked
at, so that a value without a code is reported even where the address is wrong as well.

**Strings.** Of the header of a string only the last byte is written, the number of characters, and
the characters behind it. What stands in front of that byte is how much room the string has, and is
not the client's to change.
-/

namespace S7Comm.Client

variable {S : Type}

/-! ## Bytes -/

/-- Write data with a single item. -/
def writeItem (c : Client S) (item : StandardItem) (data : DataItem) : Call S Unit := do
  let _ ← Batch.writeAll c.channel [.standard item] [data]

/-- The item for some bytes of timers or counters, and its data. -/
def elementWrite (address : Address) (bytes : Bytes) :
    Except ArgumentError (StandardItem × DataItem) := do
  if bytes.length % 2 = 1 then
    throw (.partialElement bytes.length)
  let length ← itemLength bytes.length
  let item ← StandardItem.bytes address length
  return (item, .ofPayload .octets bytes)

/-- Write bytes from an address on. -/
def writeBytesAt (c : Client S) (address : Address) (bytes : Bytes) : Call S Unit := do
  if address.area.holdsElements then
    let (item, data) ← elementWrite address bytes
    c.writeItem item data
  else if bytes = [] then
    throw (.invalidArgument .noData)
  else
    c.channel.ensureReady
    let piece := writePiece (← c.channel.pduBudget)
    let pairs ← rangeWrites address piece bytes
    let _ ← Batch.writeAll c.channel (pairs.map Prod.fst) (pairs.map Prod.snd)

/-- Write elements of a type, under a transport size, to a place that is given by its parts. -/
def writeRaw (c : Client S) (type : ElementType) (count : UInt16) (area : Area) (block : UInt16)
    (byte : UInt32) (bit : UInt8) (size : TransportSize) (bytes : Bytes) : Call S Unit := do
  if bytes = [] then
    throw (.invalidArgument .noData)
  let address ← Address.make area block byte bit
  let item ← StandardItem.make address type count
  c.writeItem item (.ofPayload size bytes)

/-- Write bytes from an address on. -/
def writeBytes (c : Client S) (address : String) (bytes : Bytes) : Call S Unit := do
  let address ← Address.parse address
  c.writeBytesAt address bytes

/-- Write a byte. -/
def writeByte (c : Client S) (address : String) (value : UInt8) : Call S Unit :=
  c.writeBytes address [value]

/-- Write a number. -/
def writeNumber {α : Type} [Numeric α] (c : Client S) (address : String) (value : α) :
    Call S Unit :=
  c.writeBytes address (Numeric.encode c.profile.byteOrder value)

/-- Write a bit. -/
def writeBit (c : Client S) (address : String) (value : Bool) : Call S Unit := do
  let address ← Address.parse address
  c.writeItem (.single address) (.ofBit value)

/-! ## Lists of places -/

/-- Write a list of places, all of which must succeed. -/
def writeMany (c : Client S) (list : WriteList) : Call S Unit := do
  let _ ← Batch.writeAll c.channel list.items list.data

/-- Write a list of places, and return what the controller says of each. -/
def writeEachOf (c : Client S) (list : WriteList) : Call S (List ReturnCode) :=
  Batch.writeEach c.channel list.items list.data

/-! ## Strings -/

/-- Write a string. -/
def writeString (c : Client S) (address text : String) : Call S Unit := do
  let address ← Address.parse address
  let payload ← Payload.encodeText text
  if payload.length > maxStringLength then
    throw (.invalidArgument (.stringTooLong payload.length))
  let start ← address.advance (c.profile.stringHeaderLength.toNat - 1)
  c.writeBytesAt start (UInt8.ofNat payload.length :: payload)

/-! ## Dates and times -/

/-- Write a DATE. -/
def writeDate (c : Client S) (address : String) (date : Calendar.Date) : Call S Unit := do
  let bytes ← Payload.encodeDate date
  c.writeBytes address bytes

/-- Write a TIME_OF_DAY. -/
def writeTimeOfDay (c : Client S) (address : String) (time : Calendar.TimeOfDay) : Call S Unit :=
  c.writeBytes address (Payload.encodeTimeOfDay time)

/-- Write a TIME. -/
def writeTime (c : Client S) (address : String) (duration : Calendar.Duration) : Call S Unit := do
  let bytes ← Payload.encodeTime duration
  c.writeBytes address bytes

/-- Write a DTL. -/
def writeDateTime (c : Client S) (address : String) (moment : Calendar.DateTime) : Call S Unit := do
  let bytes ← Payload.encodeDateTime moment
  c.writeBytes address bytes

end S7Comm.Client
