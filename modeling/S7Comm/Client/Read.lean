import S7Comm.Client.Lists
import S7Comm.Client.Range
import S7Comm.Payload

/-!
# Reading

The operations that read. A range of bytes is read in pieces, timers and counters as whole elements,
and everything else with a single item. Values are decoded from the bytes read; numbers in the byte
order of the family.

**Strings.** A string begins with a header of one or two bytes, depending on the family, whose last
byte is the number of characters. `readString` reads the header first and then as much as the string
has; `readStringUpTo` reads room for a given number of characters at once, and takes of them what the
header says.
-/

namespace S7Comm.Client

variable {S : Type}

/-! ## Bytes -/

/-- The payload of a single item. -/
def readItem (c : Client S) (item : StandardItem) : Call S Bytes := do
  let items ← Batch.readAll c.channel [.standard item]
  match items.getLast? with
  | some item => return item.payload
  | none => throw (.framing .noDataItem)

/-- Some bytes from an address on. -/
def readBytesAt (c : Client S) (address : Address) (count : Nat) : Call S Bytes := do
  if count = 0 then
    throw (.invalidArgument .zeroCount)
  if address.area.holdsElements then
    if count > 65535 then
      throw (.invalidArgument (.elementsTooLong count))
    let item ← StandardItem.bytes address (UInt16.ofNat count)
    c.readItem item
  else
    c.channel.ensureReady
    let piece := readPiece (← c.channel.pduBudget)
    let items ← rangeItems address piece count
    let results ← Batch.readAll c.channel items
    return results.flatMap DataItem.payload

/-- Elements of a type at a place that is given by its parts. -/
def readRaw (c : Client S) (type : ElementType) (count : UInt16) (area : Area) (block : UInt16)
    (byte : UInt32) (bit : UInt8) : Call S Bytes := do
  let address ← Address.make area block byte bit
  let item ← StandardItem.make address type count
  c.readItem item

/-- Some bytes from an address on. -/
def readBytes (c : Client S) (address : String) (count : Nat) : Call S Bytes := do
  let address ← Address.parse address
  c.readBytesAt address count

/-- Whether the first of some bytes is not zero. -/
def isSet (bytes : Bytes) : Except Shortage Bool := do
  let byte ← Numeric.decode UInt8 .big bytes
  return byte != 0

/-- The number of some type at an address. -/
def readAs (c : Client S) (α : Type) [Numeric α] (order : ByteOrder) (address : String) :
    Call S α := do
  let item : Except Error StandardItem := do
    let address ← Address.parse address
    StandardItem.bytes address (UInt16.ofNat (Numeric.size α))
  let bytes ← c.readItem (← item)
  Numeric.decode α order bytes

/-- The byte at an address. -/
def readByte (c : Client S) (address : String) : Call S UInt8 :=
  c.readAs UInt8 .big address

/-- The number at an address. -/
def readNumber (c : Client S) (α : Type) [Numeric α] (address : String) : Call S α :=
  c.readAs α c.profile.byteOrder address

/-- The numbers at some addresses. -/
def readNumbers (c : Client S) (α : Type) [Numeric α] (addresses : List String) :
    Call S (List α) := do
  let items ← byteItems addresses (UInt16.ofNat (Numeric.size α))
  let results ← Batch.readAll c.channel items
  results.mapM fun item => Numeric.decode α c.profile.byteOrder item.payload

/-- The bit at an address. -/
def readBit (c : Client S) (address : String) : Call S Bool := do
  let address ← Address.parse address
  let bytes ← c.readItem (.single address)
  isSet bytes

/-- The bits at some addresses. -/
def readBits (c : Client S) (addresses : List String) : Call S (List Bool) := do
  let items ← bitItems addresses
  let results ← Batch.readAll c.channel items
  results.mapM fun item => isSet item.payload

/-- The bits at some addresses, as far as they can be read. -/
def readEachBit (c : Client S) (addresses : List String) : Call S (List (Option Bool)) := do
  let items ← bitItems addresses
  let results ← Batch.readEach c.channel items
  results.mapM fun item =>
    match item.payload? with
    | some payload => do return some (← isSet payload)
    | none => return none

/-! ## Lists of places -/

/-- The data items of a list of places. -/
def readMany (c : Client S) (list : ReadList) : Call S (List DataItem) :=
  Batch.readAll c.channel list.items.toList

/-- The payloads of a list of places, as far as they can be read. -/
def readEachOf (c : Client S) (list : ReadList) : Call S (List (Option Bytes)) := do
  let results ← Batch.readEach c.channel list.items.toList
  return results.map DataItem.payload?

/-! ## Strings -/

/-- The number of characters, which is the last byte of a string's header. -/
def stringLength (bytes : Bytes) (header : Nat) : Except Shortage Nat :=
  if header = 0 then .error ⟨header, bytes.length⟩
  else match bytes[header - 1]? with
    | some length => .ok length.toNat
    | none => .error ⟨header, bytes.length⟩

/-- Some characters behind the header of a string. -/
def stringText (bytes : Bytes) (header length : Nat) : Except Shortage String :=
  if bytes.length < header + length then .error ⟨header + length, bytes.length⟩
  else .ok (Latin1.decode ((bytes.drop header).take length))

/-- The length of the header of a string. -/
def stringHeader (c : Client S) : Nat :=
  c.profile.stringHeaderLength.toNat

/-- The string at an address. -/
def readString (c : Client S) (address : String) : Call S String := do
  let address ← Address.parse address
  let head ← c.readBytesAt address c.stringHeader
  let length ← stringLength head c.stringHeader
  if length = 0 then
    return ""
  let bytes ← c.readBytesAt address (c.stringHeader + length)
  stringText bytes c.stringHeader length

/-- At most some number of characters of the string at an address. -/
def readStringUpTo (c : Client S) (address : String) (length : Nat) : Call S String := do
  if length = 0 ∨ length > maxStringLength then
    throw (.invalidArgument (.stringLength length))
  let address ← Address.parse address
  let bytes ← c.readBytesAt address (c.stringHeader + length)
  let actual ← stringLength bytes c.stringHeader
  stringText bytes c.stringHeader (min actual length)

/-! ## Dates and times -/

/-- The DATE at an address. -/
def readDate (c : Client S) (address : String) : Call S Calendar.Date := do
  let bytes ← c.readBytes address 2
  Payload.decodeDate bytes

/-- The TIME_OF_DAY at an address. -/
def readTimeOfDay (c : Client S) (address : String) : Call S Calendar.TimeOfDay := do
  let bytes ← c.readBytes address 4
  Payload.decodeTimeOfDay bytes

/-- The TIME at an address. -/
def readTime (c : Client S) (address : String) : Call S Calendar.Duration := do
  let bytes ← c.readBytes address 4
  Payload.decodeTime bytes

/-- The DTL at an address. -/
def readDateTime (c : Client S) (address : String) : Call S Calendar.DateTime := do
  let bytes ← c.readBytes address Payload.dateTimeLength
  Payload.decodeDateTime bytes

end S7Comm.Client
