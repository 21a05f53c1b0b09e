import S7Comm.Item.Data
import S7Comm.Pdu.Parameters

/-!
# Reading

A request to read names its items in the parameter block and has no data. The answer has one data
item for each; an item that failed has a return code other than success, and whether that is an error
is up to the caller.

**What an answer must be.** An acknowledgment without an error report, with data, whose blocks are as
long as declared, which is about reading, and whose data block holds exactly the declared number of
data items and nothing else. The first demand that is not met is reported.
-/

namespace S7Comm.Pdu

/-- A request to read some items. -/
def encodeReadRequest (reference : UInt16) (items : List RequestItem) : Except Error Bytes := do
  let parameters ← Access.read.encodeParameters items
  let header ← Header.job reference parameters.length 0
  return header.encode ++ parameters

/-- Some data items at the front of some bytes, and the bytes behind them; the first of the items
has the given position in its message. -/
def decodeItems (index : Nat) : (count : Nat) → Bytes → Except FramingError (List DataItem × Bytes)
  | 0, bytes => .ok ([], bytes)
  | count + 1, bytes => do
    let (item, rest) ← (DataItem.decode bytes).mapError (.dataItem index)
    let (items, rest) ← decodeItems (index + 1) count rest
    return (item :: items, rest)

/-- What an acknowledgment must be before its blocks are looked at, and its blocks. -/
def openAnswer (bytes : Bytes) : Except Error (Header × Bytes × Bytes) := do
  let (header, body) ← Header.decode bytes
  header.requireAck
  header.requireNoReport
  header.requireAckData
  let (parameters, data) ← header.splitBlocks body
  return (header, parameters, data)

/-- The header and the data items of an answer to a request to read. -/
def decodeReadResponse (bytes : Bytes) : Except Error (Header × List DataItem) := do
  let (header, parameters, data) ← openAnswer bytes
  let count ← Access.read.decodeCount parameters
  let (items, rest) ← decodeItems 0 count.toNat data
  if rest ≠ [] then
    throw (.framing (.unexpectedBytes rest.length count.toNat))
  return (header, items)

end S7Comm.Pdu
