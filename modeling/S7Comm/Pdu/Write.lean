import S7Comm.Pdu.Read

/-!
# Writing

A request to write names its items in the parameter block and has their data in the data block, in
the same order. The answer has a return code of one byte for each item, and its data block is exactly
that row of codes.
-/

namespace S7Comm.Pdu

/-- A request to write the data to the items, the first to the first and so on. -/
def encodeWriteRequest (reference : UInt16) (items : List RequestItem) (data : List DataItem) :
    Except Error Bytes := do
  if items.length ≠ data.length then
    throw (.invalidArgument (.unpairedData items.length data.length))
  let parameters ← Access.write.encodeParameters items
  let block := DataItem.encodeBlock data
  let header ← Header.job reference parameters.length block.length
  return header.encode ++ parameters ++ block

/-- The header and the return codes of an answer to a request to write. -/
def decodeWriteResponse (bytes : Bytes) : Except Error (Header × List ReturnCode) := do
  let (header, parameters, data) ← openAnswer bytes
  let count ← Access.write.decodeCount parameters
  if data.length ≠ count.toNat then
    throw (.framing (.codeCount count.toNat data.length))
  return (header, data.map ReturnCode.ofCode)

end S7Comm.Pdu
