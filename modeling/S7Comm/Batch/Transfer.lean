import S7Comm.Batch.Plan
import S7Comm.Pdu.Write
import S7Comm.Session.Channel

/-!
# Reading and writing lists of items

A list of items is read or written with as many messages as its plan has runs, one after the other,
and the results are put together in the order of the list.

**Each and all.** `readEach` and `writeEach` return what the controller says of each item, so that a
failed item is a result like any other. `readAll` and `writeAll` do the same and then look at the
return codes: if any item failed, that is the outcome, with the positions of all that did. Since the
look comes last, the two ways send the same messages and leave the same session.

**What is checked of an answer.** That it answers the request, and that it has as many items as were
asked for; in reading also that an item that succeeded has exactly the bytes that were asked for. An
answer that fails a check makes the session useless, like one that cannot be decoded.
-/

namespace S7Comm.Batch

variable {S : Type}

/-! ## Return codes -/

/-- The items that failed, with their positions. -/
def failures (codes : List ReturnCode) : List (ReturnCode × Nat) :=
  codes.zipIdx.filter fun (code, _) => !code.isSuccess

/-- Fail if any item failed. -/
def checkCodes (codes : List ReturnCode) : Except Error Unit :=
  match failures codes with
  | [] => .ok ()
  | (code, index) :: others => .error (.item index code (index :: others.map Prod.snd))

/-! ## Reading -/

/-- Check that items which succeeded have the bytes that were asked for; the first of them has the
given position in its message. -/
def checkPayloads (index : Nat) : List RequestItem → List DataItem → Except FramingError Unit
  | request :: requests, item :: items =>
    match request.dataLength? with
    | some length =>
      if item.isSuccess ∧ item.payload.length ≠ length then
        .error (.payloadLength index length item.payload.length)
      else checkPayloads (index + 1) requests items
    | none => checkPayloads (index + 1) requests items
  | _, _ => .ok ()

/-- The data items of an answer to a request for some items. -/
def checkReadResponse (response : Bytes) (reference : UInt16) (requested : List RequestItem) :
    Except Error (List DataItem) := do
  let (header, items) ← Pdu.decodeReadResponse response
  header.requireReference reference
  if items.length ≠ requested.length then
    throw (.framing (.readCount requested.length items.length))
  checkPayloads 0 requested items
  return items

/-- Read some items with one message. -/
def readRun (c : Channel S) (items : List RequestItem) : Call S (List DataItem) := do
  let reference ← c.allocate
  let request ← Pdu.encodeReadRequest reference items
  let response ← c.exchange request
  c.accept (checkReadResponse response reference items)

/-- Read some items, and return what was read of each. -/
def readEach (c : Channel S) (items : List RequestItem) : Call S (List DataItem) := do
  if items = [] then
    return []
  c.ensureReady
  let runs ← planReads (← c.pduBudget) items
  let results ← runs.mapM (readRun c)
  return results.flatten

/-- Read some items, all of which must succeed. -/
def readAll (c : Channel S) (items : List RequestItem) : Call S (List DataItem) := do
  let results ← readEach c items
  checkCodes (results.map DataItem.returnCode)
  return results

/-! ## Writing -/

/-- The return codes of an answer to a request to write some items. -/
def checkWriteResponse (response : Bytes) (reference : UInt16) (written : Nat) :
    Except Error (List ReturnCode) := do
  let (header, codes) ← Pdu.decodeWriteResponse response
  header.requireReference reference
  if codes.length ≠ written then
    throw (.framing (.writtenCount written codes.length))
  return codes

/-- Write some items with one message. -/
def writeRun (c : Channel S) (pairs : List (RequestItem × DataItem)) :
    Call S (List ReturnCode) := do
  let reference ← c.allocate
  let request ← Pdu.encodeWriteRequest reference (pairs.map Prod.fst) (pairs.map Prod.snd)
  let response ← c.exchange request
  c.accept (checkWriteResponse response reference pairs.length)

/-- Write data to some items, the first to the first and so on, and return what the controller says
of each. -/
def writeEach (c : Channel S) (items : List RequestItem) (data : List DataItem) :
    Call S (List ReturnCode) := do
  if items.length ≠ data.length then
    throw (.invalidArgument (.unpairedData items.length data.length))
  if items = [] then
    return []
  c.ensureReady
  let runs ← planWrites (← c.pduBudget) (items.zip data)
  let results ← runs.mapM (writeRun c)
  return results.flatten

/-- Write data to some items, all of which must succeed. -/
def writeAll (c : Channel S) (items : List RequestItem) (data : List DataItem) :
    Call S (List ReturnCode) := do
  let codes ← writeEach c items data
  checkCodes codes
  return codes

end S7Comm.Batch
