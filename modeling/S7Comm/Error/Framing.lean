import S7Comm.Pdu.Kind
import S7Comm.Text.Hex

/-!
# What is wrong with a message

A message that was received, or a part of one, can break the format in the ways listed here. Each is
a cause with the numbers that belong to it; the words are in `FramingError.message` alone.

Two of the causes contain another: an item of a response that is malformed itself, and an error that
a session met earlier and reports again.
-/

namespace S7Comm

/-- A way in which received bytes break the format that they should have. -/
inductive FramingError where
  /-- Fewer bytes than a header has. -/
  | headerTooShort (available : Nat)
  /-- The first byte is not that of the protocol. -/
  | foreignProtocol (found : UInt8)
  /-- The second byte is no kind of message. -/
  | unknownKind (found : UInt8)
  /-- The header of an acknowledgment ends before its error fields. -/
  | ackTruncated
  /-- The message is no acknowledgment. -/
  | notAck (kind : Pdu.Kind)
  /-- The message is no acknowledgment with data. -/
  | notAckData (kind : Pdu.Kind)
  /-- The message answers another request. -/
  | foreignReference (received expected : UInt16)
  /-- The blocks that the header declares are longer than what follows it. -/
  | blocksTruncated (parameters data available : Nat)
  /-- The parameters end before the number of items. -/
  | parametersTruncated
  /-- The message answers another function. -/
  | foreignFunction (expected found : UInt8)
  /-- A byte is no area. -/
  | unknownArea (found : UInt8)
  /-- A byte is no type of element. -/
  | unknownElementType (found : UInt8)
  /-- A byte is no area of a numerical control. -/
  | unknownNckArea (found : UInt8)
  /-- A byte is no module of a numerical control. -/
  | unknownNckModule (found : UInt8)
  /-- A request for memory is cut off. -/
  | standardItemTruncated
  /-- The bytes are no request for memory. -/
  | notStandardItem
  /-- A request to a numerical control is cut off. -/
  | nckItemTruncated
  /-- The bytes are no request to a numerical control. -/
  | notNckItem
  /-- Fewer bytes than the header of a data item has. -/
  | dataHeaderTooShort (available : Nat)
  /-- A data item declares more bytes than there are. -/
  | dataTruncated (declared available : Nat)
  /-- One of the data items of a response is malformed. -/
  | dataItem (index : Nat) (cause : FramingError)
  /-- Bytes are left after the last data item. -/
  | unexpectedBytes (bytes items : Nat)
  /-- A response declares another number of items than it has return codes. -/
  | codeCount (declared carried : Nat)
  /-- A response has another number of data items than were asked for. -/
  | readCount (requested received : Nat)
  /-- A response has another number of return codes than items were written. -/
  | writtenCount (written received : Nat)
  /-- A data item of a response has another length than was asked for. -/
  | payloadLength (index requested received : Nat)
  /-- A response to a request for one item carries none. -/
  | noDataItem
  /-- The session met this error earlier and has not been connected since. -/
  | again (cause : FramingError)
  deriving DecidableEq, Repr

/-- The error in words. -/
def FramingError.message : FramingError → String
  | .headerTooShort available => s!"S7 header needs 10 bytes, got {available}"
  | .foreignProtocol found => "unexpected protocol id " ++ Hex.code found
  | .unknownKind found => "unknown message type " ++ Hex.code found
  | .ackTruncated => "acknowledgment header truncated"
  | .notAck kind => "expected an acknowledgment, got " ++ kind.name
  | .notAckData kind => "expected an ack with data, got " ++ kind.name
  | .foreignReference received expected =>
    s!"response belongs to PDU {received} instead of {expected}"
  | .blocksTruncated parameters data available =>
    s!"header declares {parameters} parameter and {data} data bytes, only {available} available"
  | .parametersTruncated => "parameter block truncated"
  | .foreignFunction expected found =>
    "expected function " ++ Hex.code expected ++ ", got " ++ Hex.code found
  | .unknownArea found => "unknown area code " ++ Hex.code found
  | .unknownElementType found => "unknown variable type " ++ Hex.code found
  | .unknownNckArea found => s!"unknown NCK area {found}"
  | .unknownNckModule found => "unknown NCK module " ++ Hex.code found
  | .standardItemTruncated => "request item truncated"
  | .notStandardItem => "not an any-type request item"
  | .nckItemTruncated => "NCK request item truncated"
  | .notNckItem => "not an NCK request item"
  | .dataHeaderTooShort available => s!"data item header needs 4 bytes, got {available}"
  | .dataTruncated declared available =>
    s!"data item declares {declared} bytes, only {available} available"
  | .dataItem index cause =>
    s!"data item {index}: protocol framing error: " ++ cause.message
  | .unexpectedBytes bytes items => s!"{bytes} unexpected bytes after {items} data items"
  | .codeCount declared carried =>
    s!"write response declares {declared} items but carries {carried} return codes"
  | .readCount requested received =>
    s!"item count mismatch: requested {requested}, received {received}"
  | .writtenCount written received =>
    s!"item count mismatch: wrote {written}, received {received} return codes"
  | .payloadLength index requested received =>
    s!"item {index}: requested {requested} bytes, received {received}"
  | .noDataItem => "response carries no data item"
  | .again cause => "session faulted: " ++ cause.message

end S7Comm
