import S7Comm.Item.Request
import S7Comm.Pdu.Header

/-!
# Parameters of reading and writing

The parameter block of a request to read or to write consists of a function code, the number of items
in one byte, and the items; so a request has at least one item and at most 255. The answer repeats
function and number and leaves out the items. What stands behind them in the block does not matter.
-/

namespace S7Comm.Pdu

/-- What a request is for. -/
inductive Access where
  /-- Reading items. -/
  | read
  /-- Writing items. -/
  | write
  deriving DecidableEq, Repr

/-- The function code of an access. -/
def Access.code : Access → UInt8
  | .read => 0x04
  | .write => 0x05

namespace Access

/-- The most items of one request. -/
def maxItems : Nat := 255

/-- Bytes of the function code and the number of items. -/
def countLength : Nat := 2

/-- The parameter block of a request, if the number of its items is one that can be told. -/
def encodeParameters (access : Access) (items : List RequestItem) : Except ArgumentError Bytes :=
  if items.length > maxItems then .error (.tooManyItems items.length)
  else if items = [] then .error .noItems
  else .ok (access.code :: UInt8.ofNat items.length :: items.flatMap RequestItem.encode)

/-- The number of items that the parameter block of an answer declares. -/
def decodeCount (access : Access) (parameters : Bytes) : Except FramingError UInt8 :=
  match parameters with
  | function :: count :: _ =>
    if function = access.code then .ok count else .error (.foreignFunction access.code function)
  | _ => .error .parametersTruncated

end Access

end S7Comm.Pdu
