import S7Comm.Text.Hex

/-!
# Return codes

A controller answers every item of a request with a code of one byte. Seven codes have a meaning of
their own; any other is kept as it is, so that no code is lost (`ReturnCode.code_ofCode`).
-/

namespace S7Comm

/-- What a controller says of one item. -/
inductive ReturnCode where
  /-- The item was read or written. -/
  | success
  /-- The hardware failed. -/
  | hardwareFault
  /-- The object must not be accessed. -/
  | accessDenied
  /-- There is no such address. -/
  | addressOutOfRange
  /-- The object does not have that type. -/
  | typeUnsupported
  /-- The type or the size does not agree with the object. -/
  | typeInconsistent
  /-- There is no such object. -/
  | noSuchObject
  /-- Any other code; the seven above are not written this way. -/
  | other (code : UInt8)
  deriving DecidableEq, Repr

namespace ReturnCode

/-- The byte that stands for a return code. -/
def code : ReturnCode → UInt8
  | .success => 0xFF
  | .hardwareFault => 0x01
  | .accessDenied => 0x03
  | .addressOutOfRange => 0x05
  | .typeUnsupported => 0x06
  | .typeInconsistent => 0x07
  | .noSuchObject => 0x0A
  | .other code => code

/-- The return code of a byte. -/
def ofCode (code : UInt8) : ReturnCode :=
  match code with
  | 0xFF => .success
  | 0x01 => .hardwareFault
  | 0x03 => .accessDenied
  | 0x05 => .addressOutOfRange
  | 0x06 => .typeUnsupported
  | 0x07 => .typeInconsistent
  | 0x0A => .noSuchObject
  | unknown => .other unknown

/-- Whether the item was read or written. -/
def isSuccess (c : ReturnCode) : Bool :=
  c == .success

/-- A return code in words. -/
def text : ReturnCode → String
  | .success => "Success"
  | .hardwareFault => "Hardware fault"
  | .accessDenied => "Accessing the object not allowed"
  | .addressOutOfRange => "Address out of range"
  | .typeUnsupported => "Data type not supported"
  | .typeInconsistent => "Data type inconsistent"
  | .noSuchObject => "Object does not exist"
  | .other code => "Unknown return code " ++ Hex.code code

/-- No code is lost by reading it. -/
theorem code_ofCode (byte : UInt8) : (ofCode byte).code = byte := by
  unfold ofCode
  split <;> rfl

end ReturnCode

end S7Comm
