import S7Comm.Text.Hex

/-!
# Errors that a controller reports

An acknowledgment has an error class and an error code in its header; a controller that cannot serve
a request sets them. Any pair but two zeros is a report.
-/

namespace S7Comm

/-- What a controller reports in the header of an acknowledgment. -/
structure ProtocolError where
  /-- The class of the error. -/
  errorClass : UInt8
  /-- The error within the class. -/
  errorCode : UInt8
  deriving DecidableEq, Repr

namespace ProtocolError

/-- A class in words. -/
def className (errorClass : UInt8) : String :=
  match errorClass with
  | 0x00 => "No error"
  | 0x81 => "Application relationship error"
  | 0x82 => "Object definition error"
  | 0x83 => "No resources available error"
  | 0x84 => "Error on service processing"
  | 0x85 => "Error on supplies"
  | 0x87 => "Access error"
  | _ => "Unknown error class"

/-- The report in words. -/
def message (e : ProtocolError) : String :=
  "S7 Protocol error: " ++ className e.errorClass ++ " (class " ++ Hex.code e.errorClass ++
    ") - error code: " ++ Hex.code e.errorCode

end ProtocolError

end S7Comm
