import S7Comm.Error.Address
import S7Comm.Error.Argument
import S7Comm.Error.Negotiation
import S7Comm.Error.Transport
import S7Comm.Number
import S7Comm.ReturnCode

/-!
# Errors of a call

Whatever a call on a controller can fail with is an `Error`: one constructor for each kind of
failure, around the cause that the layer concerned has given.

**Faults.** Three kinds leave the two ends of a connection without a common understanding of where
they are: failures of the transport, of the negotiation, and of the framing of a response. A session
remembers such an error as its `Fault` and answers later calls with it (`Fault.replay`) until it is
connected again. The repeated error is marked as such, except for those of the transport; and since
the fault itself is left as it is, the mark appears once, however often the error is repeated.
-/

namespace S7Comm

/-- What a call can fail with. -/
inductive Error where
  /-- The text of an address was not understood. -/
  | address (input : String) (cause : AddressError)
  /-- The connection or the packets on it failed. -/
  | transport (cause : TransportError)
  /-- No agreement with the controller was reached. -/
  | negotiation (cause : NegotiationError)
  /-- A response broke the format. -/
  | framing (cause : FramingError)
  /-- The controller reported an error for the request as a whole. -/
  | protocol (cause : ProtocolError)
  /-- Some items failed; the first of them, its code, and the positions of all. -/
  | item (index : Nat) (code : ReturnCode) (failed : List Nat)
  /-- An item is too large for a message of its own. -/
  | itemTooLarge (index size : Nat) (budget : UInt16)
  /-- A payload is shorter than the value read from it. -/
  | insufficientData (shortage : Shortage)
  /-- An argument cannot be expressed. -/
  | invalidArgument (cause : ArgumentError)
  deriving DecidableEq

namespace Error

/-- Positions in words: in brackets, with a comma and a blank between two. -/
def positions (indices : List Nat) : String :=
  "[" ++ ", ".intercalate (indices.map fun index => s!"{index}") ++ "]"

/-- The error in words. -/
def message : Error → String
  | .address input cause => s!"invalid address '{input}': " ++ cause.message
  | .transport cause => "transport error: " ++ cause.message
  | .negotiation cause => "negotiation failed: " ++ cause.message
  | .framing cause => "protocol framing error: " ++ cause.message
  | .protocol cause => cause.message
  | .item index code failed =>
    s!"item {index} failed: " ++ code.text ++ " (failed items: " ++ positions failed ++ ")"
  | .itemTooLarge index size budget =>
    s!"item {index} needs {size} bytes, the negotiated PDU length is {budget}"
  | .insufficientData shortage => shortage.message
  | .invalidArgument cause => "invalid argument: " ++ cause.message

end Error

/-! ## Faults -/

/-- An error after which a session is of no use until it is connected again. -/
inductive Fault where
  /-- The connection or the packets on it failed. -/
  | transport (cause : TransportError)
  /-- No agreement with the controller was reached. -/
  | negotiation (cause : NegotiationError)
  /-- A response broke the format. -/
  | framing (cause : FramingError)
  deriving DecidableEq, Repr

/-- The error that a fault was made of. -/
def Fault.error : Fault → Error
  | .transport cause => .transport cause
  | .negotiation cause => .negotiation cause
  | .framing cause => .framing cause

/-- The error of a call on a session with a fault. -/
def Fault.replay : Fault → Error
  | .transport cause => .transport cause
  | .negotiation cause => .negotiation (.again cause)
  | .framing cause => .framing (.again cause)

/-- The fault that an error leaves behind, if it leaves one. -/
def Error.fault? : Error → Option Fault
  | .transport cause => some (.transport cause)
  | .negotiation cause => some (.negotiation cause)
  | .framing cause => some (.framing cause)
  | _ => none

/-- Whether the session on which the error occurs is of no use afterwards. -/
def Error.isFatal (e : Error) : Bool :=
  e.fault?.isSome

/-- The fault that an error leaves behind is the one that it can be told from. -/
theorem Error.fault?_eq_some_iff {e : Error} {fault : Fault} :
    e.fault? = some fault ↔ e = fault.error := by
  constructor
  · cases e <;> rintro ⟨⟩ <;> rfl
  · rintro rfl
    cases fault <;> rfl

/-! ## From the layers to calls -/

instance : MonadLift (Except FramingError) (Except Error) := ⟨Except.mapError .framing⟩
instance : MonadLift (Except NegotiationError) (Except Error) := ⟨Except.mapError .negotiation⟩
instance : MonadLift (Except TransportError) (Except Error) := ⟨Except.mapError .transport⟩
instance : MonadLift (Except ProtocolError) (Except Error) := ⟨Except.mapError .protocol⟩
instance : MonadLift (Except ArgumentError) (Except Error) := ⟨Except.mapError .invalidArgument⟩
instance : MonadLift (Except Shortage) (Except Error) := ⟨Except.mapError .insufficientData⟩

end S7Comm
