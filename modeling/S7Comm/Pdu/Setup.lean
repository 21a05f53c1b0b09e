import S7Comm.Pdu.Header

/-!
# Agreeing on a connection

The first request on a connection proposes how long messages may be and how many jobs may be open at
a time in either direction. The answer has the same form and says what holds from then on.

**What an answer must be.** At least as long as the shortest possible answer, an acknowledgment with
data and without an error report, with blocks as long as declared, about the same function, and with
a length for messages that is not zero. Whatever it lacks is a `NegotiationError`.
-/

namespace S7Comm.Pdu

/-- What client and controller agree on. -/
structure Setup where
  /-- Jobs that the client may have open. -/
  callerJobs : UInt16
  /-- Jobs that the controller accepts. -/
  calleeJobs : UInt16
  /-- The length of the longest message. -/
  pduLength : UInt16
  deriving DecidableEq, Repr

namespace Setup

/-- What a client proposes: one job at a time. -/
def proposal (pduLength : UInt16) : Setup :=
  { callerJobs := 1, calleeJobs := 1, pduLength }

/-- The function code of the setup. -/
def functionCode : UInt8 := 0xF0

/-- Bytes of the parameter block. -/
def parameterLength : Nat := 8

/-- The parameter block. -/
def encodeParameters (s : Setup) : Bytes :=
  [functionCode, 0] ++ wordBytes s.callerJobs ++ wordBytes s.calleeJobs ++ wordBytes s.pduLength

/-- The request that proposes a setup. -/
def encode (s : Setup) (reference : UInt16) : Bytes :=
  let header : Header :=
    { kind := .job, reference, parameterLength := UInt16.ofNat parameterLength, dataLength := 0 }
  header.encode ++ s.encodeParameters

/-- The setup that a parameter block holds. -/
def decodeParameters (parameters : Bytes) : Except NegotiationError Setup :=
  match parameters with
  | function :: _ :: caller₁ :: caller₀ :: callee₁ :: callee₀ :: length₁ :: length₀ :: _ =>
    if function ≠ functionCode then .error (.foreignFunction function)
    else
      let setup : Setup :=
        { callerJobs := word caller₁ caller₀, calleeJobs := word callee₁ callee₀,
          pduLength := word length₁ length₀ }
      if setup.pduLength = 0 then .error .zeroLength else .ok setup
  | _ => .error .parametersTruncated

/-- The header of an answer, and the setup that it holds. -/
def decodeResponse (bytes : Bytes) : Except NegotiationError (Header × Setup) := do
  if bytes.length < ackHeaderLength + parameterLength then
    throw (.responseTooShort bytes.length)
  let (header, body) ← (Header.decode bytes).mapError .malformed
  if header.kind ≠ .ackData then
    throw (.notAckData header.kind)
  header.requireNoReport.mapError .rejected
  let (parameters, _) ← (header.splitBlocks body).mapError .malformed
  let setup ← decodeParameters parameters
  return (header, setup)

end Setup

end S7Comm.Pdu
