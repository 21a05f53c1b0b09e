import S7Comm.Error.Framing
import S7Comm.Error.Protocol

/-!
# What is wrong with the answer to a setup

A connection is not used before client and controller have agreed on the length of their messages.
An answer to that proposal can be unusable for reasons of its own, can be malformed like any other
message, and can report an error.
-/

namespace S7Comm

/-- A reason why no agreement was reached. -/
inductive NegotiationError where
  /-- Fewer bytes than the answer has at least. -/
  | responseTooShort (available : Nat)
  /-- The answer is no acknowledgment with data. -/
  | notAckData (kind : Pdu.Kind)
  /-- The answer breaks the format of messages. -/
  | malformed (cause : FramingError)
  /-- The controller reports an error. -/
  | rejected (cause : ProtocolError)
  /-- The parameters of the answer are cut off. -/
  | parametersTruncated
  /-- The answer is about another function. -/
  | foreignFunction (found : UInt8)
  /-- The controller accepts messages of no length at all. -/
  | zeroLength
  /-- The session met this error earlier and has not been connected since. -/
  | again (cause : NegotiationError)
  deriving DecidableEq, Repr

/-- The reason in words. -/
def NegotiationError.message : NegotiationError → String
  | .responseTooShort available => s!"setup response needs 20 bytes, got {available}"
  | .notAckData kind => "expected an ack with data, got " ++ kind.name
  | .malformed cause => "protocol framing error: " ++ cause.message
  | .rejected cause => cause.message
  | .parametersTruncated => "setup parameters truncated"
  | .foreignFunction found => "unexpected function " ++ Hex.code found ++ " in setup response"
  | .zeroLength => "PLC negotiated a zero PDU length"
  | .again cause => "session faulted: " ++ cause.message

end S7Comm
