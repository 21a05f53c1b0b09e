import S7Comm.Client.Basic
import S7Comm.Pdu.Control

/-!
# Control

A job of control is one request and its answer. The request takes its reference before the job is
looked at, so that a job which cannot be expressed has used up a reference all the same.
-/

namespace S7Comm.Client

variable {S : Type}

/-- Have the controller do a job. -/
def control (c : Client S) (job : Pdu.Control) : Call S Unit := do
  c.channel.ensureReady
  let reference ← c.channel.allocate
  let request ← job.encode reference
  let response ← c.channel.exchange request
  let _ ← c.channel.accept (Pdu.Control.validateAck response reference)

end S7Comm.Client
