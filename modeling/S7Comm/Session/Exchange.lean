import S7Comm.Iso.Cotp
import S7Comm.Session.Peer

/-!
# Messages over a connection

Here messages and packets meet the stream of bytes that a connection is. `readPacket` takes a packet
from the stream, `readMessage` as many data units as belong to one message, at most 64, and `roundTrip`
sends a message and reads the one that answers it. Behind a packet that does not get through nothing is
read.

**What is read.** Exactly the packets of the message: whatever has arrived behind them stays for the
next message on the same connection.
-/

namespace S7Comm.Stream

/-- The payload of the packet at the front of the stream. -/
def readPacket (stream : Stream) : Except TransportError (Bytes × Stream) := do
  let (header, stream) ← stream.read Iso.Packet.headerLength
  let length ← (Iso.Packet.payloadLength header).mapError .packet
  stream.read length

/-- A message in at most some number of data units. -/
def readMessage : (fragments : Nat) → Stream → Except TransportError (Bytes × Stream)
  | 0, _ => .error (.packet .tooManyFragments)
  | fragments + 1, stream => do
    let (payload, stream) ← stream.readPacket
    let (last, data) ← (Iso.unwrapData payload).mapError .packet
    if last then
      return (data, stream)
    let (rest, stream) ← readMessage fragments stream
    return (data ++ rest, stream)

end S7Comm.Stream

namespace S7Comm.Peer

variable {σ : Type}

/-- Send a message and read the one that answers it. A message that is too long for a packet is not
sent. -/
def roundTrip (peer : Peer σ) (message : Bytes) (stream : Stream) (network : Network σ) :
    Except TransportError (Bytes × Stream) × Network σ :=
  match Iso.wrapData message with
  | .error e => (.error (.packet e), network)
  | .ok packet =>
    let (sending, network) := peer.send packet stream network
    let reading := do
      let stream ← sending
      stream.readMessage Iso.maxFragments
    (reading, network)

end S7Comm.Peer
