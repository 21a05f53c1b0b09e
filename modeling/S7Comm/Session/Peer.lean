import S7Comm.Bytes
import S7Comm.Error.Transport

/-!
# The other end

A client knows of the other end what it can observe: what becomes of an attempt to connect, how far a
packet gets that is sent to it, which bytes it sends in turn, and whether the connection comes to an
end behind them. A `Peer` is just that, over a state of its own; nothing says that it is a controller,
or that it behaves like one. What the network and the operating system do in between is part of it.

**Failures.** An attempt to connect may fail, or come to nothing in time (`Attempt`). A packet may get
through as a whole, or only its first bytes: because the connection fails, or because no more of it is
taken in time (`Passage`). The connection may come to an end behind the bytes of a reply: because the
other end closes it, or because it fails in some other way (`Reply.ending`).

**Time.** No time passes here. The other end is told at the beginning how long it will be waited for,
and what is said of it is what it does within that time. A client that waits for bytes either gets
them, or finds that the connection has come to its end, or waits in vain; and since a peer acts only
on what it is sent, to wait for more than it has sent by then is to wait in vain. So a peer that goes
silent is one whose bytes do not suffice.

**The network** of a client is the state of the peer together with what the client has done to it, over
all of its connections: the packets that it has set out to send, and the bytes that have got through.
Statements about "nothing was sent" are about both.
-/

namespace S7Comm

/-! ## What the other end does -/

/-- What becomes of an attempt to connect. -/
inductive Attempt where
  /-- There is a connection. -/
  | taken
  /-- There is one, but it cannot be set to send packets without delay. -/
  | unprepared (failure : IoFailure)
  /-- There is no connection. -/
  | failed (failure : IoFailure)
  /-- There is none in time. -/
  | late
  deriving DecidableEq, Repr

/-- What an attempt to connect to an address ends with. -/
def Attempt.outcome (address : String) : Attempt → Except TransportError Unit
  | .taken => .ok ()
  | .unprepared failure | .failed failure => .error (.io failure)
  | .late => .error (.connectTimeout address)

/-- How far a packet gets. -/
inductive Passage where
  /-- All of it gets through. -/
  | whole
  /-- The connection fails when some first bytes of it have got through. -/
  | broken (length : Nat) (failure : IoFailure)
  /-- Some first bytes of it get through in time, and no more. -/
  | stalled (length : Nat)
  deriving DecidableEq, Repr

namespace Passage

/-- What sending a packet ends with. -/
def outcome : Passage → Except TransportError Unit
  | .whole => .ok ()
  | .broken _ failure => .error (.io failure)
  | .stalled _ => .error .timeout

/-- The bytes of a packet that get through. -/
def through (packet : Bytes) : Passage → Bytes
  | .whole => packet
  | .broken length _ | .stalled length => packet.take length

end Passage

/-- What a peer does about a packet. -/
structure Reply where
  /-- The bytes that it sends. -/
  bytes : Bytes
  /-- The end to which the connection comes behind them, if it does. -/
  ending : Option IoFailure := none
  /-- How far the packet gets. -/
  passage : Passage := .whole
  deriving DecidableEq, Repr

/-- The behaviour of the other end, over states of type `σ`. -/
structure Peer (σ : Type) where
  /-- What becomes of an attempt to connect to an address. Whoever tries will wait so long for a
  connection, and for what is exchanged over it. -/
  accept : (address : String) → (connectTimeout exchangeTimeout : Nat) → σ → Attempt × σ
  /-- What is done about a packet. -/
  receive : Bytes → σ → Reply × σ

/-- The other end as it is now, and what has been done to it. -/
structure Network (σ : Type) where
  /-- The state of the other end. -/
  peer : σ
  /-- All packets that a client has set out to send, the first one first. -/
  sent : List Bytes
  /-- The bytes of them that have got through. -/
  wire : Bytes := []

/-! ## Connections -/

/-- The client's end of an open connection. -/
structure Stream where
  /-- Bytes that have arrived and have not been read. -/
  unread : Bytes
  /-- The end to which the connection has come behind them, if it has: then nothing will arrive. -/
  ending : Option IoFailure := none
  deriving DecidableEq, Repr

namespace Stream

/-- A connection on which nothing has arrived. -/
def fresh : Stream :=
  { unread := [] }

/-- The connection when a reply has come: its bytes arrive behind what has not been read. Nothing
arrives on a connection that has come to its end. -/
def arrive (reply : Reply) (stream : Stream) : Stream :=
  match stream.ending with
  | some _ => stream
  | none => { unread := stream.unread ++ reply.bytes, ending := reply.ending }

/-- The first bytes that have not been read, and the connection after reading them. Where there are
not as many, none will come. -/
def read (length : Nat) (stream : Stream) : Except TransportError (Bytes × Stream) :=
  let bytes := stream.unread.take length
  if bytes.length = length then .ok (bytes, { stream with unread := stream.unread.drop length })
  else match stream.ending with
    | some failure => .error (.io failure)
    | none => .error .timeout

end Stream

namespace Peer

variable {σ : Type}

/-- Send a packet. If it gets through, the connection is the one on which the reply to it has come. -/
def send (peer : Peer σ) (packet : Bytes) (stream : Stream) (network : Network σ) :
    Except TransportError Stream × Network σ :=
  let (reply, state) := peer.receive packet network.peer
  (reply.passage.outcome.map fun _ => stream.arrive reply,
    { peer := state, sent := network.sent ++ [packet]
      wire := network.wire ++ reply.passage.through packet })

end Peer

end S7Comm
