import S7Comm.Call
import S7Comm.Options
import S7Comm.Pdu.Setup
import S7Comm.Session.Exchange

/-!
# Sessions

A session is a client's side of its dealings with one controller: the options, the connection if there
is one, how far it has got, the fault if there was one, what was agreed on, and the reference of the
last request.

**How far a session has got** (`SessionState`). It is disconnected until it is connected. Connecting
goes through two states, that in which the connection is opened and that in which the setup is
negotiated, and ends in one of two: ready, or faulted. A ready session becomes faulted by an error of
the connection, and by a response that makes no sense; a faulted one is of no use until it is connected
again, and answers every request with its fault.

**Three fields of their own.** The state, the connection and the fault are kept apart, and nothing in
a `Session` makes them agree: there are values that are ready and have no connection, or are
disconnected and have a fault. The functions that look at one of them do so without regard to the
others: `Session.checkReady` at the state, and at the fault if that is faulted, `Station.roundTrip` at
the connection only. That the three agree between two calls is for the functions below to see to.

**References.** Requests are numbered from one on; after 65535 comes one again, so that no request
has the reference zero (`Session.following`). The numbering goes on when the session is connected
again.

**What stays.** A connection that fails leaves the length of messages and the number of jobs as they
were agreed on last. They have no meaning then, but they can be looked at.
-/

namespace S7Comm

/-! ## Sessions -/

/-- How far a session has got. -/
inductive SessionState where
  /-- There is no connection. -/
  | disconnected
  /-- The connection is being opened. -/
  | connecting
  /-- The setup is being negotiated. -/
  | negotiating
  /-- The connection can be used. -/
  | ready
  /-- The connection was given up because of an error. -/
  | faulted
  deriving DecidableEq, Repr

/-- A client's side of its dealings with a controller. -/
structure Session where
  /-- What the connection is made from. -/
  options : Options
  /-- The connection, if there is one. -/
  stream? : Option Stream := none
  /-- How far the session has got. -/
  state : SessionState := .disconnected
  /-- The error for which the connection was given up, if it was. -/
  fault? : Option Fault := none
  /-- The length of the longest message, as agreed on last; zero before that. -/
  pduLength : UInt16 := 0
  /-- The jobs that the controller accepts at a time, as agreed on last; zero before that. -/
  parallelJobs : UInt16 := 0
  /-- The reference of the last request; zero before the first. -/
  reference : UInt16 := 0
  deriving DecidableEq, Repr

namespace Session

/-- The reference after a reference. -/
def following (reference : UInt16) : UInt16 :=
  if reference + 1 = 0 then 1 else reference + 1

/-- The session after numbering a request; the number is its `reference`. -/
def advance (s : Session) : Session :=
  { s with reference := following s.reference }

/-- Refuse a session that is not ready: with its fault, or because it is not connected. -/
def checkReady (s : Session) : Except Error Unit :=
  match s.state, s.fault? with
  | .ready, _ => .ok ()
  | .faulted, some fault => .error fault.replay
  | _, _ => .error (.transport .notConnected)

/-- The session with a connection. -/
def hold (stream : Stream) (s : Session) : Session :=
  { s with stream? := some stream }

/-- The session with a connection on which nothing has been agreed on. -/
def opened (stream : Stream) (s : Session) : Session :=
  { s with stream? := some stream, state := .negotiating }

/-- The session in a state, without a connection or a fault. -/
def dropped (state : SessionState) (s : Session) : Session :=
  { s with stream? := none, state, fault? := none }

/-- The session without its connection, which was given up because of a fault. -/
def markFaulted (fault : Fault) (s : Session) : Session :=
  { s with stream? := none, state := .faulted, fault? := some fault }

end Session

/-! ## Sessions on a network -/

/-- A session and the network that it is on. -/
structure Station (σ : Type) where
  /-- The session. -/
  session : Session
  /-- The other end, and what has been done to it. -/
  network : Network σ

namespace Station

variable {σ : Type}

/-- Give up the connection because of a fault. -/
def markFaulted (fault : Fault) (st : Station σ) : Station σ :=
  { st with session := st.session.markFaulted fault }

/-! ### Using a connection -/

/-- Send a message over the connection, and return the one that answers it. What is left unread stays
with the connection. -/
def roundTrip (peer : Peer σ) (message : Bytes) : EStateM TransportError (Station σ) Bytes :=
  fun st =>
    match st.session.stream? with
    | none => .error .notConnected st
    | some stream =>
      match peer.roundTrip message stream st.network with
      | (.ok (response, stream), network) => .ok response { session := st.session.hold stream, network }
      | (.error e, network) => .error e { st with network }

/-- Send a message and return the one that answers it, if the session is ready. What goes wrong is a
fault. -/
def exchange (peer : Peer σ) (message : Bytes) : Call (Station σ) Bytes := fun st =>
  match st.session.checkReady with
  | .error e => .error e st
  | .ok () =>
    match roundTrip peer message st with
    | .ok response st => .ok response st
    | .error e st => .error (.transport e) (st.markFaulted (.transport e))

/-! ### Opening -/

/-- Open a connection: connect, send a connection request, and wait for the confirmation. -/
def openStream (peer : Peer σ) (options : Options) (network : Network σ) :
    Except TransportError Stream × Network σ :=
  let (attempt, state) := peer.accept options.socketAddress options.connectTimeout
    options.exchangeTimeout network.peer
  let network := { network with peer := state }
  match attempt.outcome options.socketAddress with
  | .error e => (.error e, network)
  | .ok () =>
    let request := Iso.connectionRequest options.localAccess options.remoteAccess
    let (sending, network) := peer.send request .fresh network
    let confirmed : Except TransportError Stream := do
      let stream ← sending
      let (confirm, stream) ← stream.readPacket
      (Iso.checkConfirm confirm).mapError .packet
      return stream
    (confirmed, network)

/-- The setup in the answer to the setup request with the given reference. When the setup has been
found, the header is read once more, for the reference. -/
def acceptSetup (response : Bytes) (reference : UInt16) : Except Fault Pdu.Setup := do
  let (_, setup) ← (Pdu.Setup.decodeResponse response).mapError .negotiation
  let (header, _) ← (Pdu.Header.decode response).mapError .framing
  (header.requireReference reference).mapError fun cause => .negotiation (.malformed cause)
  return setup

/-- Negotiate the setup over the connection. -/
def negotiate (peer : Peer σ) : EStateM Fault (Station σ) Unit := fun st =>
  let st : Station σ := { st with session := st.session.advance }
  let request := (Pdu.Setup.proposal st.session.options.pduLength).encode st.session.reference
  match roundTrip peer request st with
  | .error e st => .error (.transport e) st
  | .ok response st =>
    match acceptSetup response st.session.reference with
    | .error fault => .error fault st
    | .ok setup =>
      let session : Session :=
        { st.session with state := .ready, pduLength := setup.pduLength,
                          parallelJobs := setup.calleeJobs }
      .ok () { st with session }

/-- Open a connection and negotiate the setup over it. -/
def establish (peer : Peer σ) : EStateM Fault (Station σ) Unit := fun st =>
  match openStream peer st.session.options st.network with
  | (.error e, network) => .error (.transport e) { st with network }
  | (.ok stream, network) =>
    negotiate peer { session := st.session.opened stream, network }

/-- Connect the session. A connection that it has is dropped, and a fault is forgotten; what goes
wrong is the new fault. -/
def connect (peer : Peer σ) : Call (Station σ) Unit := fun st =>
  match establish peer { st with session := st.session.dropped .connecting } with
  | .ok () st => .ok () st
  | .error fault st => .error fault.error (st.markFaulted fault)

/-! ### Closing -/

/-- Take leave of the other end, if there is a connection, and forget a fault. Whether the other end
is told is of no importance. -/
def close (peer : Peer σ) : Call (Station σ) Unit := fun st =>
  let network := match st.session.stream? with
    | some stream => (peer.send Iso.disconnectRequest stream st.network).2
    | none => st.network
  .ok () { session := st.session.dropped .disconnected, network }

end Station

end S7Comm
