import S7Comm.Proofs.Operations

/-!
# What becomes of a session

A session on a network goes through its states whatever the other end does, and whatever is asked of
it. Its state, its connection and its fault are fields of their own (`Session`), and nothing but the
functions that change them makes them agree; that they do is shown here.

* `Session.ReadyOn s stream`: `state = .ready` and `stream? = some stream`. `Session.GivenUp s fault`:
  `state = .faulted`, `fault? = some fault` and `stream? = none`.
* `Session.Settled`: what holds between two calls. The state is disconnected, ready or faulted; it is
  ready exactly if there is a connection, and then there is no fault and `pduLength ≠ 0`; it is
  faulted exactly if there is a fault, and then there is no connection.
* `Peer.Continues peer start here`: the moments of one connection, between which packets get through
  and bytes are read, and nothing else is done.

**A call on a ready session** (`Keeps`, `Settles`) ends in one of two ways. Its error is one after
which the session is of no use, and then the session is given up for just that error; or the session
is still ready (`StillReady`), on the connection that it had, with the fault and the agreement that it
had. This needs `state = .ready` only: a session that is ready without a connection, which no call
leaves behind, would be given up at the first exchange.

**A call on a session that is not ready** (`Rests`) changes nothing, and what makes it fail is either
the argument or the state of the session.

**Main result** (`Station.session_course`): a session is settled behind every run of steps from the
beginning on, whatever the other end does (`Station.settled_run`), and of a use of its connection the
outcome and what becomes of the session say the same. The first two are laws in the sense of
`Client.Law`, so that they are shown for reading, writing and control, and not for each operation.

What is not said here: how connecting succeeds (`connect_course`), what exactly is sent, and when.
-/

namespace S7Comm

open Call

variable {σ : Type}

/-! ## One connection

A ready session is "still on its connection" if nothing has been done to it since but what `Continues`
allows. So a connection that was dropped and opened anew, on which bytes would be lost, is not the
same one, even if the two should be equal as values.
-/

/-- The moments of a connection from a given one on: packets get through on it, and bytes are read from
it, and nothing else is done to it. -/
inductive Peer.Continues (peer : Peer σ) (start : Stream × Network σ) :
    Stream × Network σ → Prop where
  /-- Nothing has been done yet. -/
  | refl : Continues peer start start
  /-- A packet has got through. -/
  | send {stream stream' : Stream} {network network' : Network σ} {packet : Bytes} :
    Continues peer start (stream, network) →
    peer.send packet stream network = (.ok stream', network') →
    Continues peer start (stream', network')
  /-- Bytes have been read. -/
  | read {stream stream' : Stream} {network : Network σ} {length : Nat} {bytes : Bytes} :
    Continues peer start (stream, network) → stream.read length = .ok (bytes, stream') →
    Continues peer start (stream', network)

namespace Peer.Continues

variable {peer : Peer σ} {start : Stream × Network σ}

/-- A connection that goes on from a moment of another is that other. -/
theorem trans {middle last : Stream × Network σ} (h : peer.Continues start middle)
    (h' : peer.Continues middle last) : peer.Continues start last := by
  induction h' with
  | refl => exact h
  | send _ hsend ih => exact ih.send hsend
  | read _ hread ih => exact ih.read hread

/-- To read a packet is to read bytes. -/
theorem readPacket {stream stream' : Stream} {network : Network σ} {payload : Bytes}
    (h : peer.Continues start (stream, network))
    (hread : stream.readPacket = .ok (payload, stream')) :
    peer.Continues start (stream', network) := by
  simp only [Stream.readPacket, except_bind_eq_ok_iff] at hread
  obtain ⟨⟨header, behind⟩, hheader, length, -, hpayload⟩ := hread
  exact (h.read hheader).read hpayload

/-- To read a message is to read packets, as many as it has. -/
theorem readMessage {fragments : Nat} {stream stream' : Stream} {network : Network σ}
    {message : Bytes} (h : peer.Continues start (stream, network))
    (hread : stream.readMessage fragments = .ok (message, stream')) :
    peer.Continues start (stream', network) := by
  induction fragments generalizing stream message with
  | zero => cases hread
  | succ fragments ih =>
    simp only [Stream.readMessage, except_bind_eq_ok_iff] at hread
    obtain ⟨⟨payload, behind⟩, hpacket, ⟨last, data⟩, -, hread⟩ := hread
    have hbehind := h.readPacket hpacket
    dsimp only at hread
    split at hread
    · cases hread
      exact hbehind
    · simp only [except_bind_eq_ok_iff] at hread
      obtain ⟨⟨rest, final⟩, hrest, hend⟩ := hread
      cases hend
      exact ih hbehind hrest

/-- A message and its answer pass over one connection. -/
theorem roundTrip {message response : Bytes} {stream stream' : Stream} {network network' : Network σ}
    (h : peer.roundTrip message stream network = (.ok (response, stream'), network')) :
    peer.Continues (stream, network) (stream', network') := by
  unfold Peer.roundTrip at h
  split at h
  · cases h
  · next packet _ =>
    rcases hsend : peer.send packet stream network with ⟨sending, behind⟩
    rw [hsend] at h
    obtain ⟨hread, rfl⟩ := Prod.mk.inj h
    simp only [except_bind_eq_ok_iff] at hread
    obtain ⟨arrived, rfl, hread⟩ := hread
    exact (Continues.refl.send hsend).readMessage hread

end Peer.Continues

/-! ## What the fields of a session say together

Three functions look at single fields, and their lemmas ask for no more than they look at:
`checkReady` for the state and the fault, `roundTrip` for the connection, `exchange` for the state.
-/

namespace Session

/-- A session is ready, and this is its connection. -/
structure ReadyOn (s : Session) (stream : Stream) : Prop where
  /-- It is ready. -/
  state : s.state = .ready
  /-- It has the connection. -/
  stream : s.stream? = some stream

/-- A session has been given up, for this fault. -/
structure GivenUp (s : Session) (fault : Fault) : Prop where
  /-- It is faulted. -/
  state : s.state = .faulted
  /-- It has the fault. -/
  fault : s.fault? = some fault
  /-- It has no connection. -/
  stream : s.stream? = none

/-- A session whose connection is given up is one that has been given up. -/
theorem givenUp_markFaulted (s : Session) (fault : Fault) : (s.markFaulted fault).GivenUp fault :=
  ⟨rfl, rfl, rfl⟩

/-- A ready session takes requests, -/
theorem checkReady_eq_ok {s : Session} (h : s.state = .ready) : s.checkReady = .ok () := by
  rw [checkReady, h]

/-- a faulted one answers them with its fault, -/
theorem checkReady_eq_replay {s : Session} {fault : Fault} (h : s.state = .faulted)
    (hfault : s.fault? = some fault) : s.checkReady = .error fault.replay := by
  rw [checkReady, h, hfault]

/-- and no other one than a ready one takes them. -/
theorem exists_checkReady_eq_error {s : Session} (h : s.state ≠ .ready) :
    ∃ e, s.checkReady = .error e := by
  unfold checkReady
  split
  · next hready => exact absurd hready h
  · exact ⟨_, rfl⟩
  · exact ⟨_, rfl⟩

end Session

namespace Station

variable {peer : Peer σ} {message : Bytes} {st : Station σ} {stream : Stream}

/-- Without a connection no message is sent. -/
theorem roundTrip_of_none (h : st.session.stream? = none) :
    roundTrip peer message st = .error .notConnected st := by
  rw [roundTrip, h]

/-- With one, it is sent over it. -/
theorem roundTrip_of_some (h : st.session.stream? = some stream) :
    roundTrip peer message st =
      match peer.roundTrip message stream st.network with
      | (.ok (response, stream), network) => .ok response { session := st.session.hold stream, network }
      | (.error e, network) => .error e { st with network } := by
  unfold roundTrip
  generalize st.session.stream? = stream? at h ⊢
  subst h
  rfl

/-- In a ready session, a message and its answer are exchanged over the connection, whatever that
is. -/
theorem exchange_of_ready (h : st.session.state = .ready) :
    exchange peer message st =
      match roundTrip peer message st with
      | .ok response st => .ok response st
      | .error e st => .error (.transport e) (st.markFaulted (.transport e)) := by
  have hcheck := Session.checkReady_eq_ok h
  unfold exchange
  generalize st.session.checkReady = check at hcheck ⊢
  subst hcheck
  rfl

/-- Another session refuses to. -/
theorem exchange_of_checkReady {e : Error} (h : st.session.checkReady = .error e) :
    exchange peer message st = .error e st := by
  rw [exchange, h]

end Station

/-! ## Requests that cannot be expressed -/

/-- A request to read that cannot be expressed leaves the session usable. -/
theorem harmless_encodeReadRequest (items : List RequestItem) (reference : UInt16) :
    Harmless (Pdu.encodeReadRequest reference items) :=
  (harmless_argument _).bind fun _ => (harmless_argument _).bind fun _ => .ok _

/-- So does a request to write. -/
theorem harmless_encodeWriteRequest (items : List RequestItem) (data : List DataItem)
    (reference : UInt16) : Harmless (Pdu.encodeWriteRequest reference items data) := by
  unfold Pdu.encodeWriteRequest
  split
  · exact .error rfl
  · exact (harmless_argument _).bind fun _ => (harmless_argument _).bind fun _ => .ok _

namespace Station

/-! ## Calls on a ready session

The invariant here is a relation between a session before a call and after it, and it composes: what
is still ready after what was still ready is still ready (`StillReady.trans`), and a fault may come
last only (`Settles.of_stillReady`).
-/

/-- The connection of a session goes on, if it has one. -/
inductive SameConnection (peer : Peer σ) (before after : Station σ) : Prop where
  /-- It has one. -/
  | some {stream stream' : Stream} :
    before.session.stream? = some stream → after.session.stream? = some stream' →
    peer.Continues (stream, before.network) (stream', after.network) →
    SameConnection peer before after
  /-- It has none, so that nothing is sent. -/
  | none :
    before.session.stream? = none → after.session.stream? = none →
    after.network = before.network →
    SameConnection peer before after

/-- A session is ready as it was: on its connection, without a new fault, and what was agreed on
stands. -/
structure StillReady (peer : Peer σ) (before after : Station σ) : Prop where
  /-- It was ready. -/
  wasReady : before.session.state = .ready
  /-- It is ready. -/
  state : after.session.state = .ready
  /-- Its connection is the one that it was. -/
  connection : SameConnection peer before after
  /-- There was no fault in between. -/
  fault : after.session.fault? = before.session.fault?
  /-- Messages are as long as they were. -/
  pduLength : after.session.pduLength = before.session.pduLength

/-- If nothing is done, the connection goes on. -/
theorem SameConnection.refl (peer : Peer σ) (st : Station σ) : SameConnection peer st st := by
  cases hstream : st.session.stream? with
  | some stream => exact .some hstream hstream .refl
  | none => exact .none hstream hstream rfl

/-- What goes on after what went on is one connection. -/
theorem SameConnection.trans {peer : Peer σ} {before middle after : Station σ}
    (h : SameConnection peer before middle) (h' : SameConnection peer middle after) :
    SameConnection peer before after := by
  cases h with
  | some hbefore hmiddle hcontinues =>
    cases h' with
    | some hmiddle' hafter hcontinues' =>
      obtain rfl := Option.some.inj (hmiddle.symm.trans hmiddle')
      exact .some hbefore hafter (hcontinues.trans hcontinues')
    | none hmiddle' =>
      rw [hmiddle] at hmiddle'
      cases hmiddle'
  | none hbefore hmiddle hnetwork =>
    cases h' with
    | some hmiddle' =>
      rw [hmiddle] at hmiddle'
      cases hmiddle'
    | none _ hafter hnetwork' => exact .none hbefore hafter (hnetwork'.trans hnetwork)

namespace StillReady

variable {peer : Peer σ} {before middle after : Station σ}

/-- If nothing was done, the session is still ready. -/
theorem refl (h : before.session.state = .ready) : StillReady peer before before :=
  ⟨h, h, .refl peer before, rfl, rfl⟩

/-- What is still ready after what was still ready is still ready. -/
theorem trans (h : StillReady peer before middle) (h' : StillReady peer middle after) :
    StillReady peer before after :=
  ⟨h.wasReady, h'.state, h.connection.trans h'.connection, h'.fault.trans h.fault,
    h'.pduLength.trans h.pduLength⟩

/-- If there was a connection, it is still there. -/
theorem continues {stream : Stream} (h : StillReady peer before after)
    (hstream : before.session.stream? = some stream) :
    ∃ stream', after.session.stream? = some stream' ∧
      peer.Continues (stream, before.network) (stream', after.network) := by
  cases h.connection with
  | some hbefore hafter hcontinues =>
    obtain rfl := Option.some.inj (hbefore.symm.trans hstream)
    exact ⟨_, hafter, hcontinues⟩
  | none hbefore =>
    rw [hbefore] at hstream
    cases hstream

/-- If there was a connection, the session is ready on one. -/
theorem exists_readyOn {stream : Stream} (h : StillReady peer before after)
    (hready : before.session.ReadyOn stream) : ∃ stream', after.session.ReadyOn stream' := by
  obtain ⟨stream', hstream', -⟩ := h.continues hready.stream
  exact ⟨stream', h.state, hstream'⟩

end StillReady

/-- How a call on a ready session may end: faulted by the error that it ends with, or ready still. -/
def Settles (peer : Peer σ) (before : Station σ) {α : Type} :
    EStateM.Result Error (Station σ) α → Prop
  | .ok _ after => StillReady peer before after
  | .error e after =>
    match e.fault? with
    | some fault => after.session.GivenUp fault
    | none => StillReady peer before after

/-- A call that ends so whenever the session is ready. -/
def Keeps (peer : Peer σ) (α : Type) (call : Call (Station σ) α) : Prop :=
  ∀ st, st.session.state = .ready → Settles peer st (call st)

/-- An error that leaves the session usable, met where it was ready still. -/
theorem settles_of_harmless {peer : Peer σ} {before after : Station σ} {α : Type} {e : Error}
    (he : e.isFatal = false) (h : StillReady peer before after) :
    Settles peer before (.error e after : EStateM.Result Error (Station σ) α) := by
  have hnone : e.fault? = none := by simpa [Error.isFatal] using he
  rw [Settles, hnone]
  exact h

/-- What settles after a call that left the session ready settles from before the call. -/
theorem Settles.of_stillReady {peer : Peer σ} {before middle : Station σ} {α : Type}
    {result : EStateM.Result Error (Station σ) α} (h : StillReady peer before middle)
    (h' : Settles peer middle result) : Settles peer before result := by
  cases result with
  | ok value after => exact h.trans h'
  | error e after =>
    unfold Settles at h' ⊢
    dsimp only at h' ⊢
    cases hfault : e.fault? with
    | some fault =>
      rw [hfault] at h'
      exact h'
    | none =>
      rw [hfault] at h'
      exact h.trans h'

/-- Whether a call keeps a ready session in order can be told from its parts. -/
theorem keeps_composes (peer : Peer σ) : Composes (Keeps peer) where
  pure _ _ hready := StillReady.refl hready
  refuse he _ hready := settles_of_harmless he (.refl hready)
  -- a fault of the first part is that of the sequence; otherwise the rest begins on a ready session
  bind {_ _ call next} hcall hnext st hready := by
    have hfirst := hcall st hready
    rcases bind_cases call next st with ⟨value, middle, hrun, hbind⟩ | ⟨e, middle, hrun, hbind⟩
    · rw [hrun] at hfirst
      have hmiddle : StillReady peer st middle := hfirst
      rw [hbind]
      exact .of_stillReady hmiddle (hnext value ⟨st, middle, hrun⟩ middle hmiddle.state)
    · rw [hrun] at hfirst
      rw [hbind]
      exact hfirst

section Keeps

variable (peer : Peer σ)

/-- A ready session takes requests. -/
theorem checkReady_of_ready {st : Station σ} (hready : st.session.state = .ready) :
    (channel peer).checkReady st = .ok () :=
  Session.checkReady_eq_ok hready

theorem ensureReady_of_ready {st : Station σ} (hready : st.session.state = .ready) :
    (channel peer).ensureReady st = .ok () st := by
  rw [Channel.ensureReady, checkReady_of_ready peer hready]
  rfl

/-- Asking whether a request can be sent. -/
theorem keeps_ensureReady : Keeps peer Unit (channel peer).ensureReady := by
  intro st hready
  rw [ensureReady_of_ready peer hready]
  exact .refl hready

/-- Asking for the length of messages. -/
theorem keeps_pduBudget : Keeps peer UInt16 (channel peer).pduBudget :=
  fun _ hready => StillReady.refl hready

/-- Taking a reference. -/
theorem keeps_allocate : Keeps peer UInt16 (channel peer).allocate := by
  intro st hready
  have hsame : SameConnection peer st { st with session := st.session.advance } := by
    -- numbering a request touches neither the connection nor the network
    cases hstream : st.session.stream? with
    | some stream => exact .some hstream hstream .refl
    | none => exact .none hstream hstream rfl
  exact ⟨hready, hready, hsame, rfl, rfl⟩

/-- Exchanging a message. Without a connection there is an error, and it is recorded as well. -/
theorem keeps_exchange (message : Bytes) : Keeps peer Bytes (exchange peer message) := by
  intro st hready
  rw [exchange_of_ready hready]
  -- without a connection the error is recorded as any other one of the transport
  cases hstream : st.session.stream? with
  | none =>
    rw [roundTrip_of_none hstream]
    exact Session.givenUp_markFaulted _ _
  | some stream =>
    rw [roundTrip_of_some hstream]
    rcases hround : peer.roundTrip message stream st.network with ⟨e | ⟨response, stream'⟩, network⟩
    · exact Session.givenUp_markFaulted _ _
    · exact ⟨hready, hready, .some hstream rfl (.roundTrip hround), rfl, rfl⟩

/-- Accepting what was made of an answer: a fault that it leaves behind is recorded. -/
theorem keeps_accept {α : Type} (result : Except Error α) :
    Keeps peer α ((channel peer).accept result) := by
  intro st hready
  cases result with
  | ok value => exact StillReady.refl hready
  | error e =>
    cases hfault : e.fault? with
    | some fault =>
      simp only [Channel.accept, Settles, hfault]
      exact Session.givenUp_markFaulted _ _
    | none =>
      simp only [Channel.accept, Settles, hfault]
      exact .refl hready

/-- A request, if it can be expressed, and what is made of its answer. -/
theorem keeps_ask {α : Type} {request : UInt16 → Except Error Bytes}
    (harmless : ∀ reference, Harmless (request reference))
    (answer : UInt16 → Bytes → Except Error α) :
    Keeps peer α ((channel peer).ask request answer) := by
  have h := keeps_composes peer
  refine h.bind (keeps_allocate peer) fun reference _ => ?_
  refine h.ofExcept_bind (harmless reference) fun message _ => ?_
  refine h.bind (keeps_exchange peer message) fun response _ => ?_
  exact keeps_accept peer (answer reference response)

/-- What the operations of a client do to a ready session. -/
theorem keeps_law (options : Options) : Client.Law (Client.ofPeer peer options) (Keeps peer) :=
  .of_ask (keeps_composes peer) (keeps_ensureReady peer) (keeps_pduBudget peer)
    (fun run => keeps_ask peer (harmless_encodeReadRequest run)
      fun reference response => Batch.checkReadResponse response reference run)
    (fun run => keeps_ask peer (harmless_encodeWriteRequest _ _)
      fun reference response => Batch.checkWriteResponse response reference run.length)
    (fun job => keeps_ask peer (fun reference => harmless_argument (job.encode reference))
      fun reference response => Pdu.Control.validateAck response reference)

end Keeps

/-! ## Calls on a session that is not ready

Such a call must not come as far as the other end, and most do not because they ask first
(`ensureReady`). The exceptions are an exchange, which asks by itself, and lists without items, which
are answered at once.
-/

/-- A call that changes nothing unless the session is ready, and of whose errors none is fatal but
that with which the session refuses requests. -/
def Rests (α : Type) (call : Call (Station σ) α) : Prop :=
  ∀ st, st.session.state ≠ .ready →
    match call st with
    | .ok _ after => after = st
    | .error e after => after = st ∧ (e.isFatal = true → st.session.checkReady = .error e)

/-- Whether a call leaves a session at rest can be told from its parts. -/
theorem rests_composes : Composes (Rests (σ := σ)) where
  pure _ _ _ := rfl
  refuse he _ _ := ⟨rfl, fun hfatal => absurd hfatal (by simp [he])⟩
  bind {_ _ call next} hcall hnext st hstate := by
    have hfirst := hcall st hstate
    rcases bind_cases call next st with ⟨value, middle, hrun, hbind⟩ | ⟨e, middle, hrun, hbind⟩
    · rw [hrun] at hfirst
      obtain rfl : middle = st := hfirst
      rw [hbind]
      exact hnext value ⟨middle, middle, hrun⟩ middle hstate
    · rw [hrun] at hfirst
      rw [hbind]
      exact hfirst

/-- A session at rest is after a call what it was before. -/
theorem Rests.outcome {α : Type} {call : Call (Station σ) α} (h : Rests α call) {st : Station σ}
    (hstate : st.session.state ≠ .ready) : (call.outcome st).2 = st := by
  have hrests := h st hstate
  cases hcall : call st with
  | ok value after =>
    rw [hcall] at hrests
    rw [outcome_of_ok hcall]
    exact hrests
  | error e after =>
    rw [hcall] at hrests
    rw [outcome_of_error hcall]
    exact hrests.1

section Rests

variable (peer : Peer σ)

/-- A session that is not ready refuses requests. -/
theorem ensureReady_of_not_ready {st : Station σ} (hstate : st.session.state ≠ .ready) :
    ∃ e, st.session.checkReady = .error e ∧ (channel peer).ensureReady st = .error e st := by
  obtain ⟨e, he⟩ := Session.exists_checkReady_eq_error hstate
  have hcheck : (channel peer).checkReady st = .error e := he
  refine ⟨e, he, ?_⟩
  rw [Channel.ensureReady, hcheck]
  rfl

/-- Whatever waits for the session to be ready changes nothing. -/
theorem rests_ensureReady_bind {α : Type} (next : Unit → Call (Station σ) α) :
    Rests α ((channel peer).ensureReady >>= next) := by
  intro st hstate
  obtain ⟨e, he, hrun⟩ := ensureReady_of_not_ready peer hstate
  rw [bind_of_error hrun]
  exact ⟨rfl, fun _ => he⟩

/-- What the operations of a client do to a session that is not ready: nothing. -/
theorem rests_law (options : Options) :
    Client.Law (Client.ofPeer peer options) (Rests (σ := σ)) where
  toComposes := rests_composes
  ensureReady := by
    have h := rests_ensureReady_bind peer pure
    rw [bind_pure] at h
    exact h
  pduBudget _ _ := rfl
  readEach items := by
    unfold Batch.readEach
    split
    · exact rests_composes.pure []
    · exact rests_ensureReady_bind peer _
  writeEach items data := by
    unfold Batch.writeEach
    refine rests_composes.guard (by rfl) ?_
    dsimp only
    split
    · exact rests_composes.pure []
    · exact rests_ensureReady_bind peer _
  control job := rests_ensureReady_bind peer _

end Rests

end Station

/-! ## Between two calls

The five clauses of `Settled` are about fields that nothing ties together. Each way in which a call
can end leaves them in one of three shapes: disconnected, ready on a connection, or given up.
-/

/-- What holds of a session between two calls. -/
structure Session.Settled (s : Session) : Prop where
  /-- It is not on its way to a connection. -/
  state : s.state = .disconnected ∨ s.state = .ready ∨ s.state = .faulted
  /-- A connection is there exactly in a ready session. -/
  ready_iff : s.state = .ready ↔ s.stream?.isSome
  /-- A ready session has no fault, and the length of messages has been agreed on. -/
  of_ready : s.state = .ready → s.fault? = none ∧ s.pduLength ≠ 0
  /-- A fault is there exactly in a faulted session. -/
  faulted_iff : s.state = .faulted ↔ s.fault?.isSome
  /-- A faulted session has no connection. -/
  of_faulted : s.state = .faulted → s.stream? = none

namespace Session.Settled

variable {s : Session}

/-- A session without a connection or a fault. -/
theorem of_disconnected (hstate : s.state = .disconnected) (hstream : s.stream? = none)
    (hfault : s.fault? = none) : s.Settled := by
  constructor <;> simp [hstate, hstream, hfault]

/-- A session with a connection on which messages have some length, and without a fault. -/
theorem of_readyOn {stream : Stream} (h : s.ReadyOn stream) (hfault : s.fault? = none)
    (hlength : s.pduLength ≠ 0) : s.Settled := by
  constructor <;> simp [h.state, h.stream, hfault, hlength]

/-- A session with a fault. -/
theorem of_givenUp {fault : Fault} (h : s.GivenUp fault) : s.Settled := by
  constructor <;> simp [h.state, h.stream, h.fault]

/-- A ready session has a connection. -/
theorem exists_readyOn (h : s.Settled) (hready : s.state = .ready) : ∃ stream, s.ReadyOn stream := by
  obtain ⟨stream, hstream⟩ := Option.isSome_iff_exists.mp (h.ready_iff.mp hready)
  exact ⟨stream, hready, hstream⟩

end Session.Settled

/-- A setup that is accepted gives messages some length. -/
theorem Station.pduLength_of_acceptSetup {response : Bytes} {reference : UInt16} {setup : Pdu.Setup}
    (h : Station.acceptSetup response reference = .ok setup) : setup.pduLength ≠ 0 := by
  simp only [Station.acceptSetup, except_bind_eq_ok_iff, mapError_eq_ok_iff] at h
  obtain ⟨⟨header, found⟩, hdecode, _, -, _, -, h⟩ := h
  cases h
  simp only [Pdu.Setup.decodeResponse, except_bind_eq_ok_iff, guard_eq_ok_iff] at hdecode
  obtain ⟨-, ⟨header', body⟩, -, -, _, -, ⟨parameters, _⟩, -, setup, hparameters, hend⟩ := hdecode
  cases hend
  unfold Pdu.Setup.decodeParameters at hparameters
  split at hparameters
  · split at hparameters
    · cases hparameters
    · dsimp only at hparameters
      split at hparameters
      · cases hparameters
      · next hlength =>
        cases hparameters
        exact hlength
  · cases hparameters

/-! ## Steps and runs

Connecting and closing set all three fields, whatever they were; the other steps use the connection,
and for those the two laws of above are put to work.
-/

/-- Whether a step uses the connection there is, and neither makes nor ends one. -/
def Step.isUse : Step → Bool
  | .connect | .close => false
  | .exchange _ | .command _ => true

namespace Station

section Steps

variable (peer : Peer σ)

/-- How negotiating ends: ready, with a setup that was accepted, or with a fault of the transport or of
an answer that was not accepted. -/
theorem negotiate_cases (st : Station σ) :
    match negotiate peer st with
    | .ok () after => ∃ stream response reference setup,
      acceptSetup response reference = .ok setup ∧ after.session.ReadyOn stream ∧
        after.session.fault? = st.session.fault? ∧ after.session.pduLength = setup.pduLength
    | .error fault _ => (∃ cause, fault = .transport cause) ∨
      ∃ response reference, acceptSetup response reference = .error fault := by
  unfold negotiate
  dsimp only
  let here : Station σ := { st with session := st.session.advance }
  cases hstream : here.session.stream? with
  | none =>
    rw [roundTrip_of_none hstream]
    exact .inl ⟨_, rfl⟩
  | some stream =>
    rw [roundTrip_of_some hstream]
    rcases peer.roundTrip _ stream here.network with ⟨e | ⟨response, stream'⟩, network⟩
    · exact .inl ⟨e, rfl⟩
    · dsimp only
      cases hsetup : acceptSetup response (here.session.hold stream').reference with
      | error fault => exact .inr ⟨_, _, hsetup⟩
      | ok setup => exact ⟨stream', _, _, setup, hsetup, ⟨rfl, rfl⟩, rfl, rfl⟩

variable {peer} in
/-- Without a connection there is nothing to negotiate on. -/
theorem connect_of_unopened {st : Station σ} {cause : TransportError} {asked : Network σ}
    (h : openStream peer st.session.options st.network = (.error cause, asked)) :
    connect peer st = .error (.transport cause)
      { session := st.session.markFaulted (.transport cause), network := asked } := by
  have hopen : openStream peer (st.session.dropped .connecting).options st.network =
      (.error cause, asked) := h
  rw [connect, establish, hopen]
  rfl

/-- A session and the network in front of the negotiation: a connection has been opened. -/
def facing (session : Session) (stream : Stream) (network : Network σ) : Station σ :=
  { session := (session.dropped .connecting).opened stream, network }

variable {peer} in
/-- On a connection that has been opened the setup is negotiated. -/
theorem connect_of_opened {st : Station σ} {stream : Stream} {asked : Network σ}
    (h : openStream peer st.session.options st.network = (.ok stream, asked)) :
    connect peer st =
      match negotiate peer (facing st.session stream asked) with
      | .ok () after => .ok () after
      | .error fault after => .error fault.error (after.markFaulted fault) := by
  have hopen : openStream peer (st.session.dropped .connecting).options st.network =
      (.ok stream, asked) := h
  rw [connect, establish, hopen]
  rfl

/-- How connecting ends: ready, over a connection on which a setup was accepted; or given up, for a
fault of the transport or for an answer that was not accepted. -/
theorem connect_cases (st : Station σ) :
    match connect peer st with
    | .ok () after => ∃ stream response reference setup,
      acceptSetup response reference = .ok setup ∧ after.session.ReadyOn stream ∧
        after.session.fault? = none ∧ after.session.pduLength = setup.pduLength
    | .error e after => ∃ fault, e = fault.error ∧ after.session.GivenUp fault ∧
      ((∃ cause, fault = .transport cause) ∨
        ∃ response reference, acceptSetup response reference = .error fault) := by
  rcases hopen : openStream peer st.session.options st.network with ⟨cause | stream, network⟩
  · rw [connect_of_unopened hopen]
    exact ⟨_, rfl, Session.givenUp_markFaulted _ _, .inl ⟨cause, rfl⟩⟩
  · have hends := negotiate_cases peer (facing st.session stream network)
    rw [connect_of_opened hopen]
    cases hnegotiate : negotiate peer (facing st.session stream network) with
    | ok value after =>
      rw [hnegotiate] at hends
      exact hends
    | error fault after =>
      rw [hnegotiate] at hends
      exact ⟨fault, rfl, Session.givenUp_markFaulted _ _, hends⟩

/-- However connecting ends, the session is settled. Nothing is asked of it before: all three fields
are set anew, and that a setup with `pduLength = 0` is not accepted is what `acceptSetup` is for. -/
theorem settled_connect (st : Station σ) :
    ((connect peer).outcome st).2.session.Settled := by
  have hends := connect_cases peer st
  cases hconnect : connect peer st with
  | ok value after =>
    rw [hconnect] at hends
    obtain ⟨stream, response, reference, setup, hsetup, hready, hfault, hlength⟩ := hends
    rw [outcome_of_ok hconnect]
    exact .of_readyOn hready hfault (hlength ▸ pduLength_of_acceptSetup hsetup)
  | error e after =>
    rw [hconnect] at hends
    obtain ⟨fault, -, hgivenUp, -⟩ := hends
    rw [outcome_of_error hconnect]
    exact .of_givenUp hgivenUp

/-- What a use of the connection does to a ready session. -/
theorem keeps_perform {step : Step} (huse : step.isUse = true) :
    Keeps peer Answer (perform peer step) := by
  intro st hready
  cases step with
  | connect => cases huse
  | close => cases huse
  | exchange message =>
    have h := keeps_composes peer
    exact h.bind (keeps_exchange peer message) (fun response _ => h.pure _) st hready
  | command command => exact (keeps_law peer st.session.options).perform command st hready

/-- What a use of the connection does to a session that is not ready. -/
theorem rests_perform {step : Step} (huse : step.isUse = true) :
    Rests Answer (perform peer step) := by
  intro st hstate
  cases step with
  | connect => cases huse
  | close => cases huse
  | exchange message =>
    have h := rests_composes (σ := σ)
    refine h.bind (fun st hstate => ?_) (fun response _ => h.pure (Answer.bytes response)) st hstate
    obtain ⟨e, he⟩ := Session.exists_checkReady_eq_error hstate
    rw [exchange_of_checkReady he]
    exact ⟨rfl, fun _ => he⟩
  | command command => exact (rests_law peer st.session.options).perform command st hstate

/-- What is still ready is settled, if it was. -/
theorem StillReady.settled {before after : Station σ} (h : StillReady peer before after)
    (hsettled : before.session.Settled) : after.session.Settled := by
  obtain ⟨stream, hon⟩ := hsettled.exists_readyOn h.wasReady
  obtain ⟨hfault, hlength⟩ := hsettled.of_ready h.wasReady
  obtain ⟨stream', hstream', -⟩ := h.continues hon.stream
  exact .of_readyOn ⟨h.state, hstream'⟩ (h.fault.trans hfault) (h.pduLength ▸ hlength)

/-- What settles is settled, if it was. -/
theorem Settles.settled {α : Type} {call : Call (Station σ) α} {before : Station σ}
    (h : Settles peer before (call before)) (hsettled : before.session.Settled) :
    (call.outcome before).2.session.Settled := by
  cases hcall : call before with
  | ok value after =>
    rw [hcall] at h
    rw [outcome_of_ok hcall]
    exact StillReady.settled peer h hsettled
  | error e after =>
    rw [hcall] at h
    rw [outcome_of_error hcall]
    unfold Settles at h
    dsimp only at h
    split at h
    · exact .of_givenUp h
    · exact h.settled peer hsettled

/-- A settled session stays settled when its connection is used. -/
theorem settled_perform_of_isUse {step : Step} (huse : step.isUse = true) {st : Station σ}
    (h : st.session.Settled) : ((perform peer step).outcome st).2.session.Settled := by
  by_cases hready : st.session.state = .ready
  · exact (keeps_perform peer huse st hready).settled peer h
  · rw [(rests_perform peer huse).outcome hready]
    exact h

/-- A settled session stays settled in each step. -/
theorem settled_perform (step : Step) {st : Station σ} (h : st.session.Settled) :
    ((perform peer step).outcome st).2.session.Settled := by
  cases step with
  | connect =>
    have hconnect := settled_connect peer st
    rw [← outcome_bind_pure (connect peer) fun _ => Answer.nothing] at hconnect
    exact hconnect
  | close => exact .of_disconnected rfl rfl rfl
  | exchange message => exact settled_perform_of_isUse peer rfl h
  | command command => exact settled_perform_of_isUse peer rfl h

/-- **A settled session stays settled in a run**, by induction on the steps; a new session is settled.
-/
theorem settled_run {st : Station σ} (h : st.session.Settled) (steps : List Step) :
    (run peer steps st).2.session.Settled := by
  induction steps generalizing st with
  | nil => exact h
  | cons step steps ih => exact ih (settled_perform peer step h)

/-- How the outcome of a call on a ready session shows what has become of the session. -/
theorem Settles.faulted_iff {α : Type} {call : Call (Station σ) α} {before : Station σ}
    (h : Settles peer before (call before)) :
    let (outcome, after) := call.outcome before
    (after.session.state = .faulted ↔ ∃ e, outcome = .error e ∧ e.isFatal = true) ∧
      (∀ e, outcome = .error e → e.isFatal = true → after.session.fault? = e.fault?) ∧
      ((∀ e, outcome = .error e → e.isFatal = false) → StillReady peer before after) := by
  cases hcall : call before with
  | ok value after =>
    rw [hcall] at h
    rw [outcome_of_ok hcall]
    refine ⟨⟨fun hfaulted => ?_, ?_⟩, ?_, fun _ => h⟩
    · rw [StillReady.state h] at hfaulted
      cases hfaulted
    · rintro ⟨_, ⟨⟩, -⟩
    · rintro _ ⟨⟩
  | error e after =>
    rw [hcall] at h
    rw [outcome_of_error hcall]
    unfold Settles at h
    dsimp only at h
    split at h
    -- the error has a fault, and the session was given up for it
    · next fault hfault =>
      have hfatal : e.isFatal = true := by rw [Error.isFatal, hfault]; rfl
      refine ⟨⟨fun _ => ⟨e, rfl, hfatal⟩, fun _ => ?_⟩, ?_, fun hnone => ?_⟩
      · exact h.state
      · rintro _ ⟨⟩ -
        rw [h.fault, hfault]
      · rw [hnone e rfl] at hfatal
        cases hfatal
    -- the error has none, and the session is still ready
    · next hfault =>
      have hharmless : e.isFatal = false := by rw [Error.isFatal, hfault]; rfl
      refine ⟨⟨fun hfaulted => ?_, ?_⟩, ?_, fun _ => h⟩
      · rw [h.state] at hfaulted
        cases hfaulted
      · rintro ⟨_, ⟨⟩, hfatal⟩
        rw [hharmless] at hfatal
        cases hfatal
      · rintro _ ⟨⟩ hfatal
        rw [hharmless] at hfatal
        cases hfatal

end Steps

/-- The other end that has its replies ready, one for each packet, and hangs up behind the last. It
takes every connection. The examples of this library are about it, or about one with a memory. -/
def scripted : Peer (List Reply) where
  accept _ _ _ replies := (.taken, replies)
  receive _ replies :=
    match replies with
    | reply :: replies => (reply, replies)
    | [] => ({ bytes := [], ending := some .unexpectedEof }, [])

/-- The replies of a controller that takes a connection and agrees on a length of messages. -/
def greeting (pduLength : UInt16) : List Reply :=
  [{ bytes := [3, 0, 0, 11, 6, 0xD0, 0, 0, 0, 1, 0] },
    { bytes := [3, 0, 0, 27, 2, 0xF0, 0x80, 0x32, 3, 0, 0, 0, 1, 0, 8, 0, 0, 0, 0, 0xF0, 0, 0, 1, 0, 1]
        ++ wordBytes pduLength }]

/-- A session that has been connected to the other end with such replies, and others behind them. -/
def greeted (pduLength : UInt16) (replies : List Reply) : Station (List Reply) :=
  let fresh : Station (List Reply) :=
    { session := { options := .ofFamily "plc" .s71500 }
      network := { peer := greeting pduLength ++ replies, sent := [] } }
  (run scripted [.connect] fresh).2

/-- **A session in the course of all that can happen to it.** Take a new session, any other end, and any
list of steps: connecting, closing, exchanging messages and the operations of a client. Behind them the
session is settled (`Session.Settled`):

* its state is disconnected, ready or faulted;
* it is ready exactly if it has a connection, and then it has no fault and `pduLength ≠ 0`;
* it is faulted exactly if it has a fault, and then it has no connection.

The other end may do whatever a `Peer` can: refuse a connection or keep the client waiting for it, break
off or stall in the middle of a packet, send any bytes, close the connection or let it fail.

If the session is ready, any step that uses its connection leaves it faulted exactly if it ends with a
fatal error, and then that error is the fault. With any other outcome the session is ready as before,
on the same connection: on that nothing has happened but that packets got through and bytes were read. -/
theorem session_course (peer : Peer σ) (options : Options) (network : Network σ)
    (steps : List Step) :
    let here := (run peer steps { session := { options }, network }).2
    here.session.Settled ∧
      ∀ step : Step, step.isUse = true → here.session.state = .ready →
        let (outcome, after) := (perform peer step).outcome here
        (after.session.state = .faulted ↔ ∃ e, outcome = .error e ∧ e.isFatal = true) ∧
          (∀ e, outcome = .error e → e.isFatal = true → after.session.fault? = e.fault?) ∧
          ((∀ e, outcome = .error e → e.isFatal = false) →
            ∃ stream stream', here.session.ReadyOn stream ∧ after.session.ReadyOn stream' ∧
              peer.Continues (stream, here.network) (stream', after.network) ∧
              after.session.Settled) := by
  intro here
  have hfresh : ({ options } : Session).Settled := .of_disconnected rfl rfl rfl
  have hsettled : here.session.Settled := settled_run peer hfresh steps
  refine ⟨hsettled, fun step huse hready => ?_⟩
  obtain ⟨hfaulted, hfault, hstill⟩ := Settles.faulted_iff peer (keeps_perform peer huse here hready)
  refine ⟨hfaulted, hfault, fun hharmless => ?_⟩
  have hafter := hstill hharmless
  obtain ⟨stream, hon⟩ := hsettled.exists_readyOn hready
  obtain ⟨stream', hstream', hcontinues⟩ := hafter.continues hon.stream
  exact ⟨stream, stream', hon, ⟨hafter.state, hstream'⟩, hcontinues, hafter.settled peer hsettled⟩

/-- Connecting, and then an answer that is a disconnect request: the session was ready, and has become
faulted by just that. -/
theorem session_course_disconnected :
    let greeting : List Reply :=
      [{ bytes := [3, 0, 0, 11, 6, 0xD0, 0, 0, 0, 1, 0] },
        { bytes := [3, 0, 0, 27, 2, 0xF0, 0x80, 0x32, 3, 0, 0, 0, 1, 0, 8, 0, 0, 0, 0, 0xF0, 0, 0, 1,
            0, 1, 0, 240] },
        { bytes := [3, 0, 0, 7, 2, 0x80, 0x80] }]
    let fresh : Station (List Reply) :=
      { session := { options := .ofFamily "plc" .s71200 }, network := { peer := greeting, sent := [] } }
    let here := (run scripted [.connect] fresh).2
    here.session.state = .ready ∧
      ((perform scripted (.exchange [0x32])).outcome here).2.session.state = .faulted := by
  intro greeting fresh here
  have hready : here.session.state = .ready := by decide
  refine ⟨hready, ?_⟩
  have hcourse := (session_course scripted fresh.session.options fresh.network [.connect]).2
  refine (hcourse (.exchange [0x32]) rfl hready).1.mpr ⟨.transport (.packet .disconnected), ?_, rfl⟩
  rfl

end Station

end S7Comm
