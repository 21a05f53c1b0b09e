import S7Comm.Proofs.Handshake
import S7Comm.Proofs.Lifecycle

/-!
# What connecting forgets

A session that is connected again begins anew. Nothing of what it went through before is left but the
numbering of its requests: no bytes that have not been read, no fault, and nothing of what was agreed
on earlier, though if connecting fails the old agreement can still be looked at.

This is shown by comparing two sessions. The other end that each of them meets is a state of one
`Peer`, and the two states are only asked to be alike: whatever is done to them, in any order, they
react in the same way. As nothing is said about the type of the states, they can be those of two ends
that have nothing to do with each other.

* `Peer.Alike peer state state'`: `peer.reactions events state = peer.reactions events state'` for all
  rows of events. An event is an attempt to connect, with the address and the two spans of time, or a
  packet.
* `Peer.Follows`, `Station.Follows`: two networks go on alike, if the other ends are alike, the same
  packets were to be sent since, and the same bytes have got through; two stations, if moreover their
  sessions are equal.
* `Station.Uniform`: a call ends alike on stations that match, with the same value or error, on
  stations that have gone on alike. That is a law in the sense of `Client.Law`, so it holds of every
  operation (`Station.uniform_law`), and by induction of every run (`Station.run_alike`).
* `Station.connect_renewed`: before they are connected, two sessions need not match. Each is as good
  as a new one with its options and its numbering (`Station.renewed`), and new sessions with the same
  options and the same numbering match.

**Main result** (`Station.reconnected_alike`): so two sessions with the same options and the same
numbering are connected alike, and if it succeeds they are used alike from then on.
-/

namespace S7Comm

open Call

variable {σ : Type}

/-! ## Other ends that are alike

Nothing is asked of the states themselves. That a state is alike to another is kept by every event
(`Alike.react`), and all that a client does with the other end are events.
-/

namespace Peer

/-- What a client can do to the other end. -/
inductive Event where
  /-- It tries to connect to an address, and will wait so long for it and for what is exchanged. -/
  | attempt (address : String) (connectTimeout exchangeTimeout : Nat)
  /-- It sends a packet. -/
  | packet (packet : Bytes)

/-- What a client can observe of it. -/
inductive Reaction where
  /-- What became of an attempt to connect. -/
  | accepted (attempt : Attempt)
  /-- What was done about a packet. -/
  | replied (reply : Reply)

/-- The reaction of the other end, and its state afterwards. -/
def react (peer : Peer σ) (state : σ) : Event → Reaction × σ
  | .attempt address connectTimeout exchangeTimeout =>
    (.accepted (peer.accept address connectTimeout exchangeTimeout state).1,
      (peer.accept address connectTimeout exchangeTimeout state).2)
  | .packet packet => (.replied (peer.receive packet state).1, (peer.receive packet state).2)

/-- The reactions of the other end to one event after the other. -/
def reactions (peer : Peer σ) : List Event → σ → List Reaction
  | [], _ => []
  | event :: events, state =>
    (peer.react state event).1 :: peer.reactions events (peer.react state event).2

variable {peer : Peer σ}

/-- States of the other end that no client can tell apart from then on. -/
def Alike (peer : Peer σ) (state state' : σ) : Prop :=
  ∀ events, peer.reactions events state = peer.reactions events state'

/-- What is alike reacts in the same way, and is alike afterwards. -/
theorem Alike.react {state state' : σ} (h : peer.Alike state state') (event : Event) :
    (peer.react state event).1 = (peer.react state' event).1 ∧
      peer.Alike (peer.react state event).2 (peer.react state' event).2 :=
  ⟨List.head_eq_of_cons_eq (h [event]), fun events => List.tail_eq_of_cons_eq (h (event :: events))⟩

/-- Two networks go on alike: the other ends are alike, the same packets were to be sent since, and the
same bytes of them have got through. -/
structure Follows (peer : Peer σ) (start start' last last' : Network σ) : Prop where
  /-- The other ends are alike. -/
  alike : peer.Alike last.peer last'.peer
  /-- The same packets were to be sent. -/
  sent : ∃ packets, last.sent = start.sent ++ packets ∧ last'.sent = start'.sent ++ packets
  /-- The same bytes have got through. -/
  wire : ∃ bytes, last.wire = start.wire ++ bytes ∧ last'.wire = start'.wire ++ bytes

namespace Follows

variable {start start' middle middle' last last' : Network σ}

/-- Where nothing was to be sent. -/
theorem silent {state state' : σ} (h : peer.Alike state state') :
    peer.Follows start start' { start with peer := state } { start' with peer := state' } :=
  ⟨h, ⟨[], (List.append_nil _).symm, (List.append_nil _).symm⟩,
    [], (List.append_nil _).symm, (List.append_nil _).symm⟩

/-- Where nothing was done. -/
theorem refl (h : peer.Alike start.peer start'.peer) :
    peer.Follows start start' start start' :=
  silent h

/-- What goes on alike after what went on alike. -/
theorem trans (h : peer.Follows start start' middle middle')
    (h' : peer.Follows middle middle' last last') : peer.Follows start start' last last' := by
  obtain ⟨packets, hsent, hsent'⟩ := h.sent
  obtain ⟨packets', hlast, hlast'⟩ := h'.sent
  obtain ⟨bytes, hwire, hwire'⟩ := h.wire
  obtain ⟨bytes', hmore, hmore'⟩ := h'.wire
  refine ⟨h'.alike, ⟨packets ++ packets', ?_, ?_⟩, bytes ++ bytes', ?_, ?_⟩
  · rw [hlast, hsent, List.append_assoc]
  · rw [hlast', hsent', List.append_assoc]
  · rw [hmore, hwire, List.append_assoc]
  · rw [hmore', hwire', List.append_assoc]

end Follows

variable {network network' : Network σ}

/-- A packet gets as far, and the reply to it is the same. -/
theorem follows_send (packet : Bytes) (stream : Stream)
    (h : peer.Alike network.peer network'.peer) :
    (peer.send packet stream network).1 = (peer.send packet stream network').1 ∧
      peer.Follows network network' (peer.send packet stream network).2
        (peer.send packet stream network').2 := by
  obtain ⟨hreply, halike⟩ := h.react (.packet packet)
  have hreply : (peer.receive packet network.peer).1 = (peer.receive packet network'.peer).1 :=
    Reaction.replied.inj hreply
  unfold send
  dsimp only
  rw [hreply]
  exact ⟨rfl, halike, ⟨[packet], rfl, rfl⟩, _, rfl, rfl⟩

/-- A message is answered in the same way. -/
theorem follows_roundTrip (message : Bytes) (stream : Stream)
    (h : peer.Alike network.peer network'.peer) :
    (peer.roundTrip message stream network).1 = (peer.roundTrip message stream network').1 ∧
      peer.Follows network network' (peer.roundTrip message stream network).2
        (peer.roundTrip message stream network').2 := by
  unfold roundTrip
  split
  · exact ⟨rfl, .refl h⟩
  · next packet _ =>
    obtain ⟨hsending, hfollows⟩ := follows_send packet stream h
    exact ⟨congrArg (· >>= fun stream => stream.readMessage Iso.maxFragments) hsending, hfollows⟩

end Peer

namespace Station

variable {peer : Peer σ}

/-- A connection is opened in the same way. -/
theorem follows_openStream (options : Options) {network network' : Network σ}
    (h : peer.Alike network.peer network'.peer) :
    (openStream peer options network).1 = (openStream peer options network').1 ∧
      peer.Follows network network' (openStream peer options network).2
        (openStream peer options network').2 := by
  obtain ⟨haccepted, halike⟩ := h.react
    (.attempt options.socketAddress options.connectTimeout options.exchangeTimeout)
  rcases haccept : peer.accept options.socketAddress options.connectTimeout
    options.exchangeTimeout network.peer with ⟨attempt, state⟩
  rcases haccept' : peer.accept options.socketAddress options.connectTimeout
    options.exchangeTimeout network'.peer with ⟨attempt', state'⟩
  simp only [Peer.react, haccept, haccept', Peer.Reaction.accepted.injEq] at haccepted halike
  subst haccepted
  -- the attempt is the same for both; without a connection nothing is sent by either
  cases houtcome : attempt.outcome options.socketAddress with
  | error e =>
    rw [openStream_of_unaccepted haccept houtcome, openStream_of_unaccepted haccept' houtcome]
    exact ⟨rfl, .silent halike⟩
  | ok =>
    obtain rfl := Attempt.outcome_eq_ok_iff.mp houtcome
    have hfollows : peer.Follows network network' { network with peer := state }
        { network' with peer := state' } := .silent halike
    obtain ⟨hsending, hsent⟩ := Peer.follows_send (connectionPacket options) .fresh hfollows.alike
    rw [openStream_of_accept haccept, openStream_of_accept haccept']
    dsimp only
    rw [hsending]
    exact ⟨rfl, hfollows.trans hsent⟩

/-! ## Stations in step

`Uniform` begins with equal sessions and alike ends, and ends so; in between the same was sent. The
proofs about single calls need not follow two runs at once, as the sessions are one session
(`uniform_of_alike`).
-/

/-- Stations match: their sessions are equal, and their other ends are alike. -/
structure Matches (peer : Peer σ) (st st' : Station σ) : Prop where
  /-- The sessions are equal. -/
  session : st.session = st'.session
  /-- The other ends are alike. -/
  alike : peer.Alike st.network.peer st'.network.peer

/-- Two stations go on alike: they match, and the same has been sent since. -/
structure Follows (peer : Peer σ) (start start' last last' : Station σ) : Prop where
  /-- The sessions are equal. -/
  session : last.session = last'.session
  /-- The networks go on alike. -/
  network : peer.Follows start.network start'.network last.network last'.network

namespace Follows

variable {start start' middle middle' last last' : Station σ}

/-- Stations that match, where nothing has been done. -/
theorem refl (h : Matches peer start start') : Follows peer start start' start start' :=
  ⟨h.session, .refl h.alike⟩

/-- What goes on alike after what went on alike. -/
theorem trans (h : Follows peer start start' middle middle')
    (h' : Follows peer middle middle' last last') : Follows peer start start' last last' :=
  ⟨h'.session, h.network.trans h'.network⟩

/-- What has gone on alike is given up alike. -/
theorem markFaulted {fault : Fault} (h : Follows peer start start' last last') :
    Follows peer start start' (last.markFaulted fault) (last'.markFaulted fault) :=
  ⟨congrArg (Session.markFaulted fault) h.session, h.network⟩

/-- Stations that have gone on alike match. -/
theorem matches_last (h : Follows peer start start' last last') : Matches peer last last' :=
  ⟨h.session, h.network.alike⟩

end Follows

/-- Two calls end alike: with the same value or error, on stations that have gone on alike. -/
inductive EndsAlike (peer : Peer σ) (start start' : Station σ) {ε α : Type} :
    EStateM.Result ε (Station σ) α → EStateM.Result ε (Station σ) α → Prop where
  /-- With a value. -/
  | ok {value : α} {last last' : Station σ} :
    Follows peer start start' last last' →
    EndsAlike peer start start' (.ok value last) (.ok value last')
  /-- With an error. -/
  | error {e : ε} {last last' : Station σ} :
    Follows peer start start' last last' →
    EndsAlike peer start start' (.error e last) (.error e last')

/-- Calls that end alike after what went on alike. -/
theorem EndsAlike.of_follows {start start' middle middle' : Station σ} {ε α : Type}
    {result result' : EStateM.Result ε (Station σ) α}
    (h : EndsAlike peer middle middle' result result')
    (hmiddle : Follows peer start start' middle middle') :
    EndsAlike peer start start' result result' := by
  cases h with
  | ok hlast => exact .ok (hmiddle.trans hlast)
  | error hlast => exact .error (hmiddle.trans hlast)

/-- A call that ends alike on stations that match. -/
def Uniform (peer : Peer σ) (α : Type) (call : Call (Station σ) α) : Prop :=
  ∀ st st', Matches peer st st' → EndsAlike peer st st' (call st) (call st')

/-- Of stations that match it can be taken for granted that they have one session. -/
theorem uniform_of_alike {α : Type} {call : Call (Station σ) α}
    (h : ∀ session network network', peer.Alike network.peer network'.peer →
      EndsAlike peer { session, network } { session, network := network' } (call { session, network })
        (call { session, network := network' })) :
    Uniform peer α call := by
  rintro ⟨session, network⟩ ⟨session', network'⟩ ⟨rfl, halike⟩
  exact h session network network' halike

/-- What calls that end alike leave behind. -/
theorem Uniform.outcome {α : Type} {call : Call (Station σ) α} (h : Uniform peer α call)
    {st st' : Station σ} (hmatches : Matches peer st st') :
    (call.outcome st).1 = (call.outcome st').1 ∧
      Follows peer st st' (call.outcome st).2 (call.outcome st').2 := by
  have hends := h st st' hmatches
  unfold Call.outcome
  cases hcall : call st <;> cases hcall' : call st' <;> rw [hcall, hcall'] at hends <;>
    cases hends <;> exact ⟨rfl, ‹_›⟩

/-- Whether a call is uniform can be told from its parts. -/
theorem uniform_composes (peer : Peer σ) : Composes (Uniform peer) where
  pure _ _ _ h := .ok (.refl h)
  refuse _ _ _ h := .error (.refl h)
  bind {_ _ call next} hcall hnext st st' h := by
    have hfirst := hcall st st' h
    rcases bind_cases call next st with ⟨value, middle, hrun, hbind⟩ | ⟨e, middle, hrun, hbind⟩ <;>
      rcases bind_cases call next st' with
        ⟨value', middle', hrun', hbind'⟩ | ⟨e', middle', hrun', hbind'⟩ <;>
      rw [hrun, hrun'] at hfirst <;> rw [hbind, hbind'] <;> cases hfirst
    · next hmiddle =>
      have hrest := hnext value ⟨st, middle, hrun⟩ middle middle' hmiddle.matches_last
      exact hrest.of_follows hmiddle
    · next hmiddle => exact .error hmiddle

/-! ### Calls that use a connection -/

section Uniform

variable (peer : Peer σ)

/-- A computation without state. -/
theorem uniform_ofExcept {α : Type} (result : Except Error α) :
    Uniform peer α (Call.ofExcept result) := by
  intro st st' h
  cases result with
  | ok value => exact .ok (.refl h)
  | error e => exact .error (.refl h)

/-- Asking whether a request can be sent. -/
theorem uniform_ensureReady : Uniform peer Unit (channel peer).ensureReady := by
  refine uniform_of_alike fun session network network' h => ?_
  exact uniform_ofExcept peer session.checkReady _ _ ⟨rfl, h⟩

/-- Asking for the length of messages. -/
theorem uniform_pduBudget : Uniform peer UInt16 (channel peer).pduBudget :=
  uniform_of_alike fun _ _ _ h => .ok (.refl ⟨rfl, h⟩)

/-- Taking a reference. -/
theorem uniform_allocate : Uniform peer UInt16 (channel peer).allocate :=
  uniform_of_alike fun _ _ _ h => .ok ⟨rfl, .refl h⟩

/-- Exchanging a message. -/
theorem uniform_exchange (message : Bytes) : Uniform peer Bytes (exchange peer message) := by
  refine uniform_of_alike fun session network network' h => ?_
  let st : Station σ := { session, network }
  let st' : Station σ := { session, network := network' }
  -- the session is one, and so is what its checks say; only the networks are two
  cases hcheck : session.checkReady with
  | error e =>
    have hrun : exchange peer message st = .error e st := exchange_of_checkReady hcheck
    have hrun' : exchange peer message st' = .error e st' := exchange_of_checkReady hcheck
    rw [hrun, hrun']
    exact .error (.refl ⟨rfl, h⟩)
  | ok =>
    have hready : st.session.state = .ready := by
      by_contra hstate
      obtain ⟨e, he⟩ := Session.exists_checkReady_eq_error hstate
      cases he.symm.trans hcheck
    have hready' : st'.session.state = .ready := hready
    rw [exchange_of_ready hready, exchange_of_ready hready']
    cases hstream : st.session.stream? with
    | none =>
      have hstream' : st'.session.stream? = none := hstream
      rw [roundTrip_of_none hstream, roundTrip_of_none hstream']
      exact .error ⟨rfl, .refl h⟩
    | some stream =>
      have hstream' : st'.session.stream? = some stream := hstream
      obtain ⟨hanswer, hfollows⟩ := Peer.follows_roundTrip message stream h
      rcases hround : peer.roundTrip message stream network with ⟨answer, last⟩
      rcases hround' : peer.roundTrip message stream network' with ⟨answer', last'⟩
      simp only [hround, hround'] at hanswer hfollows
      subst hanswer
      rw [roundTrip_of_some hstream, roundTrip_of_some hstream']
      dsimp only [st, st']
      rw [hround, hround']
      cases answer with
      | ok read => exact .ok ⟨rfl, hfollows⟩
      | error e => exact .error ⟨rfl, hfollows⟩

/-- Accepting what was made of an answer. -/
theorem uniform_accept {α : Type} (result : Except Error α) :
    Uniform peer α ((channel peer).accept result) := by
  refine uniform_of_alike fun session network network' h => ?_
  unfold Channel.accept
  cases result with
  | ok value => exact .ok (.refl ⟨rfl, h⟩)
  | error e =>
    dsimp only
    cases e.fault? with
    | some fault => exact .error ⟨rfl, .refl h⟩
    | none => exact .error (.refl ⟨rfl, h⟩)

/-- A request, and what is made of its answer. -/
theorem uniform_ask {α : Type} (request : UInt16 → Except Error Bytes)
    (answer : UInt16 → Bytes → Except Error α) :
    Uniform peer α ((channel peer).ask request answer) := by
  have h := uniform_composes peer
  refine h.bind (uniform_allocate peer) fun reference _ => ?_
  refine h.bind (uniform_ofExcept peer (request reference)) fun message _ => ?_
  refine h.bind (uniform_exchange peer message) fun response _ => ?_
  exact uniform_accept peer (answer reference response)

/-- The operations of a client are uniform. -/
theorem uniform_law (options : Options) :
    Client.Law (Client.ofPeer peer options) (Uniform peer) :=
  .of_ask (uniform_composes peer) (uniform_ensureReady peer) (uniform_pduBudget peer)
    (fun _ => uniform_ask peer _ _) (fun _ => uniform_ask peer _ _) fun _ => uniform_ask peer _ _

/-! ### Calls that make or end a connection -/

/-- Negotiating on a connection. -/
theorem endsAlike_negotiate (stream : Stream) (session : Session) {network network' : Network σ}
    (h : peer.Alike network.peer network'.peer) :
    EndsAlike peer (facing session stream network) (facing session stream network')
      (negotiate peer (facing session stream network))
      (negotiate peer (facing session stream network')) := by
  let packet := setupPacket session.options (Session.following session.reference)
  obtain ⟨hsending, hfollows⟩ := Peer.follows_send packet stream h
  rw [negotiate_eq, negotiate_eq]
  dsimp only [Peer.reply, Peer.behind]
  rw [hsending]
  cases (peer.send packet stream network').1 >>= fun stream =>
    stream.readMessage Iso.maxFragments with
  | error e => exact .error ⟨rfl, hfollows⟩
  | ok read =>
    dsimp only
    cases acceptSetup read.1 (Session.following session.reference) with
    | error fault => exact .error ⟨rfl, hfollows⟩
    | ok setup => exact .ok ⟨rfl, hfollows⟩

/-- Connecting. -/
theorem uniform_connect : Uniform peer Unit (connect peer) := by
  refine uniform_of_alike fun session network network' h => ?_
  let st : Station σ := { session, network }
  let st' : Station σ := { session, network := network' }
  obtain ⟨hopened, hfollows⟩ :
      (openStream peer st.session.options st.network).1 =
          (openStream peer st'.session.options st'.network).1 ∧
        peer.Follows st.network st'.network (openStream peer st.session.options st.network).2
          (openStream peer st'.session.options st'.network).2 :=
    follows_openStream session.options h
  rcases hopen : openStream peer st.session.options st.network with ⟨result, asked⟩
  rcases hopen' : openStream peer st'.session.options st'.network with ⟨result', asked'⟩
  rw [hopen, hopen'] at hopened hfollows
  dsimp only at hopened hfollows
  subst hopened
  cases result with
  | error cause =>
    rw [connect_of_unopened hopen, connect_of_unopened hopen']
    exact .error ⟨rfl, hfollows⟩
  | ok opened =>
    -- the sessions are one before the negotiation, too, whatever they were before connecting
    have hfacing : Follows peer st st' (facing session opened asked)
        (facing session opened asked') := ⟨rfl, hfollows⟩
    have hends := (endsAlike_negotiate peer opened session hfollows.alike).of_follows hfacing
    rw [connect_of_opened hopen, connect_of_opened hopen']
    dsimp only [st, st']
    generalize negotiate peer (facing session opened asked) = result at hends ⊢
    generalize negotiate peer (facing session opened asked') = result' at hends ⊢
    cases hends with
    | ok hlast => exact .ok hlast
    | error hlast => exact .error hlast.markFaulted

/-- Closing. -/
theorem uniform_close : Uniform peer Unit (close peer) := by
  refine uniform_of_alike fun session network network' h => ?_
  unfold close
  cases session.stream? with
  | none => exact .ok ⟨rfl, .refl h⟩
  | some stream => exact .ok ⟨rfl, (Peer.follows_send Iso.disconnectRequest stream h).2⟩

/-- Every step is uniform. -/
theorem uniform_perform (step : Step) : Uniform peer Answer (perform peer step) := by
  have h := uniform_composes peer
  intro st st' hmatches
  cases step with
  | connect => exact h.bind (uniform_connect peer) (fun _ _ => h.pure Answer.nothing) st st' hmatches
  | close => exact h.bind (uniform_close peer) (fun _ _ => h.pure Answer.nothing) st st' hmatches
  | exchange message =>
    exact h.bind (uniform_exchange peer message) (fun _ _ => h.pure _) st st' hmatches
  | command command =>
    have hperform : perform peer (.command command) st' =
        (Client.ofPeer peer st.session.options).perform command st' := by
      rw [hmatches.session]
      rfl
    rw [hperform]
    exact (uniform_law peer st.session.options).perform command st st' hmatches

end Uniform

/-- Runs on stations that match have the same outcomes, and the stations go on alike. -/
theorem run_alike {st st' : Station σ} (h : Matches peer st st') (steps : List Step) :
    (run peer steps st).1 = (run peer steps st').1 ∧
      Follows peer st st' (run peer steps st).2 (run peer steps st').2 := by
  induction steps generalizing st st' with
  | nil => exact ⟨rfl, .refl h⟩
  | cons step steps ih =>
    obtain ⟨houtcome, hstep⟩ := (uniform_perform peer step).outcome h
    obtain ⟨houtcomes, hsteps⟩ := ih hstep.matches_last
    refine ⟨?_, hstep.trans hsteps⟩
    simp only [run]
    rw [houtcome, houtcomes]

/-! ## Connecting again

Of the fields that a session had before, only the options and the reference are read while it is
connected. The agreement is left as it was until there is another one, and so it is found again if
connecting fails.
-/

/-- A station that is new but for the numbering of its requests. -/
def renewed (st : Station σ) : Station σ :=
  { st with session := { options := st.session.options, reference := st.session.reference } }

/-- To be connected, a session is as good as new; only if it fails, what was agreed on earlier can
still be looked at. -/
theorem connect_renewed (peer : Peer σ) (st : Station σ) :
    connect peer st =
      match connect peer st.renewed with
      | .ok () after => .ok () after
      | .error e after => .error e
        { after with session := { after.session with
            pduLength := st.session.pduLength, parallelJobs := st.session.parallelJobs } } := by
  rcases hopen : openStream peer st.session.options st.network with ⟨cause | opened, asked⟩
  · have hopen' : openStream peer st.renewed.session.options st.renewed.network = _ := hopen
    rw [connect_of_unopened hopen, connect_of_unopened hopen']
    rfl
  · have hopen' : openStream peer st.renewed.session.options st.renewed.network = _ := hopen
    have hnegotiate := negotiate_eq peer st.session opened asked
    have hnegotiate' := negotiate_eq peer st.renewed.session opened asked
    rw [connect_of_opened hopen, connect_of_opened hopen', hnegotiate, hnegotiate']
    dsimp only [renewed]
    cases peer.reply (setupPacket st.session.options (Session.following st.session.reference))
      (opened, asked) with
    | error e => rfl
    | ok read =>
      dsimp only
      cases acceptSetup read.1 (Session.following st.session.reference) <;> rfl

/-- **To connect is to begin anew.** Take two sessions with the same options and the same numbering of
requests, whatever else they have been through: any state, fault, connection with bytes unread, any
length agreed on earlier. Take other ends that no client can tell apart from now on (`Peer.Alike`).
When both sessions are connected, it ends with the same outcome, be it a refused connection, one that
is not made in time, a packet that does not get through, or an answer that is not accepted. The same
packets were to be sent, the same bytes have got through (`Peer.Follows`), and the sessions have the
same state, the same fault and the same connection. If it succeeds, all that follows is the same: in
every run of steps the outcomes are the same, so is what is sent, and behind it `last.session =
last'.session`, so that the sessions agree in their state and in what was agreed on. -/
theorem reconnected_alike (peer : Peer σ) {st st' : Station σ}
    (hoptions : st.session.options = st'.session.options)
    (hreference : st.session.reference = st'.session.reference)
    (halike : peer.Alike st.network.peer st'.network.peer) :
    let (outcome, after) := (connect peer).outcome st
    let (outcome', after') := (connect peer).outcome st'
    outcome = outcome' ∧ after.session.state = after'.session.state ∧
      after.session.fault? = after'.session.fault? ∧
      after.session.stream? = after'.session.stream? ∧
      peer.Follows st.network st'.network after.network after'.network ∧
      (outcome = .ok () → after.session = after'.session ∧ ∀ steps,
        let (outcomes, last) := run peer steps after
        let (outcomes', last') := run peer steps after'
        outcomes = outcomes' ∧ last.session = last'.session ∧
          peer.Follows after.network after'.network last.network last'.network) := by
  -- renewed, the two stations match, so that they are connected alike
  have hmatches : Matches peer st.renewed st'.renewed := by
    refine ⟨?_, halike⟩
    rw [renewed, renewed, hoptions, hreference]
  have hconnect := uniform_connect peer _ _ hmatches
  have hrenewed := connect_renewed peer st
  have hrenewed' := connect_renewed peer st'
  generalize connect peer st.renewed = ends at hconnect hrenewed
  generalize connect peer st'.renewed = ends' at hconnect hrenewed'
  cases hconnect with
  | ok hfollows =>
    rw [outcome_of_ok hrenewed, outcome_of_ok hrenewed']
    have hsession := hfollows.session
    refine ⟨rfl, congrArg Session.state hsession, congrArg Session.fault? hsession,
      congrArg Session.stream? hsession, hfollows.network, fun _ => ⟨hsession, fun steps => ?_⟩⟩
    obtain ⟨houtcomes, hlast⟩ := run_alike hfollows.matches_last steps
    exact ⟨houtcomes, hlast.session, hlast.network⟩
  -- the old agreements are put back, and nothing else of the sessions
  | @error e last last' hfollows =>
    have hstate : last.session.state = last'.session.state := congrArg _ hfollows.session
    have hfault : last.session.fault? = last'.session.fault? := congrArg _ hfollows.session
    have hstream : last.session.stream? = last'.session.stream? := congrArg _ hfollows.session
    rw [outcome_of_error hrenewed, outcome_of_error hrenewed']
    exact ⟨rfl, hstate, hfault, hstream, hfollows.network, nofun⟩

/-- A session that has been given up, and one that is ready, with bytes of an old answer unread; both
have come to the end of their numbering. Connected again to the same other end, they are equal, and
what they read is the same. -/
theorem reconnected_alike_unread :
    let reply : Reply :=
      { bytes := [3, 0, 0, 26, 2, 0xF0, 0x80, 0x32, 3, 0, 0, 0, 2, 0, 2, 0, 5, 0, 0, 4, 1, 0xFF, 4, 0,
          8, 7] }
    let given : Session :=
      { options := .ofFamily "plc" .s71500, state := .faulted, fault? := some (.transport .timeout)
        reference := 65535 }
    let unread : Session :=
      { options := .ofFamily "plc" .s71500, state := .ready
        stream? := some { unread := [3, 0, 0, 7, 2, 0xF0, 0x80] }
        pduLength := 480, parallelJobs := 8, reference := 65535 }
    let st : Station (List Reply) := ⟨given, { peer := greeting 240 ++ [reply], sent := [] }⟩
    let st' : Station (List Reply) := ⟨unread, { peer := greeting 240 ++ [reply], sent := [[0]] }⟩
    let after := ((connect scripted).outcome st).2
    let after' := ((connect scripted).outcome st').2
    let reading : List Step := [.command (.readByte "DB1.DBB0")]
    given.options = unread.options ∧ given.reference = unread.reference ∧
      scripted.Alike st.network.peer st'.network.peer ∧
      (run scripted reading after').1.map Except.isOk = [true] ∧
      (run scripted reading after).1 = (run scripted reading after').1 ∧
      (run scripted reading after).2.session = (run scripted reading after').2.session := by
  intro reply given unread st st' after after' reading
  have hconnected : ((connect scripted).outcome st).1 = .ok () := by decide +kernel
  obtain ⟨-, -, -, -, -, hruns⟩ := @reconnected_alike _ scripted st st' rfl rfl fun _ => rfl
  obtain ⟨houtcomes, hsession, -⟩ := (hruns hconnected).2 reading
  exact ⟨rfl, rfl, fun _ => rfl, by decide +kernel, houtcomes, hsession⟩

end Station

end S7Comm
