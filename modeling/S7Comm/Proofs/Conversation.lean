import S7Comm.Proofs.Lifecycle

/-!
# What passes on a connection

What a client has sent is kept with the network; what it has received is not kept anywhere. But the
other end acts on nothing but what it is sent, so that the answers can be told from the packets: send
them once more, one after the other, from the moment at which the connection was, and read behind
each. This gives a record of what passed, on which statements about answers can rest.

* `Peer.reply peer packet here`: what is read behind a packet, a message or the error that was met in
  sending it or in reading. `Peer.behind peer packet here` is the network then; its `sent` is one
  packet longer, whether or not the packet got through (`Peer.sent_behind`).
* `Peer.replies`, `Station.exchanged peer before after`: the packets that were sent between two
  moments of a session, each with its reply.
* `Peer.Converses start exchanges last`: a row of packets, all of them answered. Behind it the record
  is just this row (`Station.exchanged_eq`), and with one packet more its reply is the last on record
  (`Station.exchanged_eq_append`).

**A request and what is made of its answer** is the one way in which reading, writing and control use
a connection. It runs in one of six ways (`Station.Passes`, by `Station.passes_ask`), and nothing else
has to be known of it: what the errors of all calls have in common is looked up in these ways
(`Station.Ends`).

**A call as a conversation** (`Station.Converses`): the answers that a call goes on from are `fine`,
by whatever standard; if it ends with an error, the last packet it sent and the reply to it account
for the error, unless the error has nothing to do with the other end. This passes from the parts of a
call to the call, so that a standard that is met by each request is met by every operation
(`Station.exchanged_of_converses` says what it means for the record).

The record is of one connection: it ends where a session is connected anew.
-/

namespace S7Comm

open Call

variable {σ : Type}

namespace Iso

/-! ## Packets -/

/-- The message in a packet of a client: what follows the header of the packet and that of its only
data unit. -/
def carried (packet : Bytes) : Bytes :=
  packet.drop (Packet.headerLength + dataHeaderLength)

/-- A packet carries the message that was put into it. -/
theorem carried_of_wrapData {message packet : Bytes} (h : wrapData message = .ok packet) :
    carried packet = message := by
  unfold wrapData Packet.encode at h
  dsimp only at h
  split at h
  · cases h
  · cases h
    rfl

end Iso

namespace Peer

/-! ## Packets and replies -/

/-- What is read behind a packet that is sent on a connection: the message with which the other end
answers it, and the connection behind that, or the error that is met in sending it or in reading. A
packet that does not get through as a whole is not read behind. -/
def reply (peer : Peer σ) (packet : Bytes) (here : Stream × Network σ) :
    Except TransportError (Bytes × Stream) :=
  (peer.send packet here.1 here.2).1 >>= fun stream => stream.readMessage Iso.maxFragments

/-- The network behind a packet that is sent on a connection. -/
def behind (peer : Peer σ) (packet : Bytes) (here : Stream × Network σ) : Network σ :=
  (peer.send packet here.1 here.2).2

/-- What comes of packets that are sent on a connection one after the other: with each packet, the
message that is read behind it. Behind a packet that is not answered nothing is sent. -/
def replies (peer : Peer σ) :
    List Bytes → Stream × Network σ → List (Bytes × Except TransportError Bytes)
  | [], _ => []
  | packet :: packets, here =>
    match peer.reply packet here with
    | .ok (response, stream) =>
      (packet, .ok response) :: peer.replies packets (stream, peer.behind packet here)
    | .error e => [(packet, .error e)]

/-- Packets are sent on a connection, and a message is read behind each. -/
inductive Converses (peer : Peer σ) :
    Stream × Network σ → List (Bytes × Bytes) → Stream × Network σ → Prop where
  /-- Nothing is sent. -/
  | nil {here : Stream × Network σ} : Converses peer here [] here
  /-- A packet is sent and answered, and then others are. -/
  | cons {here last : Stream × Network σ} {packet response : Bytes} {stream : Stream}
      {exchanges : List (Bytes × Bytes)} :
    peer.reply packet here = .ok (response, stream) →
    Converses peer (stream, peer.behind packet here) exchanges last →
    Converses peer here ((packet, response) :: exchanges) last

/-- A packet that is sent has been sent, `(peer.behind packet here).sent = here.2.sent ++ [packet]`,
whatever has become of it. So from what was sent between two moments one can tell how often something
was sent, and by `Peer.replies` what came of it. -/
theorem sent_behind (peer : Peer σ) (packet : Bytes) (here : Stream × Network σ) :
    (peer.behind packet here).sent = here.2.sent ++ [packet] := rfl

/-- Behind a packet that is answered the others follow, on the connection as it is behind the answer.
-/
theorem replies_of_ok {peer : Peer σ} {packet response : Bytes} {here : Stream × Network σ}
    {stream : Stream} (h : peer.reply packet here = .ok (response, stream))
    (packets : List Bytes) :
    peer.replies (packet :: packets) here =
      (packet, .ok response) :: peer.replies packets (stream, peer.behind packet here) := by
  rw [replies, h]

/-- Behind a packet that is not answered nothing follows. -/
theorem replies_of_error {peer : Peer σ} {packet : Bytes} {here : Stream × Network σ}
    {e : TransportError} (h : peer.reply packet here = .error e) (packets : List Bytes) :
    peer.replies (packet :: packets) here = [(packet, .error e)] := by
  rw [replies, h]

namespace Converses

variable {peer : Peer σ} {start middle last : Stream × Network σ}
  {exchanges later : List (Bytes × Bytes)}

/-- What is said after a conversation is part of it. -/
theorem append (h : peer.Converses start exchanges middle)
    (h' : peer.Converses middle later last) : peer.Converses start (exchanges ++ later) last := by
  induction h with
  | nil => exact h'
  | cons hreply _ ih => exact .cons hreply (ih h')

/-- What was sent in a conversation are its packets. -/
theorem sent (h : peer.Converses start exchanges last) :
    last.2.sent = start.2.sent ++ exchanges.map Prod.fst := by
  induction h with
  | nil => exact (List.append_nil _).symm
  | cons hreply _ ih =>
    rw [ih, sent_behind, List.append_assoc]
    rfl

/-- What comes of the packets of a conversation is its answers, and what comes of packets behind them
begins where the conversation ends. So the record of a call can be put together from those of its
parts. -/
theorem replies_append (h : peer.Converses start exchanges last) (packets : List Bytes) :
    peer.replies (exchanges.map Prod.fst ++ packets) start =
      exchanges.map (fun exchange => (exchange.1, .ok exchange.2)) ++ peer.replies packets last := by
  induction h with
  | nil => rfl
  | cons hreply _ ih =>
    rw [List.map_cons, List.cons_append, replies_of_ok hreply, ih]
    rfl

end Converses

end Peer

namespace Station

/-! ## The record of a session -/

/-- What passed on the connection of a session between two moments: the packets that were sent, each
with what was read behind it. -/
def exchanged (peer : Peer σ) (before after : Station σ) :
    List (Bytes × Except TransportError Bytes) :=
  match before.session.stream? with
  | some stream =>
    peer.replies (after.network.sent.drop before.network.sent.length) (stream, before.network)
  | none => []

variable {peer : Peer σ} {before after : Station σ} {stream stream' : Stream} {network : Network σ}
  {exchanges : List (Bytes × Bytes)}

/-- After a conversation the record is what was said, each packet with its answer, and nothing else
was sent. -/
theorem exchanged_eq (hready : before.session.ReadyOn stream)
    (h : peer.Converses (stream, before.network) exchanges (stream', network))
    (hafter : after.network = network) :
    exchanged peer before after = exchanges.map (fun exchange => (exchange.1, .ok exchange.2)) ∧
      after.network.sent =
        before.network.sent ++ (exchanged peer before after).map Prod.fst := by
  have hsent : after.network.sent = before.network.sent ++ exchanges.map Prod.fst := by
    rw [hafter]
    exact h.sent
  have hreplies := h.replies_append []
  rw [List.append_nil, Peer.replies, List.append_nil] at hreplies
  have hexchanged : exchanged peer before after =
      exchanges.map fun exchange => (exchange.1, .ok exchange.2) := by
    rw [exchanged, hready.stream]
    dsimp only
    rw [hsent, List.drop_left, hreplies]
  refine ⟨hexchanged, ?_⟩
  rw [hexchanged, List.map_map]
  exact hsent

/-- If one more packet was sent, its reply is the last that is on record: an answer, of which it is
not said that it was accepted, or the error of sending or reading. -/
theorem exchanged_eq_append {packet : Bytes} (hready : before.session.ReadyOn stream)
    (h : peer.Converses (stream, before.network) exchanges (stream', network))
    (hafter : after.network = peer.behind packet (stream', network)) :
    exchanged peer before after =
        exchanges.map (fun exchange => (exchange.1, .ok exchange.2)) ++
          [(packet, (peer.reply packet (stream', network)).map Prod.fst)] ∧
      after.network.sent =
        before.network.sent ++ (exchanged peer before after).map Prod.fst := by
  have hsent : after.network.sent =
      before.network.sent ++ (exchanges.map Prod.fst ++ [packet]) := by
    rw [hafter, Peer.sent_behind, ← List.append_assoc]
    exact congrArg (· ++ [packet]) h.sent
  have hlast : peer.replies [packet] (stream', network) =
      [(packet, (peer.reply packet (stream', network)).map Prod.fst)] := by
    cases hreply : peer.reply packet (stream', network) with
    | ok answer => exact Peer.replies_of_ok hreply []
    | error e => exact Peer.replies_of_error hreply []
  have hexchanged : exchanged peer before after =
      exchanges.map (fun exchange => (exchange.1, .ok exchange.2)) ++
        [(packet, (peer.reply packet (stream', network)).map Prod.fst)] := by
    rw [exchanged, hready.stream]
    dsimp only
    rw [hsent, List.drop_left, h.replies_append, hlast]
  refine ⟨hexchanged, ?_⟩
  rw [hexchanged, List.map_append, List.map_map]
  exact hsent

/-! ## A request and its answer -/

/-- A message for which there is no connection is not sent, and the session is faulted, although it
was ready: readiness is asked of the state, and the connection is missed in the exchange. -/
theorem exchange_of_unconnected (peer : Peer σ) (message : Bytes)
    (hready : before.session.state = .ready) (hstream : before.session.stream? = none) :
    exchange peer message before =
      .error (.transport .notConnected) (before.markFaulted (.transport .notConnected)) := by
  rw [exchange_of_ready hready, roundTrip_of_none hstream]

/-- A message that is too long for a packet is not sent, either, and the session is faulted with the
error of the packet layer. -/
theorem exchange_of_unsent (peer : Peer σ) {message : Bytes} {e : PacketError}
    (hready : before.session.ReadyOn stream) (hwrap : Iso.wrapData message = .error e) :
    exchange peer message before =
      .error (.transport (.packet e)) (before.markFaulted (.transport (.packet e))) := by
  rw [exchange_of_ready hready.state, roundTrip_of_some hready.stream, Peer.roundTrip, hwrap]

/-- The way of a message over a connection is that of its packet: if there is a packet for it, what
comes of it is `peer.reply packet`, and the network is `peer.behind packet`. -/
theorem roundTrip_of_wrapData {message packet : Bytes} (stream : Stream) (network : Network σ)
    (hwrap : Iso.wrapData message = .ok packet) :
    peer.roundTrip message stream network =
      (peer.reply packet (stream, network), peer.behind packet (stream, network)) := by
  rw [Peer.roundTrip, hwrap]
  rfl

/-- A message that is not answered has been sent, as far as it went, and the session is faulted with
the error that was met. -/
theorem exchange_of_unanswered {message packet : Bytes} {e : TransportError}
    (hready : before.session.ReadyOn stream) (hwrap : Iso.wrapData message = .ok packet)
    (hreply : peer.reply packet (stream, before.network) = .error e) :
    exchange peer message before = .error (.transport e)
      { session := before.session.markFaulted (.transport e)
        network := peer.behind packet (stream, before.network) } := by
  rw [exchange_of_ready hready.state, roundTrip_of_some hready.stream,
    roundTrip_of_wrapData stream before.network hwrap, hreply]
  rfl

/-- A message that is answered leaves the session as it is, but that its connection is the one behind
the answer. What the answer says is of no importance here. -/
theorem exchange_of_answered {message packet response : Bytes}
    (hready : before.session.ReadyOn stream) (hwrap : Iso.wrapData message = .ok packet)
    (hreply : peer.reply packet (stream, before.network) = .ok (response, stream')) :
    exchange peer message before = .ok response
      { session := before.session.hold stream'
        network := peer.behind packet (stream, before.network) } := by
  rw [exchange_of_ready hready.state, roundTrip_of_some hready.stream,
    roundTrip_of_wrapData stream before.network hwrap, hreply]

section Request

variable {α : Type} (request : UInt16 → Except Error Bytes)
  (answer : UInt16 → Bytes → Except Error α)

/-- The ways in which a request and what is made of its answer can pass, on a ready session. The
request has the reference that follows the session's last one. -/
inductive Passes (peer : Peer σ) (before : Station σ) :
    EStateM.Result Error (Station σ) α → Prop where
  /-- The request cannot be expressed. -/
  | unexpressed {e : Error} {after : Station σ} :
    request (Session.following before.session.reference) = .error e →
    after.network = before.network →
    Passes peer before (.error e after)
  /-- There is no connection for the request. -/
  | unconnected {message : Bytes} {after : Station σ} :
    request (Session.following before.session.reference) = .ok message →
    before.session.stream? = none →
    after.network = before.network →
    Passes peer before (.error (.transport .notConnected) after)
  /-- The request is too long for a packet. -/
  | unsent {message : Bytes} {e : PacketError} {after : Station σ} :
    request (Session.following before.session.reference) = .ok message →
    Iso.wrapData message = .error e →
    after.network = before.network →
    Passes peer before (.error (.transport (.packet e)) after)
  /-- The request does not get through, or is not answered. -/
  | unanswered {stream : Stream} {message packet : Bytes} {e : TransportError} {after : Station σ} :
    before.session.stream? = some stream →
    request (Session.following before.session.reference) = .ok message →
    Iso.wrapData message = .ok packet →
    peer.reply packet (stream, before.network) = .error e →
    after.network = peer.behind packet (stream, before.network) →
    Passes peer before (.error (.transport e) after)
  /-- The answer is of no use. -/
  | refused {stream stream' : Stream} {message packet response : Bytes} {e : Error}
      {after : Station σ} :
    before.session.stream? = some stream →
    request (Session.following before.session.reference) = .ok message →
    Iso.wrapData message = .ok packet →
    peer.reply packet (stream, before.network) = .ok (response, stream') →
    answer (Session.following before.session.reference) response = .error e →
    after.network = peer.behind packet (stream, before.network) →
    Passes peer before (.error e after)
  /-- The answer is accepted. -/
  | accepted {stream stream' : Stream} {message packet response : Bytes} {value : α}
      {after : Station σ} :
    before.session.stream? = some stream →
    request (Session.following before.session.reference) = .ok message →
    Iso.wrapData message = .ok packet →
    peer.reply packet (stream, before.network) = .ok (response, stream') →
    answer (Session.following before.session.reference) response = .ok value →
    after = { session := before.session.advance.hold stream'
              network := peer.behind packet (stream, before.network) } →
    Passes peer before (.ok value after)

/-- **A request and what is made of its answer** passes in one of the six ways, on a session that is
ready, whatever it asks for and whatever is made of the answer. Going through the steps, each of the
ways ends where something is missing for the next: the message, the connection, the packet, the reply,
the sense of the answer. -/
theorem passes_ask (peer : Peer σ) (hready : before.session.state = .ready) :
    Passes request answer peer before ((channel peer).ask request answer before) := by
  let here : Station σ := { before with session := before.session.advance }
  have hallocate : (channel peer).allocate before =
      .ok (Session.following before.session.reference) here := rfl
  rw [Channel.ask, bind_of_ok hallocate]
  -- each of the ways ends where something is missing for the next
  cases hrequest : request (Session.following before.session.reference) with
  | error e => exact .unexpressed hrequest rfl
  | ok message =>
    change Passes request answer peer before ((exchange peer message >>= _) here)
    cases hstream : before.session.stream? with
    | none =>
      have hhere : here.session.state = .ready := hready
      rw [bind_of_error (exchange_of_unconnected peer message hhere hstream)]
      exact .unconnected hrequest hstream rfl
    | some stream =>
      have hon : here.session.ReadyOn stream := ⟨hready, hstream⟩
      cases hwrap : Iso.wrapData message with
      | error e =>
        rw [bind_of_error (exchange_of_unsent peer hon hwrap)]
        exact .unsent hrequest hwrap rfl
      | ok packet =>
        cases hreply : peer.reply packet (stream, before.network) with
        | error e =>
          rw [bind_of_error (exchange_of_unanswered hon hwrap hreply)]
          exact .unanswered hstream hrequest hwrap hreply rfl
        | ok answered =>
          obtain ⟨response, stream'⟩ := answered
          rw [bind_of_ok (exchange_of_answered hon hwrap hreply)]
          cases hanswer : answer (Session.following before.session.reference) response with
          | ok value => exact .accepted hstream hrequest hwrap hreply hanswer rfl
          | error e =>
            -- a fatal error is recorded, and the network does not show that
            unfold Channel.accept
            dsimp only
            split <;> exact .refused hstream hrequest hwrap hreply hanswer rfl

end Request

/-! ## Errors of calls -/

section Ends

variable (Q : Station σ → Error → Station σ → Prop)

/-- A call that settles a ready session, and each of whose errors is of some kind, which may depend on
where the call began and on where it ended. -/
def Ends (peer : Peer σ) (α : Type) (call : Call (Station σ) α) : Prop :=
  ∀ st, st.session.state = .ready →
    Settles peer st (call st) ∧ ∀ e after, call st = .error e after → Q st e after

variable {Q}

/-- Whether the errors of a call are of a kind can be told from its parts, under two conditions on the
kind: it has room for errors that leave the session usable and do nothing (`hrefuse`), and it does not
change with what was done before (`hlater`). -/
theorem ends_composes (peer : Peer σ) (hrefuse : ∀ st e, e.isFatal = false → Q st e st)
    (hlater : ∀ {st middle e after}, StillReady peer st middle → Q middle e after → Q st e after) :
    Composes (Ends Q peer) where
  pure value st hready := ⟨(keeps_composes peer).pure value st hready, fun _ _ h => nomatch h⟩
  refuse {_ e} he st hready := by
    refine ⟨(keeps_composes peer).refuse he st hready, ?_⟩
    rintro _ _ ⟨⟩
    exact hrefuse st e he
  bind {_ _ call next} hcall hnext st hready := by
    refine ⟨(keeps_composes peer).bind (fun st hready => (hcall st hready).1)
      (fun value hvalue st hready => (hnext value hvalue st hready).1) st hready, ?_⟩
    rcases bind_cases call next st with ⟨value, middle, hrun, hbind⟩ | ⟨e, middle, hrun, hbind⟩
    · have hmiddle : StillReady peer st middle := by
        have hsettles := (hcall st hready).1
        rw [hrun] at hsettles
        exact hsettles
      rw [hbind]
      intro e after hend
      exact hlater hmiddle ((hnext value ⟨st, middle, hrun⟩ middle hmiddle.state).2 e after hend)
    · rw [hbind]
      rintro _ _ ⟨⟩
      exact (hcall st hready).2 e middle hrun

/-- Of a request, each of the ways has to be looked at in which it can pass with an error; there are
five, and for each it is known what was missing. That the request cannot fail to be expressed with an
error that is fatal is `harmless`. -/
theorem ends_ask (peer : Peer σ) {α : Type} {request : UInt16 → Except Error Bytes}
    {answer : UInt16 → Bytes → Except Error α} (harmless : ∀ reference, Harmless (request reference))
    (hpasses : ∀ st e after, st.session.state = .ready →
      Passes request answer peer st (.error e after) → Q st e after) :
    Ends Q peer α ((channel peer).ask request answer) := by
  intro st hready
  refine ⟨keeps_ask peer harmless answer st hready, fun e after hrun => ?_⟩
  refine hpasses st e after hready ?_
  rw [← hrun]
  exact passes_ask request answer peer hready

/-- Asking whether a request can be sent ends well. -/
theorem ends_ensureReady (peer : Peer σ) : Ends Q peer Unit (channel peer).ensureReady := by
  intro st hready
  refine ⟨keeps_ensureReady peer st hready, fun e after hrun => ?_⟩
  cases (ensureReady_of_ready peer hready).symm.trans hrun

/-- So does asking for the length of messages. -/
theorem ends_pduBudget (peer : Peer σ) : Ends Q peer UInt16 (channel peer).pduBudget :=
  fun st hready => ⟨keeps_pduBudget peer st hready, fun _ _ h => nomatch h⟩

end Ends

/-! ## Calls as conversations -/

section Law

variable (Fine : Bytes → Bytes → Prop) (Blames : Bytes → Except TransportError Bytes → Error → Prop)

/-- A call on a ready session is a conversation whose answers are fine. If it ends with an error,
one more packet may have been sent, and then the reply to it accounts for the error. -/
def Converses (peer : Peer σ) (α : Type) (call : Call (Station σ) α) : Prop :=
  ∀ before stream, before.session.ReadyOn stream →
    ∃ exchanges stream' network,
      peer.Converses (stream, before.network) exchanges (stream', network) ∧
      (∀ exchange ∈ exchanges, Fine exchange.1 exchange.2) ∧
      match call before with
      | .ok _ after => after.session.ReadyOn stream' ∧ after.network = network
      | .error e after => after.network = network ∨
        ∃ packet, Blames packet ((peer.reply packet (stream', network)).map Prod.fst) e ∧
          after.network = peer.behind packet (stream', network)

/-- Whether a call is such a conversation can be told from its parts: the conversation of a sequence
is that of the first part and that of the second, on the connection as the first leaves it. -/
theorem converses_composes (peer : Peer σ) : Composes (Converses Fine Blames peer) where
  pure _ before stream hready :=
    ⟨[], stream, before.network, .nil, List.forall_mem_nil _, hready, rfl⟩
  refuse _ before stream _ := ⟨[], stream, before.network, .nil, List.forall_mem_nil _, .inl rfl⟩
  bind {_ _ call next} hcall hnext before stream hready := by
    obtain ⟨exchanges, stream', network, htalk, hfine, hend⟩ := hcall before stream hready
    rcases bind_cases call next before with ⟨value, middle, hrun, hbind⟩ | ⟨e, middle, hrun, hbind⟩
    · rw [hrun] at hend
      obtain ⟨hmiddle, rfl⟩ := hend
      obtain ⟨later, stream'', network', htalk', hfine', hend'⟩ :=
        hnext value ⟨before, middle, hrun⟩ middle stream' hmiddle
      rw [hbind]
      exact ⟨exchanges ++ later, stream'', network', htalk.append htalk',
        List.forall_mem_append.mpr ⟨hfine, hfine'⟩, hend'⟩
    · rw [hrun] at hend
      rw [hbind]
      exact ⟨exchanges, stream', network, htalk, hfine, hend⟩

variable {Fine Blames}

/-- A request is such a conversation, if whatever is accepted as its answer is fine, and whatever is
not accounts for the error. -/
theorem converses_ask {α : Type} {request : UInt16 → Except Error Bytes}
    {answer : UInt16 → Bytes → Except Error α}
    (hfine : ∀ reference message packet response value, request reference = .ok message →
      Iso.wrapData message = .ok packet → answer reference response = .ok value →
      Fine packet response)
    (hunanswered : ∀ reference message packet e, request reference = .ok message →
      Iso.wrapData message = .ok packet → Blames packet (.error e) (.transport e))
    (hrefused : ∀ reference message packet response e, request reference = .ok message →
      Iso.wrapData message = .ok packet → answer reference response = .error e →
      Blames packet (.ok response) e) :
    Converses Fine Blames peer α ((channel peer).ask request answer) := by
  intro before stream hready
  have hpasses := passes_ask request answer peer hready.state
  generalize (channel peer).ask request answer before = result at hpasses ⊢
  cases hpasses with
  -- nothing was sent
  | unexpressed _ hafter | unconnected _ _ hafter | unsent _ _ hafter =>
    exact ⟨[], stream, before.network, .nil, List.forall_mem_nil _, .inl hafter⟩
  -- one packet was sent, and the reply to it accounts for the error
  | unanswered hstream hrequest hwrap hreply hafter =>
    obtain rfl := Option.some.inj (hstream.symm.trans hready.stream)
    refine ⟨[], _, before.network, .nil, List.forall_mem_nil _, .inr ⟨_, ?_, hafter⟩⟩
    rw [hreply]
    exact hunanswered _ _ _ _ hrequest hwrap
  | refused hstream hrequest hwrap hreply hanswer hafter =>
    obtain rfl := Option.some.inj (hstream.symm.trans hready.stream)
    refine ⟨[], _, before.network, .nil, List.forall_mem_nil _, .inr ⟨_, ?_, hafter⟩⟩
    rw [hreply]
    exact hrefused _ _ _ _ _ hrequest hwrap hanswer
  -- one packet was sent, and the conversation has one exchange more
  | accepted hstream hrequest hwrap hreply hanswer hafter =>
    obtain rfl := Option.some.inj (hstream.symm.trans hready.stream)
    subst hafter
    refine ⟨[(_, _)], _, _, .cons hreply .nil, ?_, ⟨hready.state, rfl⟩, rfl⟩
    rintro _ hexchange
    obtain rfl := List.mem_singleton.mp hexchange
    exact hfine _ _ _ _ _ hrequest hwrap hanswer

/-- If every request is such a conversation, so is every operation of a client. There are three kinds
of requests, for reading a run, for writing a run, and for a job of control; to everything else that
an operation does the law has the answer. -/
theorem converses_law (options : Options)
    (readRun : ∀ run, Converses Fine Blames peer (List DataItem) (Batch.readRun (channel peer) run))
    (writeRun : ∀ run,
      Converses Fine Blames peer (List ReturnCode) (Batch.writeRun (channel peer) run))
    (control : ∀ job : Pdu.Control, Converses Fine Blames peer Pdu.Header ((channel peer).ask
      (fun reference => (job.encode reference).mapError .invalidArgument)
      fun reference response => Pdu.Control.validateAck response reference)) :
    Client.Law (Client.ofPeer peer options) (Converses Fine Blames peer) := by
  refine .of_ask (converses_composes Fine Blames peer) ?_ ?_ readRun writeRun control
  · intro before stream hready
    refine ⟨[], stream, before.network, .nil, List.forall_mem_nil _, ?_⟩
    have hensure : (Client.ofPeer peer options).channel.ensureReady before = .ok () before :=
      ensureReady_of_ready peer hready.state
    rw [hensure]
    exact ⟨hready, rfl⟩
  · exact fun before stream hready =>
      ⟨[], stream, before.network, .nil, List.forall_mem_nil _, hready, rfl⟩

/-- What is on record of such a conversation: all packets that were sent; and every reply is a fine
answer, or accounts for the error with which the call ends. -/
theorem exchanged_of_converses {α : Type} {call : Call (Station σ) α}
    (h : Converses Fine Blames peer α call) (hready : before.session.ReadyOn stream) :
    let (outcome, after) := call.outcome before
    after.network.sent = before.network.sent ++ (exchanged peer before after).map Prod.fst ∧
      ∀ packet reply, (packet, reply) ∈ exchanged peer before after →
        (∃ response, reply = .ok response ∧ Fine packet response) ∨
          ∃ e, outcome = .error e ∧ Blames packet reply e := by
  obtain ⟨exchanges, stream', network, htalk, hfine, hend⟩ := h before stream hready
  have hanswered : ∀ packet (reply : Except TransportError Bytes),
      (packet, reply) ∈ exchanges.map (fun exchange => (exchange.1, .ok exchange.2)) →
      ∃ response, reply = .ok response ∧ Fine packet response := by
    intro packet reply hmem
    obtain ⟨exchange, hexchange, heq⟩ := List.mem_map.mp hmem
    cases heq
    exact ⟨exchange.2, rfl, hfine exchange hexchange⟩
  cases hcall : call before with
  | ok value after =>
    rw [hcall] at hend
    obtain ⟨hexchanged, hsent⟩ := exchanged_eq hready htalk hend.2
    rw [outcome_of_ok hcall]
    refine ⟨hsent, fun packet reply hmem => ?_⟩
    rw [hexchanged] at hmem
    exact .inl (hanswered packet reply hmem)
  | error e after =>
    rw [hcall] at hend
    rw [outcome_of_error hcall]
    dsimp only
    -- all packets were answered, or the last was not, or its answer is to blame
    rcases hend with hafter | ⟨last, hblames, hafter⟩
    · obtain ⟨hexchanged, hsent⟩ := exchanged_eq hready htalk hafter
      refine ⟨hsent, fun packet reply hmem => ?_⟩
      rw [hexchanged] at hmem
      exact .inl (hanswered packet reply hmem)
    · obtain ⟨hexchanged, hsent⟩ := exchanged_eq_append hready htalk hafter
      refine ⟨hsent, fun packet reply hmem => ?_⟩
      rw [hexchanged] at hmem
      rcases List.mem_append.mp hmem with hmem | hmem
      · exact .inl (hanswered packet reply hmem)
      · cases List.mem_singleton.mp hmem
        exact .inr ⟨e, rfl, hblames⟩

end Law

end Station

end S7Comm
