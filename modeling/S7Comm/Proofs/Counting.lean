import Mathlib.Logic.Function.Iterate
import S7Comm.Proofs.ForeignAnswers

/-!
# The requests of a call

The references of a session are the numbers of its requests, counted from one to 65535 and then from
one again: `(Session.numbered n).toNat = (n - 1) % 65535 + 1` for `0 < n` (`Session.toNat_numbered`).
A number is taken before the request is made, so that a request which cannot be made, or is too long
to be sent, has used up its number all the same.

**What a call makes.** The requests of a call are a list, and from the list follows all that is to be
known of references and messages.

* `Request.pdus reference requests`: the messages of those requests that can be made and fit a packet,
  each under its own reference, the first of which follows `reference`.
* `Station.Posts call before requests`: after the call the session's reference is
  `Session.following^[requests.length]` of the one before, the messages that were to be sent are
  `Request.pdus` of the requests, and nothing is left out silently. A request of the list that was not
  sent is the last one, and why it could not be sent is the error of the call.

**What an operation makes** are uses of the connection: a list is read or written run by run, or a job
of control is done (`Station.Use`, `Station.OfUses`). A list takes one request for each run of its
plan, up to the one with which the operation fails (`Station.PostsRuns`).

**Main results** are one lemma for each use, `Station.postsRuns_readEach`,
`Station.postsRuns_writeEach` and `Station.posts_control`, and `Station.accounts_law`, that all
operations are made of uses. They are put to work in `S7Comm.Proofs.References`.
-/

namespace S7Comm

open Call

/-! ## Numbers -/

namespace Session

/-- The reference of the request with a number. -/
def numbered (n : Nat) : UInt16 :=
  following^[n] 0

/-- After 65535 comes one: `(following r).toNat = r.toNat % 65535 + 1`, for zero as well, from which
the counting begins. -/
theorem toNat_following (reference : UInt16) :
    (following reference).toNat = reference.toNat % 65535 + 1 := by
  have hlt := reference.toNat_lt
  unfold following
  split
  · next hlast =>
    have hsum : (reference + 1).toNat = 0 := by rw [hlast]; rfl
    rw [UInt16.toNat_add] at hsum
    simp at hsum ⊢
    omega
  · next hnext =>
    have hsum : (reference + 1).toNat ≠ 0 := fun hzero => hnext (UInt16.toNat_inj.mp hzero)
    rw [UInt16.toNat_add] at hsum ⊢
    simp at hsum ⊢
    omega

/-- The references of the requests, in closed form. -/
theorem toNat_numbered {n : Nat} (h : 0 < n) : (numbered n).toNat = (n - 1) % 65535 + 1 := by
  induction n with
  | zero => exact absurd h (Nat.lt_irrefl 0)
  | succ n ih =>
    rw [numbered, Function.iterate_succ_apply', toNat_following]
    rcases Nat.eq_zero_or_pos n with rfl | hpos
    · rfl
    · have hbefore : (following^[n] 0).toNat = (n - 1) % 65535 + 1 := ih hpos
      rw [hbefore]
      omega

/-- No request has the reference zero. -/
theorem numbered_ne_zero {n : Nat} (h : 0 < n) : numbered n ≠ 0 := by
  intro hzero
  have hnumber := toNat_numbered h
  rw [hzero] at hnumber
  exact absurd hnumber (by simp)

/-- Requests that are not far from each other have different references: `numbered m ≠ numbered n` for
`0 < m < n < m + 65535`. At a distance of 65535 they have the same. -/
theorem numbered_ne {m n : Nat} (hm : 0 < m) (hmn : m < n) (hnear : n < m + 65535) :
    numbered m ≠ numbered n := by
  intro hsame
  have hnumber := toNat_numbered hm
  rw [hsame, toNat_numbered (hm.trans hmn)] at hnumber
  omega

end Session

/-! ## Requests -/

/-- What is asked of the other end with one message. -/
inductive Request where
  /-- To agree on a setup, with a proposal for the length of messages. -/
  | setup (pduLength : UInt16)
  /-- To read a run of items. -/
  | read (run : List RequestItem)
  /-- To write a run of items. -/
  | write (run : List (RequestItem × DataItem))
  /-- To do a job of control. -/
  | control (job : Pdu.Control)

namespace Request

/-- The message with which something is asked for, under a reference. -/
def message : Request → UInt16 → Except Error Bytes
  | .setup pduLength, reference => .ok ((Pdu.Setup.proposal pduLength).encode reference)
  | .read run, reference => Pdu.encodeReadRequest reference run
  | .write run, reference =>
    Pdu.encodeWriteRequest reference (run.map Prod.fst) (run.map Prod.snd)
  | .control job, reference => (job.encode reference).mapError .invalidArgument

/-- The message with which something is asked for, if it fits a packet. -/
def pdu (request : Request) (reference : UInt16) : Except Error Bytes := do
  let message ← request.message reference
  let _ ← (Iso.wrapData message).mapError fun e => Error.transport (.packet e)
  return message

/-- The messages of some requests, the first of which has the number behind a reference. A request for
which there is no message is passed over, but it takes a number, so that those behind it have the
numbers that they would have had. -/
def pdus : UInt16 → List Request → List Bytes
  | _, [] => []
  | reference, request :: requests =>
    let others := pdus (Session.following reference) requests
    match request.pdu (Session.following reference) with
    | .ok message => message :: others
    | .error _ => others

/-- The messages of requests that follow others come behind the messages of those, numbered on from
`following^[requests.length] reference`. -/
theorem pdus_append (reference : UInt16) (requests later : List Request) :
    pdus reference (requests ++ later) =
      pdus reference requests ++ pdus (Session.following^[requests.length] reference) later := by
  induction requests generalizing reference with
  | nil => rfl
  | cons request requests ih =>
    simp only [List.cons_append, pdus, ih]
    cases request.pdu (Session.following reference) <;> rfl

/-- A message carries the reference that it was made under, whatever is asked for: it can be decoded,
and has the reference in its header. -/
theorem reference_of_message {request : Request} {reference : UInt16} {message : Bytes}
    (h : request.message reference = .ok message) :
    ∃ header body, Pdu.Header.decode message = .ok (header, body) ∧ header.reference = reference := by
  have hrequests : ∀ {access : Prop}, Pdu.Requests message reference access →
      ∃ header body, Pdu.Header.decode message = .ok (header, body) ∧
        header.reference = reference := by
    rintro access ⟨header, body, hdecode, hreference, -⟩
    exact ⟨header, body, hdecode, hreference⟩
  cases request with
  | setup pduLength =>
    cases h
    exact ⟨_, _, Pdu.decode_requestHeader reference 8 0 _, rfl⟩
  | read run => exact hrequests (Pdu.requests_read h)
  | write run => exact hrequests (Pdu.requests_write h)
  | control job => exact hrequests (Pdu.requests_control (mapError_eq_ok_iff.mp h))

/-- There is a message for a packet exactly if the request can be expressed and the message fits a
packet. -/
theorem pdu_eq_ok_iff {request : Request} {reference : UInt16} {message : Bytes} :
    request.pdu reference = .ok message ↔
      request.message reference = .ok message ∧ ∃ packet, Iso.wrapData message = .ok packet := by
  simp only [pdu, except_bind_eq_ok_iff, mapError_eq_ok_iff]
  constructor
  · rintro ⟨message', hmessage, packet, hwrap, hend⟩
    cases hend
    exact ⟨hmessage, packet, hwrap⟩
  · rintro ⟨hmessage, packet, hwrap⟩
    exact ⟨message, hmessage, packet, hwrap, rfl⟩

end Request

/-! ## Messages among packets

Not every packet carries a message: the request for a connection does not, and neither does the leave
that is taken. Those are left out by looking into the packets, without regard to who sent them.
-/

/-- The message in a packet, if it is one with a message. -/
def Iso.message? (packet : Bytes) : Option Bytes :=
  match unwrapData (packet.drop Packet.headerLength) with
  | .ok (_, message) => some message
  | .error _ => none

/-- A packet that a message was put into is one with that message, and with no other. So the messages
among the packets can be told from the packets alone. -/
theorem Iso.message?_of_wrapData {message packet : Bytes} (h : wrapData message = .ok packet) :
    message? packet = some message := by
  unfold wrapData Packet.encode at h
  dsimp only at h
  split at h
  · cases h
  · cases h
    unfold message? unwrapData
    simp [Packet.headerLength, Packet.version, wordBytes, dataCode, disconnectRequestCode,
      dataHeaderLength]
    rw [if_neg (by omega)]

/-- The messages that were sent, without the packets that open and end connections. -/
def Network.messages {σ : Type} (network : Network σ) : List Bytes :=
  network.sent.filterMap Iso.message?

namespace Station

variable {σ : Type} {peer : Peer σ}

/-- A packet that is sent adds the message in it to those that were sent. -/
theorem messages_behind (peer : Peer σ) (packet : Bytes) (here : Stream × Network σ) :
    (peer.behind packet here).messages = here.2.messages ++ (Iso.message? packet).toList := by
  rw [Network.messages, peer.sent_behind, List.filterMap_append]
  cases h : Iso.message? packet <;> simp [Network.messages, h]

/-! ## The requests of a call

`Numbers` is about two moments and `Posts` about a call; the second is the first at the end of the
call. Both are additive: requests that were followed by others are put in front of those
(`Numbers.append`).
-/

/-- What has been made of some requests between two moments: they were numbered on from the last
request before, and their messages were sent. If one was not sent, it is the last, and the outcome is
the error that says why. -/
structure Numbers {α : Type} (before : Station σ) (requests : List Request) (outcome : Except Error α)
    (after : Station σ) : Prop where
  /-- Each took the next reference. -/
  reference :
    after.session.reference = Session.following^[requests.length] before.session.reference
  /-- Each that could be sent was sent, and nothing else. -/
  messages : after.network.messages =
    before.network.messages ++ Request.pdus before.session.reference requests
  /-- All could be sent, or all but the last. -/
  sent : (Request.pdus before.session.reference requests).length = requests.length ∨
    ∃ e request, outcome = .error e ∧ requests.getLast? = some request ∧
      request.pdu after.session.reference = .error e ∧
      (Request.pdus before.session.reference requests).length + 1 = requests.length

/-- The requests of a call at some moment. -/
def Posts {α : Type} (call : Call (Station σ) α) (before : Station σ) (requests : List Request) :
    Prop :=
  Numbers before requests (call.outcome before).1 (call.outcome before).2

namespace Numbers

variable {α β : Type} {before middle after : Station σ} {requests later : List Request}
  {outcome : Except Error α}

/-- Where nothing was numbered and no message was sent, there were no requests. -/
theorem nothing (hreference : after.session.reference = before.session.reference)
    (hmessages : after.network.messages = before.network.messages) :
    Numbers before [] outcome after where
  reference := hreference
  messages := hmessages.trans (List.append_nil _).symm
  sent := .inl rfl

/-- Requests that have come to a good end can be followed by others: what holds of the former from one
moment to a second, and of the latter from there to a third, holds of both in a row from the first to
the third. All of the former were sent then, as an outcome with a value says. -/
theorem append {value : β} (h : Numbers before requests (.ok value) middle)
    (h' : Numbers middle later outcome after) :
    Numbers before (requests ++ later) outcome after := by
  have hpdus := Request.pdus_append before.session.reference requests later
  rw [← h.reference] at hpdus
  have hsent : (Request.pdus before.session.reference requests).length = requests.length := by
    rcases h.sent with hall | ⟨e, request, hend, -⟩
    · exact hall
    · cases hend
  refine ⟨?_, ?_, ?_⟩
  · rw [h'.reference, h.reference, ← Function.iterate_add_apply, List.length_append, Nat.add_comm]
  · rw [h'.messages, h.messages, hpdus, List.append_assoc]
  · rw [hpdus, List.length_append, List.length_append, hsent]
    rcases h'.sent with hall | ⟨e, request, hend, hlast, hpdu, hbut⟩
    · exact .inl (by rw [hall])
    · refine .inr ⟨e, request, hend, ?_, hpdu, by omega⟩
      rw [List.getLast?_append, hlast]
      rfl

/-- What an error is called an outcome of does not matter. -/
theorem of_error {e : Error} (h : Numbers before requests (.error e : Except Error α) after) :
    Numbers before requests (.error e : Except Error β) after where
  reference := h.reference
  messages := h.messages
  sent := by
    apply h.sent.imp_right
    rintro ⟨e', request, hend, hlast⟩
    cases hend
    exact ⟨e, request, rfl, hlast⟩

end Numbers

namespace Posts

variable {α β : Type} {call : Call (Station σ) α} {next : α → Call (Station σ) β}
  {before middle : Station σ} {requests later : List Request}

/-- The requests of a sequence whose first part ends with a value are those of the first part and
those of the second, which begins where the first ends. -/
theorem bind_ok {value : α} (h : Posts call before requests) (hcall : call before = .ok value middle)
    (hnext : Posts (next value) middle later) : Posts (call >>= next) before (requests ++ later) := by
  rw [Posts, outcome_of_ok hcall] at h
  rw [Posts, Call.outcome, bind_of_ok hcall]
  exact h.append hnext

/-- The requests of a sequence whose first part ends with an error are those of the first part, as the
second is not done. -/
theorem bind_error {e : Error} {after : Station σ} (h : Posts call before requests)
    (hcall : call before = .error e after) : Posts (call >>= next) before requests := by
  rw [Posts, outcome_of_error hcall] at h
  rw [Posts, outcome_of_error (bind_of_error hcall next)]
  exact h.of_error

/-- To give a value another form takes no request. -/
theorem form (h : Posts call before requests) (form : α → β) :
    Posts (call >>= fun value => pure (form value)) before requests := by
  cases hcall : call before with
  | ok value middle =>
    rw [← List.append_nil requests]
    exact h.bind_ok hcall (.nothing rfl rfl)
  | error e after => exact h.bind_error hcall

/-- To check a value takes no request. -/
theorem checked (h : Posts call before requests) (check : α → Except Error Unit) :
    Posts (call >>= fun value => Call.ofExcept (check value) >>= fun _ => pure value) before
      requests := by
  cases hcall : call before with
  | ok value middle =>
    rw [← List.append_nil requests]
    refine h.bind_ok hcall ?_
    cases check value <;> exact .nothing rfl rfl
  | error e after => exact h.bind_error hcall

end Posts

/-! ### A request -/

/-- To exchange a message takes no reference. -/
theorem reference_exchange (peer : Peer σ) (message : Bytes) (st : Station σ) :
    ((exchange peer message).outcome st).2.session.reference = st.session.reference := by
  rw [Call.outcome, exchange]
  cases st.session.checkReady with
  | error e => rfl
  | ok =>
    cases hstream : st.session.stream? with
    | none =>
      rw [roundTrip_of_none hstream]
      rfl
    | some stream =>
      rw [roundTrip_of_some hstream]
      rcases peer.roundTrip message stream st.network with ⟨e | read, network⟩ <;> rfl

/-- To accept an answer takes no reference. -/
theorem reference_accept {α : Type} (peer : Peer σ) (result : Except Error α) (st : Station σ) :
    (((channel peer).accept result).outcome st).2.session.reference = st.session.reference := by
  cases result with
  | ok value => rfl
  | error e =>
    unfold Channel.accept Call.outcome
    dsimp only
    cases e.fault? <;> rfl

/-- A request takes one reference, whatever becomes of it: whether it could be expressed, was sent,
was answered, or was answered with what was refused. The reference is taken first. -/
theorem reference_ask {α : Type} (request : UInt16 → Except Error Bytes)
    (answer : UInt16 → Bytes → Except Error α) (peer : Peer σ) (st : Station σ) :
    (((channel peer).ask request answer).outcome st).2.session.reference =
      Session.following st.session.reference := by
  let advanced : Station σ := { st with session := st.session.advance }
  have hallocate : (channel peer).allocate st =
      .ok (Session.following st.session.reference) advanced := rfl
  rw [Call.outcome, Channel.ask, bind_of_ok hallocate]
  cases hrequest : request (Session.following st.session.reference) with
  | error e => rfl
  | ok message =>
    have hreference := reference_exchange peer message advanced
    change (((exchange peer message >>= _ : Call (Station σ) α)).outcome advanced).2.session.reference
      = advanced.session.reference
    cases hexchange : exchange peer message advanced with
    | ok response after =>
      rw [outcome_of_ok hexchange] at hreference
      rw [Call.outcome, bind_of_ok hexchange]
      exact (reference_accept peer _ after).trans hreference
    | error e after =>
      rw [outcome_of_error hexchange] at hreference
      rw [outcome_of_error (bind_of_error hexchange _)]
      exact hreference

/-- A request that was sent. -/
theorem Numbers.of_sent {α : Type} {outcome : Except Error α} {before after : Station σ}
    {stream : Stream} {request : Request} {message packet : Bytes}
    (hreference : after.session.reference = Session.following before.session.reference)
    (hmessage : request.message (Session.following before.session.reference) = .ok message)
    (hwrap : Iso.wrapData message = .ok packet)
    (hafter : after.network = peer.behind packet (stream, before.network)) :
    Numbers before [request] outcome after := by
  have hpdu := Request.pdu_eq_ok_iff.mpr ⟨hmessage, packet, hwrap⟩
  have hpdus : Request.pdus before.session.reference [request] = [message] := by
    rw [Request.pdus, hpdu]
    rfl
  refine ⟨hreference, ?_, .inl (congrArg List.length hpdus)⟩
  rw [hafter, messages_behind, Iso.message?_of_wrapData hwrap, hpdus]
  rfl

/-- A request that could not be sent. -/
theorem Numbers.of_unsent {α : Type} {e : Error} {before after : Station σ} {request : Request}
    (hreference : after.session.reference = Session.following before.session.reference)
    (hpdu : request.pdu (Session.following before.session.reference) = .error e)
    (hafter : after.network = before.network) :
    Numbers before [request] (.error e : Except Error α) after := by
  have hpdus : Request.pdus before.session.reference [request] = [] := by
    rw [Request.pdus, hpdu]
    rfl
  refine ⟨hreference, ?_, .inr ⟨e, request, rfl, rfl, ?_, congrArg (·.length + 1) hpdus⟩⟩
  · rw [hafter, hpdus, List.append_nil]
  · rw [hreference]
    exact hpdu

/-- The one request of a request: on a session that is ready on a connection, asking for something
makes just `[request]`, under the reference that follows the one of the session. By the ways that a
request can go (`Station.Passes`), of which one cannot occur where there is a connection. -/
theorem posts_ask {α : Type} (request : Request) (answer : UInt16 → Bytes → Except Error α)
    (peer : Peer σ) {before : Station σ} {stream : Stream}
    (hready : before.session.ReadyOn stream) :
    Posts ((channel peer).ask request.message answer) before [request] := by
  have hreference := reference_ask request.message answer peer before
  have hpasses := passes_ask request.message answer peer hready.state
  cases hcall : (channel peer).ask request.message answer before with
  | ok value after =>
    rw [outcome_of_ok hcall] at hreference
    rw [hcall] at hpasses
    rw [Posts, outcome_of_ok hcall]
    cases hpasses with
    | accepted _ hmessage hwrap _ _ hafter =>
      exact .of_sent hreference hmessage hwrap (congrArg Station.network hafter)
  | error e after =>
    rw [outcome_of_error hcall] at hreference
    rw [hcall] at hpasses
    rw [Posts, outcome_of_error hcall]
    -- in two of the ways the request was not sent, and in two it was
    cases hpasses with
    | unexpressed hmessage hafter =>
      apply Numbers.of_unsent hreference ?_ hafter
      rw [Request.pdu, hmessage]
      rfl
    | unconnected _ hnone _ => cases hnone.symm.trans hready.stream
    | unsent hmessage hwrap hafter =>
      apply Numbers.of_unsent hreference ?_ hafter
      rw [Request.pdu, hmessage]
      change ((Iso.wrapData _).mapError _ >>= _) = _
      rw [hwrap]
      rfl
    | unanswered _ hmessage hwrap _ hafter | refused _ hmessage hwrap _ _ hafter =>
      exact .of_sent hreference hmessage hwrap hafter

/-- What reading a run does to a ready session. -/
theorem keeps_readRun (peer : Peer σ) (run : List RequestItem) :
    Keeps peer (List DataItem) (Batch.readRun (channel peer) run) :=
  keeps_ask peer (harmless_encodeReadRequest run) _

/-- What writing a run does to a ready session. -/
theorem keeps_writeRun (peer : Peer σ) (run : List (RequestItem × DataItem)) :
    Keeps peer (List ReturnCode) (Batch.writeRun (channel peer) run) :=
  keeps_ask peer (harmless_encodeWriteRequest _ _) _

/-- To read a run takes a request. -/
theorem posts_readRun (peer : Peer σ) (run : List RequestItem) (st : Station σ)
    {stream : Stream} (hready : st.session.ReadyOn stream) :
    Posts (Batch.readRun (channel peer) run) st [.read run] :=
  posts_ask (.read run) _ peer hready

/-- To write a run takes a request. -/
theorem posts_writeRun (peer : Peer σ) (run : List (RequestItem × DataItem)) (st : Station σ)
    {stream : Stream} (hready : st.session.ReadyOn stream) :
    Posts (Batch.writeRun (channel peer) run) st [.write run] :=
  posts_ask (.write run) _ peer hready

/-! ### Lists of items -/

/-- The requests for the runs of a list: one for each, up to that with which the call fails, if it
does. -/
def PostsRuns {α γ : Type} (call : Call (Station σ) α) (before : Station σ) (request : γ → Request)
    (runs : List γ) : Prop :=
  ∃ count, (∀ value, (call.outcome before).1 = .ok value → count = runs.length) ∧
    Posts call before ((runs.take count).map request)

/-- A row of requests, made on a session that is ready on a connection, one after the other: all of
them if all end with a value, and else those up to the one that ends with an error. By induction on
the runs, over any session that is ready; that it is still ready behind a run is `hkeeps`. -/
theorem postsRuns_mapM {γ β : Type} {call : γ → Call (Station σ) β} {request : γ → Request}
    (hkeeps : ∀ run, Keeps peer β (call run))
    (hcall : ∀ run st {stream}, st.session.ReadyOn stream → Posts (call run) st [request run])
    (runs : List γ) {before : Station σ} {stream : Stream}
    (hready : before.session.ReadyOn stream) :
    PostsRuns (runs.mapM call) before request runs := by
  -- the induction is on the runs, for a session that has been used already
  induction runs generalizing before stream with
  | nil => exact ⟨0, fun _ _ => rfl, .nothing rfl rfl⟩
  | cons run runs ih =>
    have hfirst := hcall run before hready
    rw [List.mapM_cons]
    cases hrun : call run before with
    | error e after =>
      refine ⟨1, ?_, hfirst.bind_error hrun⟩
      intro value hvalue
      rw [outcome_of_error (bind_of_error hrun _)] at hvalue
      cases hvalue
    | ok result middle =>
      have hsettles := hkeeps run before hready.state
      rw [hrun] at hsettles
      obtain ⟨stream', hmiddle⟩ := StillReady.exists_readyOn hsettles hready
      obtain ⟨count, hcount, hrest⟩ := ih hmiddle
      refine ⟨count + 1, ?_, hfirst.bind_ok hrun (hrest.form fun results => result :: results)⟩
      intro value hvalue
      rw [Call.outcome, bind_of_ok hrun] at hvalue
      obtain ⟨results, hresults⟩ := exists_ok_of_bind_pure hvalue
      rw [hcount results hresults, List.length_cons]

/-- A list that can be divided, on a session that is ready on a connection, makes the requests of its
runs. Neither looking whether a request can be sent nor dividing the list makes any. -/
theorem postsRuns_divided {α β : Type} {demand : α → Batch.Demand}
    {call : List α → Call (Station σ) (List β)} {request : List α → Request}
    (hkeeps : ∀ run, Keeps peer (List β) (call run))
    (hcall : ∀ run st {stream}, st.session.ReadyOn stream → Posts (call run) st [request run])
    {items : List α} {runs : List (List α)} {before : Station σ} {stream : Stream}
    (hready : before.session.ReadyOn stream)
    (hplan : Batch.plan demand before.session.pduLength items = .ok runs) :
    PostsRuns (do
      (channel peer).ensureReady
      let runs ← Batch.plan demand (← (channel peer).pduBudget) items
      let results ← runs.mapM call
      return results.flatten) before request runs := by
  obtain ⟨count, hcount, hposts⟩ := postsRuns_mapM hkeeps hcall runs hready
  have hcheck := checkReady_of_ready peer hready.state
  refine ⟨count, ?_, ?_⟩
  · intro value hvalue
    rw [outcome_congr (Channel.divided_eq hcheck hplan)] at hvalue
    obtain ⟨results, hresults⟩ := exists_ok_of_bind_pure hvalue
    exact hcount results hresults
  · rw [Posts, outcome_congr (Channel.divided_eq hcheck hplan)]
    exact hposts.form List.flatten

/-- Reading a list that can be divided, on a ready session. -/
theorem postsRuns_readEach {items : List RequestItem} (hne : items ≠ [])
    {runs : List (List RequestItem)} {before : Station σ} {stream : Stream}
    (hready : before.session.ReadyOn stream)
    (hplan : Batch.planReads before.session.pduLength items = .ok runs) :
    PostsRuns (Batch.readEach (channel peer) items) before .read runs := by
  unfold Batch.readEach
  rw [if_neg hne]
  exact postsRuns_divided (keeps_readRun peer) (posts_readRun peer) hready hplan

/-- Writing a list that can be divided, on a ready session. -/
theorem postsRuns_writeEach {pairs : List (RequestItem × DataItem)} (hne : pairs ≠ [])
    {runs : List (List (RequestItem × DataItem))} {before : Station σ} {stream : Stream}
    (hready : before.session.ReadyOn stream)
    (hplan : Batch.planWrites before.session.pduLength pairs = .ok runs) :
    PostsRuns (Batch.writeEach (channel peer) (pairs.map Prod.fst) (pairs.map Prod.snd)) before .write
      runs := by
  rw [Batch.writeEach_pairs _ hne]
  exact postsRuns_divided (keeps_writeRun peer) (posts_writeRun peer) hready hplan

/-! ### Operations -/

/-- The requests of one use that an operation makes of a connection. -/
inductive Use (budget : UInt16) : List Request → Prop where
  /-- A list is read run by run, at least the first ones. -/
  | read {items : List RequestItem} {runs : List (List RequestItem)} (count : Nat) :
    Batch.planReads budget items = .ok runs → Use budget ((runs.take count).map .read)
  /-- A list is written run by run, at least the first ones. -/
  | write {pairs : List (RequestItem × DataItem)} {runs : List (List (RequestItem × DataItem))}
      (count : Nat) :
    Batch.planWrites budget pairs = .ok runs → Use budget ((runs.take count).map .write)
  /-- A job of control is done. -/
  | control (job : Pdu.Control) : Use budget [.control job]

/-- The requests of some uses, one after the other. -/
def OfUses (budget : UInt16) (requests : List Request) : Prop :=
  ∃ uses : List (List Request), (∀ use ∈ uses, Use budget use) ∧ requests = uses.flatten

/-- A call may make no use of the connection, -/
theorem OfUses.none (budget : UInt16) : OfUses budget [] :=
  ⟨[], List.forall_mem_nil _, rfl⟩

/-- or a single one, -/
theorem OfUses.one {budget : UInt16} {use : List Request} (h : Use budget use) :
    OfUses budget use :=
  ⟨[use], List.forall_mem_singleton.mpr h, (List.flatten_singleton).symm⟩

/-- or some and then others. -/
theorem OfUses.append {budget : UInt16} {requests later : List Request}
    (h : OfUses budget requests) (h' : OfUses budget later) : OfUses budget (requests ++ later) := by
  obtain ⟨uses, huses, rfl⟩ := h
  obtain ⟨others, hothers, rfl⟩ := h'
  exact ⟨uses ++ others, List.forall_mem_append.mpr ⟨huses, hothers⟩, List.flatten_append.symm⟩

/-- A call that keeps a ready session in order, and that on its connection makes some uses of it, and no
other requests. -/
def Accounts (peer : Peer σ) (α : Type) (call : Call (Station σ) α) : Prop :=
  Keeps peer α call ∧ ∀ st stream, st.session.ReadyOn stream →
    ∃ requests, OfUses st.session.pduLength requests ∧ Posts call st requests

/-- A call that makes no requests. -/
theorem accounts_of_none {α : Type} {call : Call (Station σ) α} (hkeeps : Keeps peer α call)
    (h : ∀ st, st.session.state = .ready → Posts call st []) : Accounts peer α call :=
  ⟨hkeeps, fun st _ hready => ⟨[], .none _, h st hready.state⟩⟩

/-- The uses that the parts make are those of the whole. -/
theorem accounts_composes (peer : Peer σ) : Composes (Accounts peer) where
  pure value := accounts_of_none ((keeps_composes peer).pure value) fun _ _ => .nothing rfl rfl
  refuse he := accounts_of_none ((keeps_composes peer).refuse he) fun _ _ => .nothing rfl rfl
  bind {_ _ call next} hcall hnext := by
    refine ⟨(keeps_composes peer).bind hcall.1 fun value hvalue => (hnext value hvalue).1, ?_⟩
    intro st stream hready
    have hsettles := hcall.1 st hready.state
    obtain ⟨requests, huses, hposts⟩ := hcall.2 st stream hready
    cases hrun : call st with
    | error e after => exact ⟨requests, huses, Posts.bind_error hposts hrun⟩
    | ok value middle =>
      rw [hrun] at hsettles
      have hmiddle : StillReady peer st middle := hsettles
      obtain ⟨stream', hready'⟩ := hmiddle.exists_readyOn hready
      obtain ⟨later, hlater, hposts'⟩ :=
        (hnext value ⟨st, middle, hrun⟩).2 middle stream' hready'
      rw [hmiddle.pduLength] at hlater
      exact ⟨requests ++ later, huses.append hlater, Posts.bind_ok hposts hrun hposts'⟩

/-- Asking whether a request can be sent takes none. -/
theorem accounts_ensureReady (peer : Peer σ) : Accounts peer Unit (channel peer).ensureReady := by
  apply accounts_of_none (keeps_ensureReady peer)
  intro st hready
  rw [Posts, outcome_of_ok (ensureReady_of_ready peer hready)]
  exact .nothing rfl rfl

/-- A list that is divided makes one use of the connection, the requests of its first `count` runs, or
none at all if it cannot be divided. -/
theorem accounts_divided {α β : Type} {demand : α → Batch.Demand}
    {call : List α → Call (Station σ) (List β)} {request : List α → Request} {items : List α}
    (hkeeps : ∀ run, Keeps peer (List β) (call run))
    (hcall : ∀ run st {stream}, st.session.ReadyOn stream → Posts (call run) st [request run])
    (huse : ∀ budget runs count, Batch.plan demand budget items = .ok runs →
      Use budget ((runs.take count).map request)) {st : Station σ} {stream : Stream}
    (hready : st.session.ReadyOn stream) :
    ∃ requests, OfUses st.session.pduLength requests ∧ Posts (do
      (channel peer).ensureReady
      let runs ← Batch.plan demand (← (channel peer).pduBudget) items
      let results ← runs.mapM call
      return results.flatten) st requests := by
  cases hplan : Batch.plan demand st.session.pduLength items with
  | ok runs =>
    obtain ⟨count, -, hposts⟩ := postsRuns_divided hkeeps hcall hready hplan
    exact ⟨_, .one (huse _ runs count hplan), hposts⟩
  | error e =>
    have hcheck := checkReady_of_ready peer hready.state
    refine ⟨[], .none _, ?_⟩
    rw [Posts, outcome_of_error (Channel.undivided_eq hcheck hplan)]
    exact .nothing rfl rfl

/-- What the operations of a client make of a connection. -/
theorem accounts_law (peer : Peer σ) (options : Options) :
    Client.Law (Client.ofPeer peer options) (Accounts peer) where
  toComposes := accounts_composes peer
  ensureReady := accounts_ensureReady peer
  pduBudget := accounts_of_none (keeps_pduBudget peer) fun _ _ => .nothing rfl rfl
  readEach items := by
    refine ⟨(keeps_law peer options).readEach items, fun st stream hready => ?_⟩
    unfold Batch.readEach
    by_cases hnone : items = []
    · rw [if_pos hnone]
      exact ⟨[], .none _, .nothing rfl rfl⟩
    rw [if_neg hnone]
    apply accounts_divided (keeps_readRun peer) (posts_readRun peer) ?_ hready
    intro budget runs count hplan
    exact .read count hplan
  writeEach items data := by
    refine ⟨(keeps_law peer options).writeEach items data, fun st stream hready => ?_⟩
    unfold Batch.writeEach
    -- of lists that are not of one length nothing is sent
    by_cases hpaired : items.length ≠ data.length
    · rw [if_pos hpaired]
      exact ⟨[], .none _, .nothing rfl rfl⟩
    rw [if_neg hpaired]
    dsimp only
    by_cases hnone : items = []
    · rw [if_pos hnone]
      exact ⟨[], .none _, .nothing rfl rfl⟩
    rw [if_neg hnone]
    apply accounts_divided (keeps_writeRun peer) (posts_writeRun peer) ?_ hready
    intro budget runs count hplan
    exact .write count hplan
  control job := by
    apply Client.control_of_ask (accounts_composes peer) (accounts_ensureReady peer)
    refine ⟨keeps_ask peer (fun reference => harmless_argument (job.encode reference)) _,
      fun st stream hready => ⟨[.control job], .one (.control job), ?_⟩⟩
    exact posts_ask (.control job) _ peer hready

/-- A job of control is one request. -/
theorem posts_control (peer : Peer σ) (options : Options) (job : Pdu.Control) {before : Station σ}
    {stream : Stream} (hready : before.session.ReadyOn stream) :
    Posts ((Client.ofPeer peer options).control job) before [.control job] := by
  have hcontrol : (Client.ofPeer peer options).control job before =
      ((channel peer).ask (Request.control job).message
        (fun reference response => Pdu.Control.validateAck response reference) >>=
          fun _ => pure ()) before := by
    have hensure : (Client.ofPeer peer options).channel.ensureReady before = .ok () before :=
      ensureReady_of_ready peer hready.state
    simp only [Channel.ask, bind_assoc]
    exact bind_of_ok hensure _
  rw [Posts, outcome_congr hcontrol]
  exact (posts_ask (.control job) _ peer hready).form fun _ => ()

end Station

end S7Comm
