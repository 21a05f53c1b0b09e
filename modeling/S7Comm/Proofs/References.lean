import S7Comm.Proofs.Counting
import S7Comm.Proofs.Handshake

/-!
# Fresh references

A session counts its requests from its beginning on. A setup is a request, a job of control is one,
and each run of a plan is one. Over a run of steps the requests are put one behind the other, and
closing and connecting again do not begin a new count.

* `Station.Makes peer st step requests`: the requests of one step. To connect takes one where a
  connection is opened, and none where it is not; to close takes none.
* `Station.Counts peer st steps requests`: those of a run of steps, each of which posts what it makes.
  That there always are such is `Station.exists_counts`, by induction on the steps; it asks for a
  session between two calls (`Session.Settled`), as a ready session without a connection would count a
  request and send nothing.
* `Station.CarriesNumber requests n message`: `message` is that of request `n`, counted from one, and
  the reference in its header is `Session.numbered n`.

**Main result** (`Station.references_fresh`): the place of a request in the whole list gives its
reference, and with it the reference in its message. A bare exchange of a message that somebody else
has made is left out, as it takes no reference.
-/

namespace S7Comm

open Call

namespace Station

variable {σ : Type} {peer : Peer σ}

/-! ## Connecting and closing -/

/-- To open a connection takes no message. -/
theorem messages_openStream (peer : Peer σ) (options : Options) (network : Network σ) :
    (openStream peer options network).2.messages = network.messages := by
  obtain ⟨packets, hpackets, hsends⟩ := undertaken_openStream peer options network
  have hnone : packets.filterMap Iso.message? = [] := by
    apply List.filterMap_eq_nil_iff.mpr
    intro packet hpacket
    obtain rfl := List.mem_singleton.mp (hpackets.subset hpacket)
    rfl
  rw [Network.messages, hsends.sent, List.filterMap_append, hnone, List.append_nil]
  rfl

/-- To connect takes no request where no connection is opened. -/
theorem posts_connect_of_unopened {st : Station σ} {cause : TransportError} {asked : Network σ}
    (h : openStream peer st.session.options st.network = (.error cause, asked)) :
    Posts (connect peer) st [] := by
  have hmessages := messages_openStream peer st.session.options st.network
  rw [h] at hmessages
  rw [Posts, outcome_of_error (connect_of_unopened h)]
  exact .nothing rfl hmessages

/-- To connect takes the proposal of a setup where a connection is opened. -/
theorem posts_connect_of_opened {st : Station σ} {opened : Stream} {asked : Network σ}
    (h : openStream peer st.session.options st.network = (.ok opened, asked)) :
    Posts (connect peer) st [.setup st.session.options.pduLength] := by
  let here := facing st.session opened asked
  have hmessages := messages_openStream peer st.session.options st.network
  rw [h] at hmessages
  have hopened : Numbers st [] (.ok () : Except Error Unit) here := .nothing rfl hmessages
  -- whatever becomes of the negotiation, it takes one reference and sends one packet
  have hsetup : ∀ {outcome : Except Error Unit} {after : Station σ},
      after.session.reference = Session.following st.session.reference →
      after.network = peer.behind (setupPacket st.session.options
        (Session.following st.session.reference)) (opened, asked) →
      Numbers st [.setup st.session.options.pduLength] outcome after := by
    intro outcome after hreference hafter
    have hproposed : Numbers here [.setup st.session.options.pduLength] outcome after :=
      .of_sent hreference rfl (wrapData_proposal st.session.options _) hafter
    exact hopened.append hproposed
  have hconnect := connect_of_opened h
  rw [negotiate_eq] at hconnect
  split at hconnect
  · next after heq =>
    rw [Posts, outcome_of_ok hconnect]
    split at heq
    · cases heq
    · split at heq <;> cases heq
      exact hsetup rfl rfl
  · next fault after heq =>
    rw [Posts, outcome_of_error hconnect]
    split at heq
    · cases heq
      exact hsetup rfl rfl
    · split at heq <;> cases heq
      exact hsetup rfl rfl

/-- To close takes no request. -/
theorem posts_close (peer : Peer σ) (st : Station σ) : Posts (close peer) st [] := by
  have hmessages : ((close peer).outcome st).2.network.messages = st.network.messages := by
    unfold close Call.outcome
    dsimp only
    cases st.session.stream? with
    | none => rfl
    | some stream =>
      refine (messages_behind peer Iso.disconnectRequest (stream, st.network)).trans ?_
      exact List.append_nil _
  exact .nothing rfl hmessages

/-! ## Runs -/

/-- The requests of a step on a session. -/
inductive Makes (peer : Peer σ) (st : Station σ) : Step → List Request → Prop where
  /-- A connection is opened, and a setup is proposed on it. -/
  | setup {opened : Stream} {asked : Network σ} :
    openStream peer st.session.options st.network = (.ok opened, asked) →
    Makes peer st .connect [.setup st.session.options.pduLength]
  /-- No connection is opened. -/
  | unopened {cause : TransportError} {asked : Network σ} :
    openStream peer st.session.options st.network = (.error cause, asked) →
    Makes peer st .connect []
  /-- A connection is closed. -/
  | close : Makes peer st .close []
  /-- A job of control is done. -/
  | control {job : Pdu.Control} :
    st.session.state = .ready → Makes peer st (.command (.control job)) [.control job]
  /-- Lists are read or written. -/
  | uses {command : Command} {requests : List Request} :
    (∀ job, command ≠ .control job) → st.session.state = .ready →
    OfUses st.session.pduLength requests → Makes peer st (.command command) requests
  /-- Without a connection nothing is asked for. -/
  | unready {command : Command} :
    st.session.state ≠ .ready → Makes peer st (.command command) []

/-- The requests of steps that are taken one after the other. -/
inductive Counts (peer : Peer σ) : Station σ → List Step → List Request → Prop where
  /-- No step is taken. -/
  | nil {st : Station σ} : Counts peer st [] []
  /-- A step is taken, and then others are. -/
  | cons {st : Station σ} {step : Step} {steps : List Step} {made later : List Request} :
    Makes peer st step made → Posts (perform peer step) st made →
    Counts peer ((perform peer step).outcome st).2 steps later →
    Counts peer st (step :: steps) (made ++ later)

/-- The requests of a step on a session between two calls are known. -/
theorem exists_makes (peer : Peer σ) {st : Station σ} (hsettled : st.session.Settled) {step : Step}
    (hcall : ∀ message, step ≠ .exchange message) :
    ∃ made, Makes peer st step made ∧ Posts (perform peer step) st made := by
  cases step with
  | connect =>
    rcases hopen : openStream peer st.session.options st.network with ⟨cause | opened, asked⟩
    · exact ⟨[], .unopened hopen, (posts_connect_of_unopened hopen).form fun _ => Answer.nothing⟩
    · exact ⟨_, .setup hopen, (posts_connect_of_opened hopen).form fun _ => Answer.nothing⟩
  | close => exact ⟨[], .close, (posts_close peer st).form fun _ => Answer.nothing⟩
  | exchange message => exact absurd rfl (hcall message)
  | command command =>
    by_cases hready : st.session.state = .ready
    -- between two calls a ready session has a connection
    · obtain ⟨stream, hon⟩ := hsettled.exists_readyOn hready
      by_cases hcontrol : ∃ job, command = .control job
      · obtain ⟨job, rfl⟩ := hcontrol
        refine ⟨_, .control hready, ?_⟩
        exact (posts_control peer st.session.options job hon).form fun _ => Answer.nothing
      · obtain ⟨requests, huses, hposts⟩ :=
          ((accounts_law peer st.session.options).perform command).2 st stream hon
        exact ⟨requests, .uses (not_exists.mp hcontrol) hready huses, hposts⟩
    · have hrests : ((perform peer (.command command)).outcome st).2 = st :=
        (rests_perform peer rfl).outcome hready
      refine ⟨[], .unready hready, .nothing ?_ ?_⟩ <;> rw [hrests]

/-- The requests of a run are known: how far the session has counted, and what was sent. -/
theorem exists_counts (peer : Peer σ) {steps : List Step}
    (hcalls : ∀ message, Step.exchange message ∉ steps) {st : Station σ}
    (hsettled : st.session.Settled) :
    let after := (run peer steps st).2
    ∃ requests, Counts peer st steps requests ∧
      after.session.reference = Session.following^[requests.length] st.session.reference ∧
      after.network.messages =
        st.network.messages ++ Request.pdus st.session.reference requests := by
  -- the induction is on the steps, for a session that has counted some requests already
  induction steps generalizing st with
  | nil => exact ⟨[], .nil, rfl, (List.append_nil _).symm⟩
  | cons step steps ih =>
    intro after
    have hcall : ∀ message, step ≠ .exchange message := by
      rintro message rfl
      exact hcalls message List.mem_cons_self
    have hothers : ∀ message, Step.exchange message ∉ steps :=
      fun message hmem => hcalls message (List.mem_cons_of_mem _ hmem)
    obtain ⟨made, hmakes, hposts⟩ := exists_makes peer hsettled hcall
    obtain ⟨later, hcounts, hreference, hmessages⟩ := ih hothers (settled_perform peer step hsettled)
    have hpdus := Request.pdus_append st.session.reference made later
    rw [← Numbers.reference hposts] at hpdus
    refine ⟨made ++ later, .cons hmakes hposts hcounts, ?_, ?_⟩
    · refine hreference.trans ?_
      rw [Numbers.reference hposts, ← Function.iterate_add_apply, List.length_append, Nat.add_comm]
    · refine hmessages.trans ?_
      rw [Numbers.messages hposts, hpdus, List.append_assoc]

/-- A message is that of the request with a number, counted from one, and carries the reference of
that number. -/
def CarriesNumber (requests : List Request) (n : Nat) (message : Bytes) : Prop :=
  ∃ request, 0 < n ∧ requests[n - 1]? = some request ∧
    request.pdu (Session.numbered n) = .ok message ∧
    ∃ header body, Pdu.Header.decode message = .ok (header, body) ∧
      header.reference = Session.numbered n

/-- The messages of requests, each with its number. -/
theorem exists_numbers (before requests : List Request) :
    ∃ numbers : List Nat, numbers.Pairwise (· < ·) ∧ (∀ n ∈ numbers, before.length < n) ∧
      List.Forall₂ (CarriesNumber (before ++ requests)) numbers
        (Request.pdus (Session.numbered before.length) requests) := by
  -- the induction is on the requests that are left, behind some whose messages are known
  induction requests generalizing before with
  | nil => exact ⟨[], .nil, List.forall_mem_nil _, .nil⟩
  | cons request requests ih =>
    have hnext : Session.following (Session.numbered before.length) =
        Session.numbered (before.length + 1) :=
      (Function.iterate_succ_apply' Session.following before.length 0).symm
    obtain ⟨numbers, hpairwise, hbehind, hcarries⟩ := ih (before ++ [request])
    rw [List.length_append, List.length_singleton] at hbehind hcarries
    rw [List.append_assoc, List.singleton_append] at hcarries
    rw [Request.pdus, hnext]
    cases hpdu : request.pdu (Session.numbered (before.length + 1)) with
    | error e =>
      refine ⟨numbers, hpairwise, ?_, hcarries⟩
      intro n hn
      exact Nat.lt_of_succ_lt (hbehind n hn)
    | ok message =>
      obtain ⟨hmessage, -⟩ := Request.pdu_eq_ok_iff.mp hpdu
      refine ⟨(before.length + 1) :: numbers, .cons hbehind hpairwise, ?_, .cons ?_ hcarries⟩
      · rw [List.forall_mem_cons]
        exact ⟨Nat.lt_succ_self _, fun n hn => Nat.lt_of_succ_lt (hbehind n hn)⟩
      · refine ⟨request, Nat.succ_pos _, ?_, hpdu, Request.reference_of_message hmessage⟩
        simp

/-- **References are fresh.** Let a session be new, and let it go through any steps, of which none is
a bare exchange: it is connected and closed, lists are read and written, jobs of control are done, in
any order and with any outcomes, whatever the other end does.

* There is a list of requests, step by step those of `Makes`: one for each connection that was opened,
  one for each job of control, and for a list one for each run of its plan. The session's reference is
  that of the last, `Session.numbered requests.length`; a request that could not be sent is counted.
* The messages that were to be sent since are those of some of the requests, in their order and none
  twice: with each goes the number `n` of its request, strictly increasing, and the message has the
  reference `Session.numbered n` in its header.
* The reference of request `n` is `(n - 1) % 65535 + 1`; none is zero, and for `m < n < m + 65535` those
  of `m` and `n` differ.
* A list whose plan is `runs` takes one request for each run, up to the one with which it fails; all of
  them if it does not fail (`PostsRuns`). -/
theorem references_fresh (peer : Peer σ) (options : Options) (network : Network σ)
    {steps : List Step} (hcalls : ∀ message, Step.exchange message ∉ steps) :
    let start : Station σ := { session := { options }, network }
    let after := (run peer steps start).2
    (∃ requests numbers messages, Counts peer start steps requests ∧
      after.session.reference = Session.numbered requests.length ∧
      after.network.messages = network.messages ++ messages ∧
      numbers.Pairwise (· < ·) ∧ List.Forall₂ (CarriesNumber requests) numbers messages) ∧
    (∀ n, 0 < n → (Session.numbered n).toNat = (n - 1) % 65535 + 1 ∧ Session.numbered n ≠ 0 ∧
      ∀ m, 0 < m → m < n → n < m + 65535 → Session.numbered m ≠ Session.numbered n) ∧
    (∀ (here : Station σ) stream items runs, here.session.ReadyOn stream → items ≠ [] →
      Batch.planReads here.session.pduLength items = .ok runs →
      PostsRuns (Batch.readEach (channel peer) items) here .read runs) ∧
    ∀ (here : Station σ) stream pairs runs, here.session.ReadyOn stream → pairs ≠ [] →
      Batch.planWrites here.session.pduLength pairs = .ok runs →
      PostsRuns (Batch.writeEach (channel peer) (pairs.map Prod.fst) (pairs.map Prod.snd)) here .write
        runs := by
  intro start after
  refine ⟨?_, fun n hn => ?_, fun here stream items runs hready hne hplan => ?_,
    fun here stream pairs runs hready hne hplan => ?_⟩
  -- a new session is settled, and has counted no request
  · have hsettled : start.session.Settled := .of_disconnected rfl rfl rfl
    obtain ⟨requests, hcounts, hreference, hmessages⟩ := exists_counts peer hcalls hsettled
    obtain ⟨numbers, hpairwise, -, hcarries⟩ := exists_numbers [] requests
    exact ⟨requests, numbers, _, hcounts, hreference, hmessages, hpairwise, hcarries⟩
  · refine ⟨Session.toNat_numbered hn, Session.numbered_ne_zero hn, ?_⟩
    intro m hm hmn hnear
    exact Session.numbered_ne hm hmn hnear
  · exact postsRuns_readEach hne hready hplan
  · exact postsRuns_writeEach hne hready hplan

/-- A controller is to insert a block whose number is too large, and then to stop: what could not be
asked for had number two, and so the next request has number three. -/
theorem references_fresh_inexpressible :
    let network : Network (List Reply) := { peer := greeting 240, sent := [] }
    let steps : List Step :=
      [.connect, .command (.control (.insert .db 100000 .passive)), .command (.control .stop), .close]
    let after := (run scripted steps { session := { options := .ofFamily "plc" .s71500 }, network }).2
    (∀ message, Step.exchange message ∉ steps) ∧ after.session.reference = 3 ∧
      ∃ requests numbers messages,
        after.session.reference = Session.numbered requests.length ∧
        after.network.messages = messages ∧ List.Forall₂ (CarriesNumber requests) numbers messages := by
  intro network steps after
  have hcalls : ∀ message, Step.exchange message ∉ steps := by
    intro message
    simp [steps]
  obtain ⟨⟨requests, numbers, messages, -, hreference, hmessages, -, hcarries⟩, -⟩ :=
    references_fresh scripted (.ofFamily "plc" .s71500) network hcalls
  exact ⟨hcalls, by decide +kernel, requests, numbers, messages, hreference, hmessages, hcarries⟩

end Station

end S7Comm
