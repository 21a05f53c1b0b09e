import S7Comm.Proofs.Answer
import S7Comm.Proofs.Conversation
import S7Comm.Proofs.Fragments
import S7Comm.Proofs.Plan

/-!
# What is taken for read

Whatever the other end sends, a list that was read was read as planned: each run was asked for with a
request of its own, what came back was a sound answer to just that request, and what is returned for
the run is what stands in that answer. Where what came back was no such answer, nothing more was sent,
and the reading failed.

**Sound answers.**

* `Pdu.Acknowledges access reference count response data`: the message is an acknowledgment with data
  and without a report, it repeats the reference, the function and the number of items, and `data` is
  its data block.
* `Pdu.AnswersRead reference run response items`: it acknowledges the request for `run`, `decodeItems
  0 run.length data = .ok (items, [])`, and an item of CPU memory that succeeded has as many bytes as
  were asked for (`Pdu.Fulfils`).
* `Batch.checkReadResponse_eq_ok_iff_sound`: the check of a client accepts exactly these,
  `checkReadResponse response reference run = .ok items ↔ Pdu.AnswersRead reference run response
  items`. So nothing that is said below is said of the check.

**Runs.** `Station.Reads reference runs exchanges found` follows the reading of `runs` one after the
other over all that passed on the connection. It has a case for the end, one for a run with a sound
answer, and one for a run without; behind the last nothing is sent. One run is
`Station.readRun_cases`, and `Station.reads_mapM` is the induction on the runs.

**Main result** (`Station.received`): what this means for a list of items, with and without a look at
the return codes of the items.

Which runs a plan has is not the business of this module (`plans_divide_exactly`), and neither is what
other requests are answered with (`Station.Converses`).
-/

namespace S7Comm

open Call

/-! ## Sound answers

An answer is described from outside, by what stands in it; the description does not follow the order
in which it is checked, nor does it say what is reported of an answer that is not sound.
-/

namespace Pdu

/-- A message acknowledges a request: it is an acknowledgment with data, without a report, which
repeats the reference, the function and the number of items, and has a data block. -/
def Acknowledges (access : Access) (reference : UInt16) (count : Nat) (response data : Bytes) :
    Prop :=
  ∃ header body number more, Header.decode response = .ok (header, body) ∧ header.kind = .ackData ∧
    header.report = ⟨0, 0⟩ ∧ header.reference = reference ∧
    header.splitBlocks body = .ok (access.code :: number :: more, data) ∧ number.toNat = count

/-- An item that was read of the memory has just the bytes that were asked for, `payload.length =
place.dataLength`, if it succeeded. Nothing is demanded of an item that failed, and nothing of one of
a numerical control, of which it is not known beforehand how long it is. -/
def Fulfils (request : RequestItem) (item : DataItem) : Prop :=
  ∀ place, request = .standard place → item.isSuccess = true → item.payload.length = place.dataLength

/-- A message is a sound answer to a request to read a run, and has some items: it acknowledges the
request, its data block is a row of just these items, and each has the bytes that were asked for. -/
structure AnswersRead (reference : UInt16) (run : List RequestItem) (response : Bytes)
    (items : List DataItem) : Prop where
  /-- The items are those of the data block. -/
  acknowledged : ∃ data, Acknowledges .read reference run.length response data ∧
    decodeItems 0 run.length data = .ok (items, [])
  /-- There is one for each that was asked for, with its bytes. -/
  fulfilled : List.Forall₂ Fulfils run items

/-- An answer is opened exactly if it has a header, this is of an acknowledgment with data and without
a report, and behind it are as many bytes at least as the two blocks are declared to have. -/
theorem openAnswer_eq_ok_iff {response parameters data : Bytes} {header : Header} :
    openAnswer response = .ok (header, parameters, data) ↔
      ∃ body, Header.decode response = .ok (header, body) ∧ header.kind = .ackData ∧
        header.report = ⟨0, 0⟩ ∧ header.splitBlocks body = .ok (parameters, data) := by
  simp only [openAnswer, except_bind_eq_ok_iff, lift_framing_eq_ok_iff]
  constructor
  · rintro ⟨⟨header, body⟩, hdecode, _, -, _, hreport, _, hkind, ⟨_, _⟩, hsplit, hend⟩
    cases hend
    exact ⟨body, hdecode, Header.requireAckData_eq_ok_iff.mp hkind,
      Header.requireNoReport_eq_ok_iff.mp (mapError_eq_ok_iff.mp hreport), hsplit⟩
  · rintro ⟨body, hdecode, hkind, hreport, hsplit⟩
    exact ⟨(header, body), hdecode, (), Header.requireAck_of_ackData hkind, (),
      mapError_eq_ok_iff.mpr (Header.requireNoReport_eq_ok_iff.mpr hreport), (),
      Header.requireAckData_eq_ok_iff.mpr hkind, (parameters, data), hsplit, rfl⟩

/-- The number of items is the byte behind the function. -/
theorem Access.decodeCount_eq_ok_iff {access : Access} {parameters : Bytes} {number : UInt8} :
    access.decodeCount parameters = .ok number ↔
      ∃ more, parameters = access.code :: number :: more := by
  unfold Access.decodeCount
  split
  · next function count more =>
    split
    · next hfunction =>
      subst hfunction
      constructor
      · rintro ⟨⟩
        exact ⟨more, rfl⟩
      · rintro ⟨_, heq⟩
        cases heq
        rfl
    · next hfunction =>
      refine iff_of_false nofun ?_
      rintro ⟨_, heq⟩
      cases heq
      exact hfunction rfl
  · next hshort =>
    refine iff_of_false nofun ?_
    rintro ⟨more, heq⟩
    exact hshort _ _ _ heq

/-- As many items are decoded as were to be decoded: `items.length = count`. By induction on the
number. -/
theorem length_of_decodeItems {index count : Nat} {bytes rest : Bytes} {items : List DataItem}
    (h : decodeItems index count bytes = .ok (items, rest)) : items.length = count := by
  induction count generalizing index bytes items with
  | zero =>
    cases h
    rfl
  | succ count ih =>
    simp only [decodeItems, except_bind_eq_ok_iff] at h
    obtain ⟨⟨item, behind⟩, -, ⟨others, rest'⟩, hothers, hend⟩ := h
    cases hend
    rw [List.length_cons, ih hothers]

end Pdu

namespace Batch

/-- The check of payloads is passed exactly by items that have the bytes that were asked for, item by
item, whichever position the first is given; the position shows only in an error. By induction on the
items that were asked for. -/
theorem checkPayloads_eq_ok_iff {requests : List RequestItem} {items : List DataItem}
    (hlength : items.length = requests.length) (index : Nat) :
    checkPayloads index requests items = .ok () ↔ List.Forall₂ Pdu.Fulfils requests items := by
  induction requests generalizing items index with
  | nil =>
    obtain rfl := List.eq_nil_of_length_eq_zero hlength
    exact iff_of_true rfl .nil
  | cons request requests ih =>
    cases items with
    | nil => cases hlength
    | cons item items =>
      have hrest := ih (Nat.succ.inj hlength) (index + 1)
      rw [List.forall₂_cons, ← hrest]
      -- of data of a numerical control nothing is demanded
      cases request with
      | nck request => exact (and_iff_right fun _ h => nomatch h).symm
      | standard place =>
        change (if item.isSuccess ∧ item.payload.length ≠ place.dataLength then _
          else checkPayloads (index + 1) requests items) = _ ↔ _
        split
        · next hshort =>
          refine iff_of_false nofun fun h => hshort.2 ?_
          exact h.1 place rfl hshort.1
        · next hfull =>
          refine (and_iff_right ?_).symm
          rintro _ ⟨⟩ hsuccess
          by_contra hne
          exact hfull ⟨hsuccess, hne⟩

/-- **Only sound answers are taken**: `checkReadResponse response reference run = .ok items ↔
Pdu.AnswersRead reference run response items`, for any bytes. The one side follows the order of the
checks, the other says what stands in the answer; so what is proved below about sound answers does not
depend on that order. -/
theorem checkReadResponse_eq_ok_iff_sound {response : Bytes} {reference : UInt16}
    {run : List RequestItem} {items : List DataItem} :
    checkReadResponse response reference run = .ok items ↔
      Pdu.AnswersRead reference run response items := by
  rw [checkReadResponse_eq_ok_iff]
  constructor
  · rintro ⟨header, hdecode, hreference, hlength, hpayloads⟩
    simp only [Pdu.decodeReadResponse, except_bind_eq_ok_iff, lift_framing_eq_ok_iff,
      guard_eq_ok_iff] at hdecode
    obtain ⟨⟨found, parameters, data⟩, hopen, number, hnumber, ⟨_, rest⟩, hitems, hrest, hend⟩ :=
      hdecode
    cases hend
    obtain ⟨body, hheader, hkind, hreport, hsplit⟩ := Pdu.openAnswer_eq_ok_iff.mp hopen
    obtain ⟨more, rfl⟩ := Pdu.Access.decodeCount_eq_ok_iff.mp hnumber
    obtain rfl : rest = [] := not_not.mp hrest
    -- as many items were decoded as the answer tells, and as many as the run has
    have hcount : number.toNat = run.length := (Pdu.length_of_decodeItems hitems).symm.trans hlength
    rw [hcount] at hitems
    exact ⟨⟨data, ⟨found, body, number, more, hheader, hkind, hreport,
      Pdu.Header.requireReference_eq_ok_iff.mp hreference, hsplit, hcount⟩, hitems⟩,
      (checkPayloads_eq_ok_iff hlength 0).mp hpayloads⟩
  · rintro ⟨⟨data, ⟨header, body, number, more, hheader, hkind, hreport, hreference, hsplit,
      hcount⟩, hitems⟩, hfulfilled⟩
    have hlength := Pdu.length_of_decodeItems hitems
    refine ⟨header, ?_, Pdu.Header.requireReference_eq_ok_iff.mpr hreference, hlength,
      (checkPayloads_eq_ok_iff hlength 0).mpr hfulfilled⟩
    simp only [Pdu.decodeReadResponse, except_bind_eq_ok_iff, lift_framing_eq_ok_iff,
      guard_eq_ok_iff]
    rw [← hcount] at hitems
    exact ⟨_, Pdu.openAnswer_eq_ok_iff.mpr ⟨body, hheader, hkind, hreport, hsplit⟩, number,
      Pdu.Access.decodeCount_eq_ok_iff.mpr ⟨more, rfl⟩, (items, []), hitems, not_not_intro rfl, rfl⟩

end Batch

namespace Batch

variable {S : Type} {c : Channel S} {items : List RequestItem} {s s' : S}

/-- A list that was read could be read: backwards from a success, requests could be sent at the start,
and the list could be divided, as there is no other way past these two. -/
theorem planned_of_readEach {results : List DataItem} (hne : items ≠ [])
    (h : readEach c items s = .ok results s') :
    c.checkReady s = .ok () ∧ ∃ runs, planReads (c.budget s) items = .ok runs := by
  unfold readEach at h
  rw [if_neg hne] at h
  have hensure : c.ensureReady s = ofExcept (c.checkReady s) s := rfl
  have hbudget : c.pduBudget s = .ok (c.budget s) s := rfl
  cases hready : c.checkReady s with
  | error e =>
    rw [hready] at hensure
    rw [bind_of_error (hensure.trans (ofExcept_error e s))] at h
    cases h
  | ok =>
    rw [hready] at hensure
    rw [bind_of_ok (hensure.trans (ofExcept_ok _ s)), bind_of_ok hbudget] at h
    cases hplan : planReads (c.budget s) items with
    | ok runs => exact ⟨rfl, runs, rfl⟩
    | error e =>
      rw [hplan] at h
      cases h

/-- To look at the return codes changes nothing but an outcome, and this only from a success to a
failure: the state is the same afterwards, what was read strictly was read, and an error in reading is
the error of the strict reading. -/
theorem readAll_of_readEach (c : Channel S) (items : List RequestItem) (s : S) :
    ((readAll c items).outcome s).2 = ((readEach c items).outcome s).2 ∧
      (∀ results, ((readAll c items).outcome s).1 = .ok results →
        ((readEach c items).outcome s).1 = .ok results) ∧
      (∀ e, ((readEach c items).outcome s).1 = .error e →
        ((readAll c items).outcome s).1 = .error e) := by
  refine ⟨outcome_bind_check _ _ _, ?_⟩
  rw [readAll]
  cases hcall : readEach c items s with
  | error e after =>
    rw [outcome_of_error hcall, outcome_of_error (bind_of_error hcall _)]
    exact ⟨nofun, fun _ h => h⟩
  | ok results after =>
    rw [outcome_of_ok hcall]
    refine ⟨fun results' h => ?_, nofun⟩
    rw [Call.outcome, bind_of_ok hcall] at h
    cases hcodes : checkCodes (results.map DataItem.returnCode) with
    | ok =>
      rw [hcodes] at h
      exact h
    | error e =>
      rw [hcodes] at h
      cases h

end Batch

namespace Station

variable {σ : Type} {peer : Peer σ} {st : Station σ} {stream : Stream}

/-! ## Runs

One run is one request, and the ways of a request are `Station.Passes`. Three of them do not occur
here, as a run of a plan can be expressed, fits a packet, and the session has a connection.
-/

/-- A packet asks for a run under a reference. -/
def AsksToRead (reference : UInt16) (run : List RequestItem) (packet : Bytes) : Prop :=
  ∃ message, Pdu.encodeReadRequest reference run = .ok message ∧ Iso.wrapData message = .ok packet

/-- Runs are asked for one after the other, from the request behind the one with a given reference
on. What was read is what stands in the answers, if all of them are sound; behind one that is not,
or that does not come, nothing is asked for. -/
inductive Reads : UInt16 → List (List RequestItem) → List (Bytes × Except TransportError Bytes) →
    Option (List (List DataItem)) → Prop where
  /-- All runs have been read. -/
  | done {reference : UInt16} : Reads reference [] [] (some [])
  /-- A run is read, and then others are. -/
  | read {reference : UInt16} {run : List RequestItem} {packet response : Bytes}
      {items : List DataItem} {runs : List (List RequestItem)}
      {exchanges : List (Bytes × Except TransportError Bytes)}
      {found : Option (List (List DataItem))} :
    AsksToRead (Session.following reference) run packet →
    Pdu.AnswersRead (Session.following reference) run response items →
    Reads (Session.following reference) runs exchanges found →
    Reads reference (run :: runs) ((packet, .ok response) :: exchanges) (found.map (items :: ·))
  /-- A run is asked for in vain. -/
  | givenUp {reference : UInt16} {run : List RequestItem} {packet : Bytes}
      {reply : Except TransportError Bytes} {runs : List (List RequestItem)} :
    AsksToRead (Session.following reference) run packet →
    (∀ response items, reply = .ok response →
      ¬ Pdu.AnswersRead (Session.following reference) run response items) →
    Reads reference (run :: runs) [(packet, reply)] none

/-- A run that can be asked for, read on a ready session: it is asked for, and what is found is what
stands in the answer, which is a sound one; or there is no sound answer. -/
theorem readRun_cases (peer : Peer σ) {run : List RequestItem} (hne : run ≠ [])
    (hcount : run.length ≤ Pdu.Access.maxItems) (hready : st.session.ReadyOn stream) :
    let reference := Session.following st.session.reference
    ∃ packet, AsksToRead reference run packet ∧
      match Batch.readRun (channel peer) run st with
      | .ok items after => ∃ response stream',
        peer.reply packet (stream, st.network) = .ok (response, stream') ∧
        Pdu.AnswersRead reference run response items ∧ after.session.ReadyOn stream' ∧
        after.session.reference = reference ∧ after.network = peer.behind packet (stream, st.network)
      | .error _ after => after.network = peer.behind packet (stream, st.network) ∧
        ∀ response items, (peer.reply packet (stream, st.network)).map Prod.fst = .ok response →
          ¬ Pdu.AnswersRead reference run response items := by
  intro reference
  have hencode : Pdu.encodeReadRequest reference run = .ok _ :=
    Pdu.encodeReadRequest_eq_ok_iff.mpr ⟨hne, hcount, rfl⟩
  have hfits := Iso.wrapData_eq_ok (Pdu.length_readRequest_le reference hcount)
  have hpasses : Passes (fun reference => Pdu.encodeReadRequest reference run)
      (fun reference response => Batch.checkReadResponse response reference run) peer st
      (Batch.readRun (channel peer) run st) := passes_ask _ _ peer hready.state
  generalize Batch.readRun (channel peer) run st = result at hpasses ⊢
  cases hpasses with
  | unexpressed hrequest _ => cases hencode.symm.trans hrequest
  | unconnected _ hnone _ => cases hnone.symm.trans hready.stream
  | unsent hrequest hwrap _ =>
    obtain rfl := Except.ok.inj (hencode.symm.trans hrequest)
    cases hfits.symm.trans hwrap
  | unanswered hstream hrequest hwrap hreply hafter =>
    obtain rfl := Option.some.inj (hstream.symm.trans hready.stream)
    refine ⟨_, ⟨_, hrequest, hwrap⟩, hafter, ?_⟩
    rw [hreply]
    exact nofun
  | refused hstream hrequest hwrap hreply hrefused hafter =>
    obtain rfl := Option.some.inj (hstream.symm.trans hready.stream)
    refine ⟨_, ⟨_, hrequest, hwrap⟩, hafter, ?_⟩
    rw [hreply]
    rintro response items ⟨⟩ hsound
    cases hrefused.symm.trans (Batch.checkReadResponse_eq_ok_iff_sound.mpr hsound)
  | accepted hstream hrequest hwrap hreply haccepted hafter =>
    obtain rfl := Option.some.inj (hstream.symm.trans hready.stream)
    subst hafter
    exact ⟨_, ⟨_, hrequest, hwrap⟩, _, _, hreply,
      Batch.checkReadResponse_eq_ok_iff_sound.mp haccepted, ⟨hready.state, rfl⟩, rfl, rfl⟩

/-- The runs of a plan, read on a ready session: all that is sent is part of a conversation, but for
the last packet if its answer is not sound. The induction is on the runs. -/
theorem reads_mapM {runs : List (List RequestItem)}
    (hruns : ∀ run ∈ runs, run ≠ [] ∧ run.length ≤ Pdu.Access.maxItems)
    (hready : st.session.ReadyOn stream) :
    ∃ exchanges stream' network,
      peer.Converses (stream, st.network) exchanges (stream', network) ∧
      match runs.mapM (Batch.readRun (channel peer)) st with
      | .ok answers after => after.network = network ∧
        Reads st.session.reference runs
          (exchanges.map fun exchange => (exchange.1, .ok exchange.2)) (some answers)
      | .error _ after => ∃ packet, after.network = peer.behind packet (stream', network) ∧
        Reads st.session.reference runs
          (exchanges.map (fun exchange => (exchange.1, .ok exchange.2)) ++
            [(packet, (peer.reply packet (stream', network)).map Prod.fst)]) none := by
  -- the induction is on the runs, for a session that has been used already
  induction runs generalizing st stream with
  | nil => exact ⟨[], stream, st.network, .nil, rfl, .done⟩
  | cons run runs ih =>
    obtain ⟨hne, hcount⟩ := hruns run List.mem_cons_self
    obtain ⟨packet, hasks, hfirst⟩ := readRun_cases peer hne hcount hready
    rw [List.mapM_cons]
    cases hrun : Batch.readRun (channel peer) run st with
    | error e after =>
      rw [hrun] at hfirst
      rw [bind_of_error hrun]
      exact ⟨[], stream, st.network, .nil, packet, hfirst.1, .givenUp hasks hfirst.2⟩
    | ok items middle =>
      rw [hrun] at hfirst
      obtain ⟨response, stream', hreply, hsound, hready', hreference, hnetwork⟩ := hfirst
      obtain ⟨exchanges, stream'', network, htalk, hend⟩ :=
        ih (fun other hother => hruns other (List.mem_cons_of_mem _ hother)) hready'
      rw [hnetwork] at htalk
      rw [hreference] at hend
      rw [bind_of_ok hrun]
      refine ⟨(packet, response) :: exchanges, stream'', network, .cons hreply htalk, ?_⟩
      cases hrest : runs.mapM (Batch.readRun (channel peer)) middle with
      | ok answers after =>
        rw [hrest] at hend
        rw [bind_of_ok hrest]
        exact ⟨hend.1, .read hasks hsound hend.2⟩
      | error e after =>
        rw [hrest] at hend
        obtain ⟨last, hafter, hreads⟩ := hend
        rw [bind_of_error hrest]
        exact ⟨last, hafter, .read hasks hsound hreads⟩

/-! ## Lists of items

Backwards: a list that was read had a plan, and there was a connection, so that the lemmas about a
ready session apply. An error on the way does not say as much.
-/

variable {items : List RequestItem}

/-- Where requests can be sent, a list whose runs are known is read run by run, and the items of the
runs are put in a row. -/
theorem readEach_of_planned (hne : items ≠ []) (hready : st.session.state = .ready)
    {runs : List (List RequestItem)}
    (hplan : Batch.planReads st.session.pduLength items = .ok runs) :
    Batch.readEach (channel peer) items st =
      (runs.mapM (Batch.readRun (channel peer)) >>= fun answers => pure answers.flatten) st := by
  unfold Batch.readEach
  rw [if_neg hne]
  exact Channel.divided_eq (checkReady_of_ready peer hready) hplan

/-- A list whose runs are known, read on a ready session. The packets that were sent are those of the
exchanges; the runs were asked for in their order, and each that was answered soundly has its items in
`found`. If all were, these in a row are the outcome; if one was not, the outcome is an error. -/
theorem reads_readEach (hne : items ≠ []) (hready : st.session.ReadyOn stream)
    {runs : List (List RequestItem)} (hplan : Batch.planReads st.session.pduLength items = .ok runs)
    {outcome : Except Error (List DataItem)} {after : Station σ}
    (hrun : (Batch.readEach (channel peer) items).outcome st = (outcome, after)) :
    after.network.sent = st.network.sent ++ (exchanged peer st after).map Prod.fst ∧
      ∃ found, Reads st.session.reference runs (exchanged peer st after) found ∧
        match found with
        | some answers => outcome = .ok answers.flatten
        | none => ∃ e, outcome = .error e := by
  obtain ⟨halone, hparts⟩ := Batch.plan_eq_ok_iff.mp hplan
  have hruns : ∀ run ∈ runs, run ≠ [] ∧ run.length ≤ Pdu.Access.maxItems := by
    intro run hrun
    rw [hparts] at hrun
    obtain ⟨hne, hcount, -⟩ := Batch.runs_fit halone run hrun
    exact ⟨hne, hcount⟩
  obtain ⟨exchanges, stream', network, htalk, hend⟩ := reads_mapM hruns hready
  rw [Call.outcome, readEach_of_planned hne hready.state hplan] at hrun
  cases hmapM : runs.mapM (Batch.readRun (channel peer)) st with
  | ok answers after =>
    rw [hmapM] at hend
    obtain ⟨hexchanged, hsent⟩ := exchanged_eq hready htalk hend.1
    rw [bind_of_ok hmapM] at hrun
    cases hrun
    refine ⟨hsent, some answers, ?_, rfl⟩
    rw [hexchanged]
    exact hend.2
  | error e after =>
    rw [hmapM] at hend
    -- one packet more was sent, whose answer was none or not sound
    obtain ⟨packet, hafter, hreads⟩ := hend
    obtain ⟨hexchanged, hsent⟩ := exchanged_eq_append hready htalk hafter
    rw [bind_of_error hmapM] at hrun
    cases hrun
    refine ⟨hsent, none, ?_, e, rfl⟩
    rw [hexchanged]
    exact hreads

/-- A run is read over a connection only: where it was read, there was one. For the state alone does
not say so, and a session that is ready without a connection cannot exchange anything. -/
theorem readyOn_of_readRun {run : List RequestItem} {found : List DataItem} {after : Station σ}
    (hready : st.session.state = .ready)
    (h : Batch.readRun (channel peer) run st = .ok found after) :
    ∃ stream, st.session.ReadyOn stream := by
  have hpasses : Passes (fun reference => Pdu.encodeReadRequest reference run)
      (fun reference response => Batch.checkReadResponse response reference run) peer st
      (Batch.readRun (channel peer) run st) := passes_ask _ _ peer hready
  rw [h] at hpasses
  cases hpasses with
  | accepted hstream => exact ⟨_, hready, hstream⟩

/-- So is a list of items. -/
theorem readyOn_of_readEach {results : List DataItem} {after : Station σ} (hne : items ≠ [])
    (h : Batch.readEach (channel peer) items st = .ok results after) :
    ∃ stream, st.session.ReadyOn stream := by
  obtain ⟨hcheck, runs, hplan⟩ := Batch.planned_of_readEach hne h
  have hready : st.session.state = .ready := by
    by_contra hstate
    obtain ⟨e, he, -⟩ := ensureReady_of_not_ready peer hstate
    cases hcheck.symm.trans he
  rw [readEach_of_planned hne hready hplan] at h
  cases runs with
  | nil =>
    have hitems := Batch.flatten_runs Batch.readDemand ((channel peer).budget st).toNat items
    rw [← (Batch.plan_eq_ok_iff.mp hplan).2] at hitems
    exact absurd hitems.symm hne
  | cons run runs =>
    rw [List.mapM_cons] at h
    obtain ⟨_, _, hruns, -⟩ := ok_of_bind h
    obtain ⟨found, middle, hrun, -⟩ := ok_of_bind hruns
    exact readyOn_of_readRun hready hrun

/-- **What is returned was received.** Whatever the other end does, and whether all items have to
succeed or not: if a list of items was read, its runs are those of its plan,
`Batch.planReads st.session.pduLength items = .ok runs`; one after the other, each was asked for under
a reference of its own and was given a sound answer (`Reads`, `Pdu.AnswersRead`); nothing else was
sent; and `results = answers.flatten`, one for each item, are the items of the answers. Where a session
that is ready on a connection is to read a list that can be divided, this is how it begins, and behind
an answer that is not sound, or that does not come, nothing is sent, and the reading fails. -/
theorem received (peer : Peer σ) (st : Station σ) {items : List RequestItem} (hne : items ≠ [])
    (strict : Bool) :
    let call := if strict then Batch.readAll (channel peer) items
      else Batch.readEach (channel peer) items
    let (outcome, after) := call.outcome st
    (∀ results, outcome = .ok results →
      ∃ runs answers, Batch.planReads st.session.pduLength items = .ok runs ∧
        after.network.sent = st.network.sent ++ (exchanged peer st after).map Prod.fst ∧
        Reads st.session.reference runs (exchanged peer st after) (some answers) ∧
        results = answers.flatten ∧ results.length = items.length) ∧
    (∀ runs stream, st.session.ReadyOn stream →
      Batch.planReads st.session.pduLength items = .ok runs →
      after.network.sent = st.network.sent ++ (exchanged peer st after).map Prod.fst ∧
      ∃ found, Reads st.session.reference runs (exchanged peer st after) found ∧
        (found = none → ∃ e, outcome = .error e)) := by
  intro call
  rcases hrun : (Batch.readEach (channel peer) items).outcome st with ⟨outcome', after'⟩
  rcases hend : call.outcome st with ⟨outcome, after⟩
  -- the look at the return codes comes behind the conversation
  have hcall : after = after' ∧ (∀ results, outcome = .ok results → outcome' = .ok results) ∧
      (∀ e, outcome' = .error e → outcome = .error e) := by
    cases strict with
    | true =>
      have hall := Batch.readAll_of_readEach (channel peer) items st
      change (Batch.readAll (channel peer) items).outcome st = _ at hend
      rw [hrun, hend] at hall
      exact hall
    | false =>
      cases hend.symm.trans hrun
      exact ⟨rfl, fun _ h => h, fun _ h => h⟩
  obtain ⟨rfl, hok, herror⟩ := hcall
  constructor
  -- from a success it follows that there was a plan and a connection
  · intro results hresults
    obtain rfl := hok results hresults
    obtain ⟨-, runs, hplan⟩ := Batch.planned_of_readEach hne (ok_of_outcome hrun)
    obtain ⟨stream, hready⟩ := readyOn_of_readEach hne (ok_of_outcome hrun)
    obtain ⟨hsent, found, hreads, hfound⟩ := reads_readEach hne hready hplan hrun
    cases found with
    | none => exact absurd hfound nofun
    | some answers =>
      cases hfound
      exact ⟨runs, answers, hplan, hsent, hreads, rfl,
        Batch.length_of_readEach ⟨st, _, ok_of_outcome hrun⟩⟩
  · intro runs stream hready hplan
    obtain ⟨hsent, found, hreads, hfound⟩ := reads_readEach hne hready hplan hrun
    refine ⟨hsent, found, hreads, ?_⟩
    rintro rfl
    obtain ⟨e, he⟩ := hfound
    exact ⟨e, herror e he⟩

/-- Two bytes, read with a message each, as both do not fit the answer to one. -/
theorem received_bytes :
    let item (byte : UInt32) : RequestItem :=
      .standard { address := { area := .dataBlock, block := 1, byte, bit := 0 }, type := .byte,
                  count := 1 }
    let reply (reference value : UInt8) : Reply :=
      { bytes := [3, 0, 0, 26, 2, 0xF0, 0x80, 0x32, 3, 0, 0, 0, reference, 0, 2, 0, 5, 0, 0, 4, 1,
          0xFF, 4, 0, 8, value] }
    let here := greeted 30 [reply 2 7, reply 3 9]
    let items := [item 0, item 1]
    let results : List DataItem :=
      [7, 9].map fun value => { returnCode := .success, size := .byte, payload := [value] }
    let (outcome, after) := (Batch.readAll (channel scripted) items).outcome here
    items ≠ [] ∧ outcome = .ok results ∧
      ∃ runs answers, Batch.planReads here.session.pduLength items = .ok runs ∧
        Reads here.session.reference runs (exchanged scripted here after) (some answers) ∧
        results = answers.flatten := by
  intro item reply here items results
  have hne : items ≠ [] := List.cons_ne_nil _ _
  have houtcome : ((Batch.readAll (channel scripted) items).outcome here).1 = .ok results := by
    decide +kernel
  obtain ⟨runs, answers, hplan, -, hreads, hresults, -⟩ :=
    (received scripted here hne true).1 results houtcome
  exact ⟨hne, houtcome, runs, answers, hplan, hreads, hresults⟩

end Station

end S7Comm
