import Mathlib
import S7Comm.Proofs.Conversation
import S7Comm.Proofs.Fragments
import S7Comm.Proofs.Plan

/-!
# Reading in parts is reading

A list of items is read with as many messages as the agreed length demands. Against a controller that
answers each item by itself, nothing of that can be seen in the result: it is what the controller
answers to the items, in their order, and so it is the same for every length that leaves room for each
item alone.

* **The controller** is given by a function `f : StandardItem → Answered` from items to answers, each
  of which suits its item (`Suits`). What it does on a channel is `Channel.Reads`, what it does on a
  network `Peer.AnswersReads`: there its answer may come in any fragments.
* `Station.Quiet`: the session is ready on a connection on which nothing has arrived that was not
  read. `Station.channel_reads`: against such a controller it is such a channel.
* `Batch.readRun_ok` is one message, `Batch.readEach_ok` the list, by the runs of its plan.

Which items share a message decides which of them are followed by a fill byte, and a failure takes its
fill byte away; that is dealt with where answers are put together and taken apart
(`S7Comm.Proofs.Answer`), and does not show here.

**Main result** (`Station.reading_in_parts`), about sessions on a network. Controllers whose answers
change from one message to the next are left out, as is data of a numerical control, whose length is
not known beforehand.
-/

namespace S7Comm

open Call

/-! ## Against a channel -/

section Channel

variable {S : Type}

/-- A channel behind which a controller answers to items by a function, while the state of the channel
is a good one. It has to answer requests that keep to the agreed length and can be answered within
it. -/
structure Channel.Reads (c : Channel S) (budget : UInt16) (f : StandardItem → Answered)
    (good : S → Prop) : Prop where
  /-- Requests can be sent. -/
  ready : ∀ s, good s → c.checkReady s = .ok ()
  /-- The agreed length. -/
  agreed : ∀ s, good s → c.budget s = budget
  /-- To take a reference is no harm. -/
  allocate : ∀ s, good s → good (c.nextReference s).2
  /-- The answer to a request. -/
  exchange : ∀ s, good s → ∀ reference (items : List StandardItem) request,
    Pdu.encodeReadRequest reference (items.map .standard) = .ok request →
    request.length ≤ budget.toNat →
    (Pdu.readAnswer reference (items.map f)).length ≤ budget.toNat →
    ∃ s', c.exchange request s = .ok (Pdu.readAnswer reference (items.map f)) s' ∧ good s'

namespace Batch

/-- Of items of CPU memory, all bytes of the answer are counted beforehand, -/
theorem nckLength_standard (items : List StandardItem) (answers : List Answered) :
    nckLength (items.map .standard) answers = 0 := by
  induction items generalizing answers with
  | nil => rfl
  | cons item items ih =>
    cases answers with
    | nil => rfl
    | cons a answers => exact ih answers

/-- and so is every fill byte. -/
theorem trailingFill_standard (items : List StandardItem) (answers : List Answered) :
    trailingFill (items.map .standard) answers = 0 := by
  induction items generalizing answers with
  | nil => rfl
  | cons item items ih =>
    cases answers with
    | nil => rfl
    | cons a answers =>
      have hmore : ¬ (items.map RequestItem.standard ≠ [] ∧
          (items.map RequestItem.standard).filterMap RequestItem.dataLength? = []) := by
        rintro ⟨hne, hnone⟩
        cases items with
        | nil => exact hne rfl
        | cons next items => simp [RequestItem.dataLength?] at hnone
      rw [List.map_cons, trailingFill, if_neg hmore]
      exact ih answers

/-- A division of a list that was mapped is a division of the list, each part of which was mapped. A
plan divides request items; this is how its parts are those of items of CPU memory. -/
theorem exists_parts_of_flatten_eq_map {α β : Type} {g : α → β} {parts : List (List β)}
    {items : List α} (h : parts.flatten = items.map g) :
    ∃ parts' : List (List α), parts'.map (List.map g) = parts ∧ parts'.flatten = items := by
  induction parts generalizing items with
  | nil =>
    refine ⟨[], rfl, ?_⟩
    exact (List.map_eq_nil_iff.mp h.symm).symm
  | cons part parts ih =>
    rw [List.flatten_cons] at h
    obtain ⟨front, behind, rfl, hfront, hbehind⟩ := List.append_eq_map_iff.mp h
    obtain ⟨parts', hparts, hflatten⟩ := ih hbehind.symm
    refine ⟨front :: parts', ?_, ?_⟩
    · rw [List.map_cons, hfront, hparts]
    · rw [List.flatten_cons, hflatten]

variable {c : Channel S} {budget : UInt16} {f : StandardItem → Answered} {good : S → Prop}

/-- A run that fits is read with one message, and the result is what the controller answers to its
items. -/
theorem readRun_ok (h : c.Reads budget f good) (hsuits : ∀ item, Suits (.standard item) (f item))
    {run : List StandardItem} (hne : run ≠ []) (hcount : run.length ≤ Pdu.Access.maxItems)
    (hfits : (planned readDemand (run.map .standard)).fits budget.toNat) {s : S} (hs : good s) :
    ∃ s', readRun c (run.map .standard) s = .ok (run.map fun item => (f item).item) s' ∧
      good s' := by
  obtain ⟨hrequest, hresponse⟩ := fits_iff.mp hfits
  have hbudget := budget.toNat_lt
  have hne' : run.map RequestItem.standard ≠ [] := List.map_eq_nil_iff.not.mpr hne
  have hcount' : (run.map RequestItem.standard).length ≤ Pdu.Access.maxItems := by
    rw [List.length_map]
    exact hcount
  have hall : List.Forall₂ Suits (run.map .standard) (run.map f) := by
    rw [List.forall₂_map_left_iff, List.forall₂_map_right_iff, List.forall₂_same]
    exact fun item _ => hsuits item
  -- the request and the answer keep to the agreed length
  obtain ⟨request, hencode, hlength⟩ :=
    encodeReadRequest_eq_ok (c.nextReference s).1 hne' hcount'
  have hanswer := length_readAnswer_le hresponse (c.nextReference s).1 hall
  rw [nckLength_standard, trailingFill_standard] at hanswer
  obtain ⟨s', hexchange, hs'⟩ :=
    h.exchange _ (h.allocate s hs) _ run request hencode (hlength.trans_le hrequest) hanswer
  refine ⟨s', ?_, hs'⟩
  refine Channel.request_ok hencode hexchange ?_
  have hblock : (Answered.encodeBlock (run.map f)).length ≤ 65535 := by
    rw [Pdu.readAnswer, Pdu.length_answer] at hanswer
    omega
  rw [checkReadResponse_readAnswer hall hcount' hblock, List.map_map]
  rfl

/-- A list is read, if it can be divided and each of the runs can be read: the result is what was read
of the runs, in a row. -/
theorem readEach_of_runs {items : List RequestItem} {parts : List (List RequestItem)}
    {results : List (List DataItem)} {s s' : S} (hready : c.checkReady s = .ok ())
    (hplan : planReads (c.budget s) items = .ok parts)
    (hruns : parts.mapM (readRun c) s = .ok results s') :
    readEach c items s = .ok results.flatten s' := by
  unfold readEach
  by_cases hitems : items = []
  · subst hitems
    have hnone : parts = [] := (plan_eq_ok_iff.mp hplan).2.trans (runs_nil readDemand _)
    subst hnone
    cases hruns
    rfl
  · rw [if_neg hitems]
    exact Channel.divided_ok hready hplan hruns

/-- A list of items, each of which fits messages of its own, is read, and the result is what the
controller answers to its items. -/
theorem readEach_ok (h : c.Reads budget f good) (hsuits : ∀ item, Suits (.standard item) (f item))
    {items : List StandardItem}
    (hadmits : ∀ item ∈ items, (readSizes (.standard item)).1 ≤ budget.toNat ∧
      (readSizes (.standard item)).2 ≤ budget.toNat) {s : S} (hs : good s) :
    ∃ s', readEach c (items.map .standard) s = .ok (items.map fun item => (f item).item) s' ∧
      good s' := by
  have halone : ∀ item ∈ items.map RequestItem.standard,
      (alone readDemand item).fits budget.toNat := by
    intro item hitem
    obtain ⟨item, hmem, rfl⟩ := List.mem_map.mp hitem
    exact (fits_alone_iff alone_read _ _).mpr (hadmits item hmem)
  obtain ⟨parts, hparts, hflatten⟩ :=
    exists_parts_of_flatten_eq_map (flatten_runs readDemand budget.toNat (items.map .standard))
  have hplan : planReads (c.budget s) (items.map .standard) =
      .ok (parts.map (List.map .standard)) := by
    rw [h.agreed s hs, hparts]
    exact plan_eq_ok_iff.mpr ⟨halone, rfl⟩
  -- the results so far are what the controller answers to the runs so far
  have hstep : ∀ done part rest results s, done ++ part :: rest = parts →
      results = done.map (List.map fun item => (f item).item) ∧ good s →
      ∃ result s', (readRun c ∘ List.map .standard) part s = .ok result s' ∧
        results ++ [result] = (done ++ [part]).map (List.map fun item => (f item).item) ∧
        good s' := by
    rintro done part rest _ s hpart ⟨rfl, hs⟩
    have hrun : part.map RequestItem.standard ∈
        runs readDemand budget.toNat (items.map .standard) := by
      rw [← hparts, ← hpart]
      exact List.mem_map_of_mem (List.mem_append_right done List.mem_cons_self)
    obtain ⟨hne, hcount, hfits⟩ := runs_fit halone _ hrun
    rw [List.length_map] at hcount
    obtain ⟨s', hread, hs'⟩ :=
      readRun_ok h hsuits (List.map_eq_nil_iff.not.mp hne) hcount hfits hs
    refine ⟨_, s', hread, ?_, hs'⟩
    rw [List.map_append]
    rfl
  obtain ⟨results, s', hruns, hresults, hs'⟩ := mapM_ok_of_steps
    (fun done results s => results = done.map (List.map fun item => (f item).item) ∧ good s)
    hstep ⟨rfl, hs⟩
  refine ⟨s', ?_, hs'⟩
  rw [← List.mapM_map] at hruns
  rw [readEach_of_runs (h.ready s hs) hplan hruns, hresults, ← List.map_flatten, hflatten]

end Batch

end Channel

/-! ## On a network -/

section Network

variable {σ : Type}

/-- The other end is a controller that answers to items by a function, in fragments as it likes, and
keeps the connection open. It has to answer requests that keep to the agreed length and can be
answered within it. -/
def Peer.AnswersReads (peer : Peer σ) (budget : UInt16) (f : StandardItem → Answered) : Prop :=
  ∀ (state : σ) (reference : UInt16) (items : List StandardItem) (request packet : Bytes),
    Pdu.encodeReadRequest reference (items.map .standard) = .ok request →
    Iso.wrapData request = .ok packet →
    request.length ≤ budget.toNat →
    (Pdu.readAnswer reference (items.map f)).length ≤ budget.toNat →
    ∃ m : Iso.Fragmented, m.message = Pdu.readAnswer reference (items.map f) ∧
      (peer.receive packet state).1 = { bytes := m.bytes }

namespace Station

/-- A ready session on an open connection on which nothing has arrived that was not read. -/
def Quiet (st : Station σ) : Prop :=
  st.session.ReadyOn .fresh

/-- A message whose answer comes in fragments is exchanged for that answer, and nothing is left
unread. The other end is then as the message has left it. -/
theorem exchange_ok {peer : Peer σ} {st : Station σ} {message packet : Bytes} {m : Iso.Fragmented}
    (hquiet : st.Quiet) (hwrap : Iso.wrapData message = .ok packet)
    (hreply : (peer.receive packet st.network.peer).1 = { bytes := m.bytes }) :
    ∃ after, exchange peer message st = .ok m.message after ∧ after.Quiet ∧
      after.session.pduLength = st.session.pduLength ∧
      after.network.peer = (peer.receive packet st.network.peer).2 := by
  have hsend : (peer.send packet .fresh st.network).1 = .ok { unread := m.bytes ++ [] } := by
    unfold Peer.send
    dsimp only
    rw [hreply, List.append_nil]
    rfl
  have hreply : peer.reply packet (.fresh, st.network) = .ok (m.message, .fresh) := by
    rw [Peer.reply, hsend]
    exact Stream.readMessage_fragmented m [] none
  exact ⟨_, exchange_of_answered hquiet hwrap hreply, ⟨hquiet.state, rfl⟩, rfl, rfl⟩

/-- A session against such a controller is such a channel, while it is quiet. -/
theorem channel_reads {peer : Peer σ} {budget : UInt16} {f : StandardItem → Answered}
    (h : peer.AnswersReads budget f) :
    (channel peer).Reads budget f fun st => st.Quiet ∧ st.session.pduLength = budget where
  ready st hst := checkReady_of_ready peer hst.1.state
  agreed st hst := hst.2
  allocate st hst := ⟨⟨hst.1.state, hst.1.stream⟩, hst.2⟩
  exchange st hst reference items request hencode hrequest hanswer := by
    obtain ⟨-, hcount, rfl⟩ := Pdu.encodeReadRequest_eq_ok_iff.mp hencode
    have hshort := Pdu.length_readRequest_le reference hcount
    obtain ⟨m, hmessage, hreply⟩ :=
      h st.network.peer reference items _ _ hencode (Iso.wrapData_eq_ok hshort) hrequest hanswer
    obtain ⟨after, hexchange, hquiet, hlength, -⟩ :=
      exchange_ok hst.1 (Iso.wrapData_eq_ok hshort) hreply
    refine ⟨after, ?_, hquiet, hlength.trans hst.2⟩
    rw [← hmessage]
    exact hexchange

end Station

end Network

/-! ## A memory of zeros

An example of a controller, with which it can be seen that the assumptions can be met.
-/

/-- What a memory of zeros answers: as many as are asked for, or a failure, if that many cannot be
declared. -/
def blank (item : StandardItem) : Answered :=
  if h : item.dataLength ≤ 65535 then
    { code := 0xFF, sizeCode := 0x09, field := UInt16.ofNat item.dataLength,
      payload := List.replicate item.dataLength 0
      declared := by
        simp [TransportSize.ofCode, TransportSize.payloadLength]
        omega }
  else { code := 0x05, sizeCode := 0x00, field := 0, payload := [], declared := rfl }

/-- The items that a controller finds in the parameters of a request. -/
def requestedItems : (count : Nat) → Bytes → List StandardItem
  | 0, _ => []
  | count + 1, bytes =>
    match StandardItem.decode bytes with
    | .ok (item, rest) => item :: requestedItems count rest
    | .error _ => []

/-- The controller whose memory holds nothing but zeros. -/
def Peer.blankMemory : Peer Unit where
  accept _ _ _ state := (.taken, state)
  receive packet state :=
    match Pdu.Header.decode (packet.drop 7) with
    | .ok (header, _ :: count :: items) =>
      let answers := (requestedItems count.toNat items).map blank
      match Iso.wrapData (Pdu.readAnswer header.reference answers) with
      | .ok packet => ({ bytes := packet }, state)
      | .error _ => ({ bytes := [], ending := some .unexpectedEof }, state)
    | _ => ({ bytes := [], ending := some .unexpectedEof }, state)

/-- An answer of zeros suits its item, as it has as many as are asked for; or it is a failure, and
then it may have any number. -/
theorem suits_blank (item : StandardItem) : Suits (.standard item) (blank item) := by
  unfold blank
  split
  · next h =>
    exact List.length_replicate
  · next h => rfl

/-- The controller answers to what it finds in the parameters as it would to the items that were asked
for: a place or a bit that is not sent makes no difference to zeros. -/
theorem map_blank_requestedItems (items : List StandardItem) :
    (requestedItems items.length ((items.map .standard).flatMap RequestItem.encode)).map blank =
      items.map blank := by
  induction items with
  | nil => rfl
  | cons item items ih =>
    have hdecode := item.decode_encode ((items.map .standard).flatMap RequestItem.encode)
    rw [List.map_cons, List.flatMap_cons]
    unfold requestedItems
    change List.map blank (match StandardItem.decode (item.encode ++ _) with
      | .ok (item, rest) => item :: requestedItems items.length rest
      | .error _ => []) = _
    rw [hdecode]
    change blank item.sent :: List.map blank (requestedItems items.length _) = _
    rw [ih]
    rfl

/-- It answers every request that can be answered in one packet. -/
theorem Peer.blankMemory_answersReads {budget : UInt16} (hbudget : budget.toNat ≤ 65528) :
    Peer.blankMemory.AnswersReads budget blank := by
  intro state reference items request packet hencode hwrap hrequest hanswer
  obtain ⟨-, hcount, rfl⟩ := Pdu.encodeReadRequest_eq_ok_iff.mp hencode
  have htold := Pdu.Access.toNat_count hcount
  rw [List.length_map] at htold
  have hshort : (Pdu.readRequest reference (items.map .standard)).length ≤ 65528 :=
    hrequest.trans hbudget
  have hshort' : (Pdu.readAnswer reference (items.map blank)).length ≤ 65528 :=
    hanswer.trans hbudget
  obtain rfl := Except.ok.inj ((Iso.wrapData_eq_ok hshort).symm.trans hwrap)
  have hdecode : Pdu.Header.decode
      ((Iso.Fragment.whole (Pdu.readRequest reference (items.map .standard)) hshort).encode.drop 7) =
        .ok (_, Pdu.Access.read.parameters (items.map .standard)) :=
    Pdu.decode_requestHeader reference _ 0 (Pdu.Access.read.parameters (items.map .standard))
  refine ⟨.whole _ hshort', rfl, ?_⟩
  simp only [Peer.blankMemory, hdecode, Pdu.Access.parameters, List.length_map, htold,
    map_blank_requestedItems, Pdu.requestHeader, Iso.wrapData_eq_ok hshort']
  rfl

/-! ## Reading in parts -/

namespace Station

variable {σ : Type}

/-- A session that can read some items: it is ready, the controller on the other end answers by a
function, and each of the items alone fits request and answer. -/
structure CanRead (peer : Peer σ) (f : StandardItem → Answered) (items : List StandardItem)
    (st : Station σ) : Prop where
  /-- The session is ready. -/
  quiet : st.Quiet
  /-- The controller answers. -/
  answers : peer.AnswersReads st.session.pduLength f
  /-- Each item fits. -/
  admits : ∀ item ∈ items, 12 + StandardItem.encodedLength ≤ st.session.pduLength.toNat ∧
    14 + (DataItem.headerLength + item.dataLength) ≤ st.session.pduLength.toNat

/-- **Reading in parts is reading.** Let `f` say of each item what it is answered with, such an answer
as suits the item (`Suits`), and let a controller answer by `f` every request that keeps to the agreed
length and can be answered within it, in whatever fragments. Then, for whatever such controller and
length, and for any list of items of which each alone fits request and answer, an empty list too:
* The outcome is `items.map fun item => (f item).item`, one answer for each item, in their order; the
  session is ready afterwards, and can read the same items again.
* Two sessions, with controllers and lengths of their own, read the same. So the parts into which a
  list is divided do not show in what is read. -/
theorem reading_in_parts {f : StandardItem → Answered}
    (hsuits : ∀ item, Suits (.standard item) (f item)) (items : List StandardItem) :
    (∀ {σ : Type} (peer : Peer σ) (st : Station σ), st.CanRead peer f items →
      let (outcome, after) := (Batch.readEach (channel peer) (items.map .standard)).outcome st
      outcome = .ok (items.map fun item => (f item).item) ∧ after.session.state = .ready ∧
        after.CanRead peer f items) ∧
    (∀ {σ σ' : Type} (peer : Peer σ) (peer' : Peer σ') (st : Station σ) (st' : Station σ'),
      st.CanRead peer f items → st'.CanRead peer' f items →
      ((Batch.readEach (channel peer) (items.map .standard)).outcome st).1 =
        ((Batch.readEach (channel peer') (items.map .standard)).outcome st').1) := by
  -- what is read is a matter of the items alone, so that both parts follow from this
  have hread : ∀ {σ : Type} (peer : Peer σ) (st : Station σ), st.CanRead peer f items →
      ∃ after, (Batch.readEach (channel peer) (items.map .standard)).outcome st =
        (.ok (items.map fun item => (f item).item), after) ∧ after.CanRead peer f items := by
    intro σ peer st h
    obtain ⟨after, hread, hquiet, hlength⟩ :=
      Batch.readEach_ok (channel_reads h.answers) hsuits h.admits ⟨h.quiet, rfl⟩
    refine ⟨after, outcome_of_ok hread, hquiet, ?_, ?_⟩
    · rw [hlength]
      exact h.answers
    · rw [hlength]
      exact h.admits
  constructor
  · intro σ peer st h
    obtain ⟨after, houtcome, hafter⟩ := hread peer st h
    rw [houtcome]
    exact ⟨rfl, hafter.quiet.state, hafter⟩
  · intro σ σ' peer peer' st st' h h'
    obtain ⟨after, houtcome, -⟩ := hread peer st h
    obtain ⟨after', houtcome', -⟩ := hread peer' st' h'
    rw [houtcome, houtcome']

/-- Sixty-three bytes in three items, which need three messages of at most 60 bytes, but only one of
240. -/
theorem reading_in_parts_blank :
    let item : StandardItem :=
      { address := { area := .dataBlock, block := 1, byte := 0, bit := 0 }, type := .byte,
        count := 21 }
    let session (pduLength : UInt16) : Station Unit :=
      { session := { options := .ofFamily "plc" .s71200, pduLength
                     state := .ready, stream? := some .fresh }
        network := { peer := (), sent := [] } }
    let read (pduLength : UInt16) : Except Error (List DataItem) :=
      ((Batch.readEach (channel .blankMemory) ([item, item, item].map .standard)).outcome
        (session pduLength)).1
    read 60 = .ok (List.replicate 3 (blank item).item) ∧ read 240 = read 60 := by
  intro item session read
  have hcan : ∀ pduLength : UInt16, 39 ≤ pduLength.toNat → pduLength.toNat ≤ 65528 →
      (session pduLength).CanRead .blankMemory blank [item, item, item] := by
    intro pduLength hlower hupper
    refine ⟨⟨rfl, rfl⟩, Peer.blankMemory_answersReads hupper, fun other hother => ?_⟩
    obtain rfl : other = item := by simpa using hother
    exact ⟨Nat.le_trans (by decide) hlower, hlower⟩
  have hshort := hcan 60 (by decide) (by decide)
  have hlong := hcan 240 (by decide) (by decide)
  exact ⟨((reading_in_parts suits_blank _).1 _ _ hshort).1,
    (reading_in_parts suits_blank _).2 _ _ _ _ hlong hshort⟩

end Station

end S7Comm
