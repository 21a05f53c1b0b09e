import S7Comm.Proofs.Plan

/-!
# No division has fewer runs

A greedy division looks at one item at a time. It could have paid to leave room in one run for the
sake of a later one, and it never does: no way of cutting the list into consecutive parts, each of
which can be exchanged with one message, has fewer parts.

* `AtOnce demand limit run`: the items can be exchanged with one message, `run.length ≤ 255` and
  `(planned demand run).fits limit`.
* `AtOnce.of_part`: a stretch of what can be exchanged at once can be exchanged at once. It is not
  quite obvious, since a payload is counted with the fill byte in front of it, and what stands in
  front of a stretch can go away; but then the byte goes away as well (`rowLength_le_of_part`).
* `length_runs_le`: so a greedy run ends where the corresponding part of another division ends, or
  behind it, and what is left to be divided is never more than what the other has left.
* `runs_longest`: no run but the last can be exchanged at once together with the next item.

**Lengths** are those of messages: of the request, and of a complete answer, in which every item of
CPU memory has its bytes (`ReadAtOnce`, `WriteAtOnce`). What a numerical control answers is not known
beforehand, and its items are no part of the length.

**Main result** (`plans_divide_least`): both plans are divisions into as few parts as there can be
(`DividesLeast`). Parts are taken to be stretches of the list in its order; that fewer messages could
do if the order were changed is not excluded.
-/

namespace S7Comm.Batch

/-! ## Stretches of a row -/

/-- A longer row is not shorter in the message. -/
theorem rowLength_le_append (odd : Bool) (front behind : List Nat) :
    rowLength odd front ≤ rowLength odd (front ++ behind) := by
  induction front generalizing odd with
  | nil => exact Nat.zero_le _
  | cons length front ih =>
    have hrest := ih (length % 2 == 1)
    simp only [List.cons_append, rowLength]
    omega

/-- What stands in front of a row makes it longer, even if the row needs no fill byte then. -/
theorem rowLength_le_of_append (odd : Bool) (front behind : List Nat) :
    rowLength false behind ≤ rowLength odd (front ++ behind) := by
  induction front generalizing odd with
  | nil =>
    rw [List.nil_append]
    rcases eq_or_ne behind [] with rfl | hne
    · exact Nat.le_refl _
    · rw [rowLength_eq_add hne odd]
      exact Nat.le_add_left _ _
  | cons length front ih =>
    have hrest := ih (length % 2 == 1)
    simp only [List.cons_append, rowLength]
    omega

/-- A stretch of a row is not longer than the row. -/
theorem rowLength_le_of_part {stretch lengths : List Nat} (h : stretch <:+: lengths) :
    rowLength false stretch ≤ rowLength false lengths := by
  obtain ⟨front, behind, rfl⟩ := h
  rw [List.append_assoc]
  exact (rowLength_le_append false stretch behind).trans (rowLength_le_of_append false front _)

/-! ## What can be exchanged at once -/

section Division

variable {α : Type} {demand : α → Demand} {limit : Nat}

/-- Some items can be exchanged with one message: they are not too many, and the exchange fits. -/
def AtOnce (demand : α → Demand) (limit : Nat) (run : List α) : Prop :=
  run.length ≤ Pdu.Access.maxItems ∧ (planned demand run).fits limit

/-- A stretch of a run adds not more to a side of an exchange than the run does. -/
theorem total_foldl_le_of_part (cost : α → Cost) (total : Nat) {stretch run : List α}
    (h : stretch <:+: run) :
    (stretch.foldl (fun (load : Load) item => load.add (cost item)) ⟨total, false⟩).total ≤
      (run.foldl (fun (load : Load) item => load.add (cost item)) ⟨total, false⟩).total := by
  have hrow := rowLength_le_of_part (h.filterMap fun item => (cost item).payload)
  have hfixed : (stretch.map fun item => (cost item).fixed).sum ≤
      (run.map fun item => (cost item).fixed).sum :=
    (h.map fun item => (cost item).fixed).sublist.sum_le_sum fun _ _ => Nat.zero_le _
  rw [Load.total_foldl, Load.total_foldl]
  dsimp only
  omega

/-- A stretch of what can be exchanged at once can be exchanged at once. -/
theorem AtOnce.of_part {stretch run : List α} (hrun : AtOnce demand limit run)
    (h : stretch <:+: run) : AtOnce demand limit stretch := by
  obtain ⟨hcount, hfits⟩ := hrun
  rw [fits_iff, planned_eq] at hfits
  refine ⟨h.length_le.trans hcount, fits_iff.mpr ?_⟩
  rw [planned_eq]
  exact ⟨(total_foldl_le_of_part _ _ h).trans hfits.1, (total_foldl_le_of_part _ _ h).trans hfits.2⟩

/-! ## Greedy runs are as long as can be -/

/-- What fits an exchange, item by item, joins it. -/
theorem prefix_extend {front : List α} (behind : List α) {room : Nat} {frame : Frame}
    (hroom : front.length ≤ room)
    (hfits : ∀ part, part <+: front →
      (part.foldl (fun frame item => frame.add (demand item)) frame).fits limit) :
    front <+: (extend demand limit room frame (front ++ behind)).1 := by
  -- the induction is on what is to join, for an exchange that has items already
  induction front generalizing room frame with
  | nil => exact List.nil_prefix
  | cons item front ih =>
    obtain ⟨room, rfl⟩ : ∃ room', room = room' + 1 :=
      Nat.exists_eq_succ_of_ne_zero (by rw [List.length_cons] at hroom; omega)
    have hitem : (frame.add (demand item)).fits limit :=
      hfits [item] (List.prefix_cons_inj item |>.mpr List.nil_prefix)
    rw [List.cons_append, extend, if_pos hitem]
    refine (List.prefix_cons_inj item).mpr (ih (Nat.le_of_succ_le_succ hroom) fun part hpart => ?_)
    exact hfits (item :: part) ((List.prefix_cons_inj item).mpr hpart)

/-- An exchange that is not joined by the next item has as many as can be, or does not fit with it. -/
theorem extend_stops {room : Nat} {frame : Frame} {items later : List α} {item : α}
    (h : (extend demand limit room frame items).2 = item :: later) :
    (extend demand limit room frame items).1.length = room ∨
      ¬ (((extend demand limit room frame items).1 ++ [item]).foldl
        (fun frame item => frame.add (demand item)) frame).fits limit := by
  fun_induction extend demand limit room frame items with
  | case1 => cases h
  | case2 => exact .inl rfl
  | case3 room frame item items hfits run rest heq ih =>
    rw [heq] at ih
    exact (ih h).imp_left (congrArg (· + 1))
  | case4 room frame item items hfits =>
    cases h
    exact .inr hfits

/-- A run takes all items with which its first one can be exchanged at once. -/
theorem prefix_firstRun {item : α} {front : List α} (behind : List α)
    (h : AtOnce demand limit (item :: front)) :
    item :: front <+: (firstRun demand limit item (front ++ behind)).1 := by
  refine (List.prefix_cons_inj item).mpr (prefix_extend behind ?_ fun part hpart => ?_)
  · exact Nat.le_sub_one_of_lt h.1
  · exact (h.of_part ((List.prefix_cons_inj item).mpr hpart).isInfix).2

/-- A run and the items behind it are the list that was divided. -/
theorem firstRun_append (demand : α → Demand) (limit : Nat) (item : α) (items : List α) :
    (firstRun demand limit item items).1 ++ (firstRun demand limit item items).2 = item :: items :=
  congrArg (item :: ·) (extend_append demand limit _ _ items)

/-- A run cannot be exchanged at once together with the next item. -/
theorem not_atOnce_firstRun {item next : α} {items later : List α}
    (h : (firstRun demand limit item items).2 = next :: later) :
    ¬ AtOnce demand limit ((firstRun demand limit item items).1 ++ [next]) := by
  rintro ⟨hcount, hfits⟩
  rcases extend_stops h with hlength | hlarge
  · have hrun : (firstRun demand limit item items).1.length = Pdu.Access.maxItems := by
      exact congrArg (· + 1) hlength
    rw [List.length_append, hrun] at hcount
    exact absurd hcount (Nat.not_succ_le_self _)
  · exact hlarge hfits

/-! ## The division

The comparison is with a division of a list that ends as ours does, and may have more in front. This
is what makes the induction go through, as the other division may be behind in every step.
-/

/-- **A division has not more runs than any other**, even one of a list with more items in front. -/
theorem length_runs_le {items : List α} {parts : List (List α)} (h : items <:+ parts.flatten)
    (hparts : ∀ part ∈ parts, AtOnce demand limit part) :
    (runs demand limit items).length ≤ parts.length := by
  -- the induction is on the parts of the other division, for all that may be left behind them
  induction parts generalizing items with
  | nil =>
    obtain rfl := List.suffix_nil.mp h
    rw [runs_nil]
  | cons part parts ih =>
    cases items with
    | nil =>
      rw [runs_nil]
      exact Nat.zero_le _
    | cons item items =>
      rw [runs_cons, List.length_cons, List.length_cons]
      refine Nat.succ_le_succ (ih ?_ fun other hother => hparts other (List.mem_cons_of_mem _ hother))
      have hwhole := firstRun_append demand limit item items
      obtain ⟨done, hdone⟩ := h
      rw [List.flatten_cons] at hdone
      rcases List.append_eq_append_iff.mp hdone with ⟨left, hpart, hleft⟩ | ⟨left, -, hbehind⟩
      · cases left with
        | nil =>
          rw [List.nil_append] at hleft
          rw [← hleft, ← hwhole]
          exact List.suffix_append _ _
        | cons other left =>
          -- what is left of the part is exchanged at once, and so the run takes it
          rw [List.cons_append] at hleft
          obtain ⟨rfl, rfl⟩ := List.cons.inj hleft
          have hstretch : AtOnce demand limit (item :: left) :=
            (hparts part List.mem_cons_self).of_part (hpart ▸ (List.suffix_append _ _).isInfix)
          obtain ⟨more, hmore⟩ := prefix_firstRun parts.flatten hstretch
          rw [← hmore, List.cons_append, List.cons_append, List.append_assoc] at hwhole
          exact ⟨more, List.append_cancel_left (List.cons.inj hwhole).2⟩
      · -- the part has been divided off already
        rw [hbehind, ← hwhole, ← List.append_assoc]
        exact List.suffix_append _ _

/-- No run but the last can be exchanged at once together with the first item of the next. -/
theorem runs_longest {items run next : List α} {front behind : List (List α)}
    (h : runs demand limit items = front ++ run :: next :: behind) :
    ∃ item others, next = item :: others ∧ ¬ AtOnce demand limit (run ++ [item]) := by
  -- the induction is on the runs in front; at the first of the two runs it is a matter of where a run
  -- ends
  induction front generalizing items with
  | nil =>
    cases items with
    | nil =>
      rw [runs_nil] at h
      cases h
    | cons item items =>
      rw [runs_cons] at h
      obtain ⟨hrun, hlater⟩ := List.cons.inj h
      cases hrest : (firstRun demand limit item items).2 with
      | nil =>
        rw [hrest, runs_nil] at hlater
        cases hlater
      | cons other later =>
        rw [hrest, runs_cons] at hlater
        obtain ⟨hnext, -⟩ := List.cons.inj hlater
        rw [← hrun]
        exact ⟨other, _, hnext.symm, not_atOnce_firstRun hrest⟩
  | cons first front ih =>
    cases items with
    | nil =>
      rw [runs_nil] at h
      cases h
    | cons item items =>
      rw [runs_cons] at h
      exact ih (List.cons.inj h).2

end Division

/-! ## Messages -/

/-- What a complete answer has of a run: for every item of CPU memory, the bytes that were asked
for. -/
def complete (run : List RequestItem) : List DataItem :=
  run.filterMap fun item => item.dataLength?.map fun length =>
    { returnCode := .success, size := .octets, payload := List.replicate length 0 }

/-- Some items can be read with one message of a given length: not more than can be told, with a
request and a complete answer that are not longer. -/
structure ReadAtOnce (budget : UInt16) (run : List RequestItem) : Prop where
  /-- The number of the items can be told. -/
  count : run.length ≤ 255
  /-- The request is not too long. -/
  request : ∀ reference, (Pdu.readRequest reference run).length ≤ budget.toNat
  /-- A complete answer is not too long. -/
  answer : ∀ reference, (Pdu.answer .read reference run.length
    (DataItem.encodeBlock (complete run))).length ≤ budget.toNat

/-- Some data can be written with one message of a given length. -/
structure WriteAtOnce (budget : UInt16) (run : List (RequestItem × DataItem)) : Prop where
  /-- The number of the items can be told. -/
  count : run.length ≤ 255
  /-- The request is not too long. -/
  request : ∀ reference,
    (Pdu.writeRequest reference (run.map Prod.fst) (run.map Prod.snd)).length ≤ budget.toNat
  /-- An answer with a code for each item is not too long. -/
  answer : ∀ reference (codes : List UInt8), codes.length = run.length →
    (Pdu.writeAnswer reference codes).length ≤ budget.toNat

/-- In a complete answer there are the lengths that were asked for. -/
theorem length_complete (run : List RequestItem) :
    (complete run).map (fun item => item.payload.length) = run.filterMap RequestItem.dataLength? := by
  rw [complete, List.map_filterMap]
  refine List.filterMap_congr fun item _ => ?_
  cases item.dataLength? <;> simp

/-- Whether items can be read at once is a matter of their demands. -/
theorem readAtOnce_iff {budget : UInt16} {run : List RequestItem} :
    ReadAtOnce budget run ↔ AtOnce readDemand budget.toNat run := by
  have hrequest : ∀ reference, (Pdu.readRequest reference run).length =
      (planned readDemand run).request.total := by
    intro reference
    rw [Pdu.length_readRequest, request_total_reads]
  have hanswer : ∀ reference, (Pdu.answer .read reference run.length
      (DataItem.encodeBlock (complete run))).length = (planned readDemand run).response.total := by
    intro reference
    rw [Pdu.length_answer, DataItem.length_encodeBlock, blockLength_eq, length_complete,
      response_total_reads]
  rw [AtOnce, fits_iff]
  constructor
  · rintro ⟨hcount, hshort, hfull⟩
    exact ⟨hcount, hrequest 0 ▸ hshort 0, hanswer 0 ▸ hfull 0⟩
  · rintro ⟨hcount, hshort, hfull⟩
    exact ⟨hcount, fun reference => hrequest reference ▸ hshort,
      fun reference => hanswer reference ▸ hfull⟩

/-- Whether items can be written at once is a matter of their demands. -/
theorem writeAtOnce_iff {budget : UInt16} {run : List (RequestItem × DataItem)} :
    WriteAtOnce budget run ↔ AtOnce writeDemand budget.toNat run := by
  have hrequest : ∀ reference,
      (Pdu.writeRequest reference (run.map Prod.fst) (run.map Prod.snd)).length =
        (planned writeDemand run).request.total := by
    intro reference
    rw [Pdu.length_writeRequest, request_total_writes]
  have hanswer : ∀ reference (codes : List UInt8), codes.length = run.length →
      (Pdu.writeAnswer reference codes).length = (planned writeDemand run).response.total := by
    intro reference codes hcodes
    rw [Pdu.writeAnswer, Pdu.length_answer, hcodes, response_total_writes]
  rw [AtOnce, fits_iff]
  constructor
  · rintro ⟨hcount, hshort, hfull⟩
    have hlength : (List.replicate run.length (0 : UInt8)).length = run.length :=
      List.length_replicate
    exact ⟨hcount, hrequest 0 ▸ hshort 0, hanswer 0 _ hlength ▸ hfull 0 _ hlength⟩
  · rintro ⟨hcount, hshort, hfull⟩
    exact ⟨hcount, fun reference => hrequest reference ▸ hshort,
      fun reference codes hcodes => hanswer reference codes hcodes ▸ hfull⟩

/-- A list is divided into parts that can each be exchanged at once, and not into more than it takes;
nor could a part have been longer. -/
structure DividesLeast {α : Type} (atOnce : List α → Prop) (items : List α) (parts : List (List α)) :
    Prop where
  /-- The parts put together are the list. -/
  flatten : parts.flatten = items
  /-- Each has an item, and can be exchanged at once. -/
  exchanged : ∀ part ∈ parts, part ≠ [] ∧ atOnce part
  /-- No other division into such parts has fewer of them. -/
  fewest : ∀ others : List (List α), others.flatten = items → (∀ part ∈ others, atOnce part) →
    parts.length ≤ others.length
  /-- No part but the last can be exchanged at once together with the first item of the next. -/
  longest : ∀ front part next behind, parts = front ++ part :: next :: behind →
    ∃ item rest, next = item :: rest ∧ ¬ atOnce (part ++ [item])

/-- A plan is a division into as few parts as there can be, whatever it takes to be done at once. -/
theorem plan_dividesLeast {α : Type} {demand : α → Demand} {budget : UInt16}
    {atOnce : List α → Prop} (hatOnce : ∀ run, atOnce run ↔ AtOnce demand budget.toNat run)
    {items : List α} {parts : List (List α)} (h : plan demand budget items = .ok parts) :
    DividesLeast atOnce items parts := by
  obtain ⟨halone, rfl⟩ := plan_eq_ok_iff.mp h
  refine ⟨flatten_runs demand budget.toNat items, fun run hrun => ?_, ?_, ?_⟩
  · obtain ⟨hne, hcount, hfits⟩ := runs_fit halone run hrun
    exact ⟨hne, (hatOnce run).mpr ⟨hcount, hfits⟩⟩
  · rintro others rfl hothers
    exact length_runs_le List.suffix_rfl fun part hpart => (hatOnce part).mp (hothers part hpart)
  · intro front part next behind hruns
    obtain ⟨item, rest, hnext, hlarge⟩ := runs_longest hruns
    exact ⟨item, rest, hnext, fun hpart => hlarge ((hatOnce _).mp hpart)⟩

/-- **A plan has as few messages as can be**, in reading and in writing, for every length that can be
agreed and every list that can be divided at all. If `parts` is the plan for `items`:

* `parts.flatten = items`, and every part has an item and can be exchanged at once: it has at most 255
  items, and neither the request nor a complete answer is longer than the budget (`ReadAtOnce`,
  `WriteAtOnce`).
* `parts.length ≤ others.length` for every other division of the list, `others.flatten = items`, into
  parts that can be exchanged at once.
* For a part and the next, with `item` the first of that, `part ++ [item]` cannot be exchanged at
  once. -/
theorem plans_divide_least (budget : UInt16) :
    (∀ (items : List RequestItem) (parts : List (List RequestItem)),
      planReads budget items = .ok parts → DividesLeast (ReadAtOnce budget) items parts) ∧
    (∀ (pairs : List (RequestItem × DataItem)) (parts : List (List (RequestItem × DataItem))),
      planWrites budget pairs = .ok parts → DividesLeast (WriteAtOnce budget) pairs parts) :=
  ⟨fun _ _ => plan_dividesLeast fun _ => readAtOnce_iff,
    fun _ _ => plan_dividesLeast fun _ => writeAtOnce_iff⟩

/-- 21 bytes of CPU memory, a value of a numerical control, and two bytes more: with messages of at
most 39 bytes, two are needed, and the first takes the value as well. -/
theorem plans_divide_least_mixed :
    let memory (count : UInt16) : RequestItem := .standard
      { address := { area := .dataBlock, block := 1, byte := 0, bit := 0 }, type := .byte, count }
    let value : RequestItem := .nck
      { area := .channel, unit := 1, column := 1, line := 1, module := .y, lineCount := 1 }
    planReads 39 [memory 21, value, memory 2] = .ok [[memory 21, value], [memory 2]] ∧
      DividesLeast (ReadAtOnce 39) [memory 21, value, memory 2] [[memory 21, value], [memory 2]] := by
  intro memory value
  have hplan : planReads 39 [memory 21, value, memory 2] = .ok [[memory 21, value], [memory 2]] := by
    refine plan_eq_ok_iff.mpr ⟨by decide, ?_⟩
    rw [runs_cons]
    show _ = [memory 21, value] :: runs readDemand 39 [memory 2]
    rw [runs_cons]
    show _ = [memory 21, value] :: [memory 2] :: runs readDemand 39 []
    rw [runs_nil]
  exact ⟨hplan, (plans_divide_least 39).1 _ _ hplan⟩

end S7Comm.Batch
