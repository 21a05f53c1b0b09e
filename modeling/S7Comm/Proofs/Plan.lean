import Mathlib
import S7Comm.Proofs.Answer

/-!
# A plan keeps to the agreed length

The counting of a plan and the writing of messages are two computations. A plan keeps a running length
and a flag that says whether the next payload needs a fill byte in front of it; a writer puts the byte
behind a payload unless its item is the last. This module shows that they agree, for every list of
items and every length, and what a plan is then good for.

**The division.** These lemmas know nothing of messages.

* `plan_eq_ok_iff`: a list is divided exactly if each item fits an exchange of its own, `(alone demand
  item).fits budget`, and then into `runs demand budget items`.
* `plan_eq_too_large`: otherwise the first item that does not fit is reported, with its place and with
  what it would take.
* `forall_mem_runs`: what holds of every first run holds of every run. `runs_fit` makes use of this;
  that nothing is lost is `flatten_runs`, beside the definition.

**The counting.** `rowLength odd lengths` is the length of a row of payloads with their headers, of
four bytes each, and the fill bytes between them; `odd` says whether there is one in front.
`Load.total_foldl` finds it in the running length, and the length of a data block is a `rowLength`
(`blockLength_eq`). So a request is exactly as long as it was planned.

**Answers.** An answer to a run is not longer than planned, except for what a plan leaves out on
purpose,

    (readAnswer reference answers).length ≤ budget + nckLength run answers + trailingFill run answers

where `nckLength` are the bytes of the items of a numerical control, whose payloads nobody knows
beforehand, and `trailingFill` is one byte which those items cause and which is not theirs: if only
they follow the last item of CPU memory, and that has an odd payload, then it is followed by a fill
byte that it would not have had as the last item of the answer. `uncounted_fill` is an answer that is
longer than agreed by this byte.

**Main result** (`plans_divide_exactly`): both directions of access, put together in `DividesExactly`.
That the runs of a plan are as few as can be is another matter (`plans_divide_least`).
-/

namespace S7Comm.Batch

open Call

/-! ## The division

A plan is greedy: the first item that is left begins a run, and others join it as long as there is
room. The induction for what holds of runs is therefore on the list behind the first run.
-/

section Division

variable {α : Type} (demand : α → Demand)

/-- The exchange of one item alone. -/
def alone (item : α) : Frame :=
  Frame.empty.add (demand item)

/-- The exchange of some items, one added to the other. -/
def planned (run : List α) : Frame :=
  run.foldl (fun frame item => frame.add (demand item)) Frame.empty

variable {demand} {limit : Nat}

/-- The items that join an exchange are as many as there is room for, and the exchange fits with them
if it did before. -/
theorem extend_fits (room : Nat) {frame : Frame} (items : List α) (h : frame.fits limit) :
    (extend demand limit room frame items).1.length ≤ room ∧
      ((extend demand limit room frame items).1.foldl
        (fun frame item => frame.add (demand item)) frame).fits limit := by
  fun_induction extend demand limit room frame items with
  | case1 => exact ⟨Nat.zero_le _, h⟩
  | case2 => exact ⟨Nat.zero_le _, h⟩
  | case3 room frame item items hfits run later heq ih =>
    obtain ⟨hlength, hfold⟩ := ih hfits
    rw [heq] at hlength hfold
    exact ⟨Nat.succ_le_succ hlength, hfold⟩
  | case4 => exact ⟨Nat.zero_le _, h⟩

/-- What holds of every first run holds of every run. The first run may be taken to begin with an item
of the list. -/
theorem forall_mem_runs {P : List α → Prop} {items : List α}
    (h : ∀ item ∈ items, ∀ others, P (firstRun demand limit item others).1) :
    ∀ run ∈ runs demand limit items, P run := by
  match items with
  | [] => simp
  | item :: items =>
    rw [runs_cons]
    intro run hrun
    rcases List.mem_cons.mp hrun with rfl | hrun
    · exact h item List.mem_cons_self items
    · -- the items that are left are items of the list
      refine forall_mem_runs (fun other hother others => h other ?_ others) run hrun
      have happend : (extend demand limit _ _ items).1 ++ (extend demand limit _ _ items).2 = items :=
        extend_append demand limit (Pdu.Access.maxItems - 1) (alone demand item) items
      refine List.mem_cons_of_mem item ?_
      rw [← happend]
      exact List.mem_append_right _ hother
  termination_by items.length
  decreasing_by
    exact Nat.lt_succ_of_le (length_extend_le demand limit _ _ _)

/-- If every item fits an exchange of its own, every run has an item, has at most as many as can be
told, and fits. -/
theorem runs_fit {items : List α} (h : ∀ item ∈ items, (alone demand item).fits limit) :
    ∀ run ∈ runs demand limit items,
      run ≠ [] ∧ run.length ≤ Pdu.Access.maxItems ∧ (planned demand run).fits limit := by
  refine forall_mem_runs fun item hitem others => ?_
  obtain ⟨hlength, hfits⟩ := extend_fits (Pdu.Access.maxItems - 1) others (h item hitem)
  refine ⟨List.cons_ne_nil _ _, ?_, hfits⟩
  exact Nat.succ_le_succ hlength

/-- A list is divided exactly if every item fits an exchange of its own. -/
theorem plan_eq_ok_iff {budget : UInt16} {items : List α} {parts : List (List α)} :
    plan demand budget items = .ok parts ↔
      (∀ item ∈ items, (alone demand item).fits budget.toNat) ∧
        parts = runs demand budget.toNat items := by
  -- the list is divided if no item is found that does not fit
  have hfind : items.zipIdx.find? (fun pair => !(alone demand pair.1).fits budget.toNat) = none ↔
      ∀ item ∈ items, (alone demand item).fits budget.toNat := by
    rw [List.find?_eq_none]
    constructor
    · intro h item hitem
      obtain ⟨index, hindex, rfl⟩ := List.getElem_of_mem hitem
      have := h (items[index], index) (List.mem_zipIdx_iff_getElem?.mpr (by simp [hindex]))
      simpa using this
    · intro h pair hpair
      have := h pair.1 (List.fst_mem_of_mem_zipIdx hpair)
      simpa using this
  unfold plan
  dsimp only
  split
  · next item index hsome =>
    constructor
    · rintro ⟨⟩
    · rintro ⟨h, -⟩
      exact absurd ((hfind.mpr h).symm.trans hsome) (by simp)
  · next hnone =>
    constructor
    · rintro ⟨⟩
      exact ⟨hfind.mp hnone, rfl⟩
    · rintro ⟨-, rfl⟩
      rfl

/-- Otherwise the first item that does not fit is reported, with its place and with what it would
take. -/
theorem plan_eq_too_large {budget : UInt16} {before : List α} {item : α} (after : List α)
    (hbefore : ∀ earlier ∈ before, (alone demand earlier).fits budget.toNat)
    (hitem : ¬ (alone demand item).fits budget.toNat) :
    plan demand budget (before ++ item :: after) =
      .error (.itemTooLarge before.length (alone demand item).size budget) := by
  have hfind : (before ++ item :: after).zipIdx.find?
      (fun pair => !(alone demand pair.1).fits budget.toNat) = some (item, before.length) := by
    rw [List.zipIdx_append, List.find?_append, List.find?_eq_none.mpr ?_, List.zipIdx_cons]
    · simp [hitem]
    · intro pair hpair
      have := hbefore pair.1 (List.fst_mem_of_mem_zipIdx hpair)
      simpa using this
  unfold plan
  dsimp only
  split
  · next other index hsome =>
    cases hfind.symm.trans hsome
    rfl
  · next hnone => exact absurd (hfind.symm.trans hnone) (by simp)

end Division

/-! ## The counting -/

/-- The length of a row of payloads with their headers and the fill bytes between them, behind a
payload that needs a fill byte or not. -/
def rowLength : Bool → List Nat → Nat
  | _, [] => 0
  | odd, length :: lengths =>
    (if odd then 1 else 0) + DataItem.headerLength + length + rowLength (length % 2 == 1) lengths

theorem rowLength_cons (odd : Bool) (length : Nat) (lengths : List Nat) :
    rowLength odd (length :: lengths) =
      (if odd then 1 else 0) + rowLength false (length :: lengths) := by
  simp only [rowLength]
  simp
  omega

/-- The running length is what was there, what is added as it is, and a row of payloads. -/
theorem Load.total_foldl {α : Type} (cost : α → Cost) (load : Load) (run : List α) :
    (run.foldl (fun load item => load.add (cost item)) load).total =
      load.total + (run.map fun item => (cost item).fixed).sum +
        rowLength load.odd (run.filterMap fun item => (cost item).payload) := by
  induction run generalizing load with
  | nil => rfl
  | cons item run ih =>
    rw [List.foldl_cons, ih, List.map_cons, List.sum_cons]
    -- only an item with a payload adds to the row, and decides on the next fill byte
    cases hpayload : (cost item).payload with
    | none =>
      have hadd : load.add (cost item) = { load with total := load.total + (cost item).fixed } := by
        simp [Load.add, hpayload]
      rw [hadd]
      simp only [List.filterMap_cons, hpayload]
      omega
    | some length =>
      have hadd : load.add (cost item) =
          { total := load.total + (cost item).fixed + (if load.odd then 1 else 0) +
              DataItem.headerLength + length
            odd := length % 2 == 1 } := by
        simp [Load.add, hpayload]
      rw [hadd]
      simp only [List.filterMap_cons, hpayload, rowLength]
      omega

/-- The two sides of an exchange grow independently of each other. -/
theorem planned_eq {α : Type} (demand : α → Demand) (run : List α) :
    planned demand run =
      { request := run.foldl (fun load item => load.add (demand item).request) Frame.empty.request
        response := run.foldl (fun load item => load.add (demand item).response)
          Frame.empty.response } := by
  -- the induction is on the run, for an exchange that has items already
  have hfold : ∀ frame : Frame, run.foldl (fun frame item => frame.add (demand item)) frame =
      { request := run.foldl (fun load item => load.add (demand item).request) frame.request
        response := run.foldl (fun load item => load.add (demand item).response)
          frame.response } := by
    induction run with
    | nil => intro frame; rfl
    | cons item run ih =>
      intro frame
      rw [List.foldl_cons, ih]
      rfl
  exact hfold Frame.empty

/-- A data block is as long as the row of its payloads: a fill byte behind an item that is not the
last is the one in front of the next. -/
theorem blockLength_eq (items : List DataItem) :
    DataItem.blockLength items = rowLength false (items.map fun item => item.payload.length) := by
  fun_induction DataItem.blockLength items with
  | case1 => rfl
  | case2 item => simp [rowLength, DataItem.encodedLength]
  | case3 item next items ih =>
    rw [List.map_cons] at ih
    rw [List.map_cons, List.map_cons, rowLength, rowLength_cons, ← ih]
    simp only [DataItem.encodedLength, DataItem.isOdd]
    simp
    omega

/-! ## Requests -/

theorem request_total_reads (run : List RequestItem) :
    (planned readDemand run).request.total =
      Pdu.jobHeaderLength + Pdu.Access.countLength + itemsLength run := by
  have hpayload : run.filterMap (fun item => (readDemand item).request.payload) = [] :=
    List.filterMap_eq_nil_iff.mpr fun _ _ => rfl
  rw [planned_eq, Load.total_foldl, hpayload]
  rfl

theorem response_total_reads (run : List RequestItem) :
    (planned readDemand run).response.total =
      Pdu.ackHeaderLength + Pdu.Access.countLength +
        rowLength false (run.filterMap RequestItem.dataLength?) := by
  have hfixed : run.map (fun item => (readDemand item).response.fixed) =
      List.replicate run.length 0 :=
    List.map_const'
  rw [planned_eq, Load.total_foldl, hfixed, List.sum_replicate_nat]
  simp [Frame.empty, readDemand]

theorem request_total_writes (run : List (RequestItem × DataItem)) :
    (planned writeDemand run).request.total =
      Pdu.jobHeaderLength + Pdu.Access.countLength + itemsLength (run.map Prod.fst) +
        DataItem.blockLength (run.map Prod.snd) := by
  have hfixed : run.map (fun pair => (writeDemand pair).request.fixed) =
      (run.map Prod.fst).map RequestItem.encodedLength := by
    rw [List.map_map]
    rfl
  have hpayload : run.filterMap (fun pair => (writeDemand pair).request.payload) =
      (run.map Prod.snd).map fun item => item.payload.length := by
    rw [List.map_map, ← List.filterMap_eq_map]
    rfl
  rw [planned_eq, Load.total_foldl, hfixed, hpayload, blockLength_eq]
  rfl

theorem response_total_writes (run : List (RequestItem × DataItem)) :
    (planned writeDemand run).response.total =
      Pdu.ackHeaderLength + Pdu.Access.countLength + run.length := by
  have hfixed : run.map (fun pair => (writeDemand pair).response.fixed) =
      List.replicate run.length 1 :=
    List.map_const'
  have hpayload : run.filterMap (fun pair => (writeDemand pair).response.payload) = [] :=
    List.filterMap_eq_nil_iff.mpr fun _ _ => rfl
  rw [planned_eq, Load.total_foldl, hfixed, hpayload, List.sum_replicate_nat]
  simp [Frame.empty, rowLength]

/-- A request to read that has items, and not more than can be told, can be sent, and is as long as
it was planned. -/
theorem encodeReadRequest_eq_ok (reference : UInt16) {run : List RequestItem} (hne : run ≠ [])
    (hcount : run.length ≤ Pdu.Access.maxItems) :
    ∃ message, Pdu.encodeReadRequest reference run = .ok message ∧
      message.length = (planned readDemand run).request.total := by
  refine ⟨_, Pdu.encodeReadRequest_eq_ok_iff.mpr ⟨hne, hcount, rfl⟩, ?_⟩
  rw [Pdu.length_readRequest, request_total_reads]

/-- So can a request to write whose planned length is one that a message can have. -/
theorem encodeWriteRequest_eq_ok (reference : UInt16) {run : List (RequestItem × DataItem)}
    (hne : run ≠ []) (hcount : run.length ≤ Pdu.Access.maxItems)
    (htotal : (planned writeDemand run).request.total ≤ 65535) :
    ∃ message, Pdu.encodeWriteRequest reference (run.map Prod.fst) (run.map Prod.snd) = .ok message ∧
      message.length = (planned writeDemand run).request.total := by
  rw [request_total_writes] at htotal ⊢
  have hpaired : (run.map Prod.fst).length = (run.map Prod.snd).length := by
    rw [List.length_map, List.length_map]
  have hcount' : (run.map Prod.fst).length ≤ Pdu.Access.maxItems := by
    rw [List.length_map]
    exact hcount
  have hdata : DataItem.blockLength (run.map Prod.snd) ≤ 65535 := by
    omega
  refine ⟨_, Pdu.encodeWriteRequest_eq_ok_iff.mpr
    ⟨hpaired, List.map_eq_nil_iff.not.mpr hne, hcount', hdata, rfl⟩, ?_⟩
  rw [Pdu.length_writeRequest]

/-! ## Answers

Here the two computations differ. The flag of a plan stays as it is at an item of a numerical control,
whose payload is not counted; in the answer the fill byte in front of that item is there.
-/

/-- The bytes of an answer that belong to items of a numerical control, with their headers and the
fill bytes behind them. -/
def nckLength : List RequestItem → List Answered → Nat
  | .nck _ :: items, a :: answers => (a.encode answers.isEmpty).length + nckLength items answers
  | .standard _ :: items, _ :: answers => nckLength items answers
  | _, _ => 0

/-- One, if the last item of CPU memory has an odd payload, and only items of a numerical control
follow, and zero otherwise. -/
def trailingFill : List RequestItem → List Answered → Nat
  | .standard _ :: items, a :: answers =>
    if items ≠ [] ∧ items.filterMap RequestItem.dataLength? = [] then
      if a.item.isOdd then 1 else 0
    else trailingFill items answers
  | .nck _ :: items, _ :: answers => trailingFill items answers
  | _, _ => 0

theorem rowLength_eq_add {lengths : List Nat} (h : lengths ≠ []) (odd : Bool) :
    rowLength odd lengths = (if odd then 1 else 0) + rowLength false lengths := by
  cases lengths with
  | nil => exact absurd rfl h
  | cons length lengths => exact rowLength_cons odd length lengths

theorem trailingFill_eq_zero {items : List RequestItem}
    (h : items.filterMap RequestItem.dataLength? = []) (answers : List Answered) :
    trailingFill items answers = 0 := by
  induction items generalizing answers with
  | nil => rfl
  | cons item items ih =>
    cases item with
    | standard item => simp [RequestItem.dataLength?] at h
    | nck item =>
      cases answers with
      | nil => rfl
      | cons a answers => exact ih (by simpa [RequestItem.dataLength?] using h) answers

/-- A suitable answer is not longer than what was asked for, with a fill byte behind it or without: a
failure has no payload, and needs no fill byte. -/
theorem payload_le_of_suits {item : StandardItem} {a : Answered} (h : Suits (.standard item) a) :
    a.payload.length ≤ item.dataLength ∧
      a.payload.length + (if a.item.isOdd then 1 else 0) ≤
        item.dataLength + if item.dataLength % 2 == 1 then 1 else 0 := by
  by_cases hsuccess : a.item.isSuccess
  · have hpayload : a.payload.length = item.dataLength := by
      simpa only [Suits, hsuccess, if_true] using h
    have hodd : a.item.isOdd = (item.dataLength % 2 == 1) := by
      rw [← hpayload]
      rfl
    rw [hodd, hpayload]
    exact ⟨Nat.le_refl _, Nat.le_refl _⟩
  · have hpayload : a.payload = [] := by
      simpa [Suits, hsuccess] using h
    have hodd : a.item.isOdd = false := by
      simp [DataItem.isOdd, Answered.item, hpayload]
    rw [hodd, hpayload]
    exact ⟨Nat.zero_le _, Nat.zero_le _⟩

/-- The data of an answer are not longer than the row of payloads that was asked for, but for what is
not counted. -/
theorem length_encodeBlock_le {items : List RequestItem} {answers : List Answered}
    (h : List.Forall₂ Suits items answers) :
    (Answered.encodeBlock answers).length ≤
      rowLength false (items.filterMap RequestItem.dataLength?) + nckLength items answers +
        trailingFill items answers := by
  induction h with
  | nil => exact Nat.zero_le _
  | @cons item a items answers hsuits hrest ih =>
    rw [Answered.encodeBlock_cons, List.length_append]
    cases item with
    | nck item =>
      -- all bytes of the item are left out of the count
      simp only [nckLength, trailingFill, List.filterMap_cons, RequestItem.dataLength?]
      omega
    | standard item =>
      have hplanned : rowLength false ((RequestItem.standard item :: items).filterMap
          RequestItem.dataLength?) = DataItem.headerLength + item.dataLength +
            rowLength (item.dataLength % 2 == 1) (items.filterMap RequestItem.dataLength?) := by
        simp [RequestItem.dataLength?, rowLength]
      have hnck : nckLength (.standard item :: items) (a :: answers) = nckLength items answers := rfl
      have hbody := a.length_encode_le answers.isEmpty
      obtain ⟨hpayload, hfill⟩ := payload_le_of_suits hsuits
      rw [hplanned, hnck, trailingFill]
      by_cases hitems : items = []
      · -- the last item of the answer has no fill byte
        subst hitems
        cases hrest
        simp only [Answered.encodeBlock, Answered.length_encode, DataItem.encodedLength,
          Answered.item, List.filterMap_nil, rowLength, List.length_nil]
        simp
        omega
      by_cases honly : items.filterMap RequestItem.dataLength? = []
      · -- no payload is counted behind the item, and so no fill byte
        rw [trailingFill_eq_zero honly, honly] at ih
        rw [if_pos ⟨hitems, honly⟩, honly]
        simp only [rowLength] at ih ⊢
        omega
      · -- the fill byte is counted with the payload behind it
        rw [if_neg (fun h => honly h.2), rowLength_eq_add honly]
        omega

/-- An answer to a run of items to be read keeps to the length that the run was planned for, but for
what is not counted. -/
theorem length_readAnswer_le {run : List RequestItem} {limit : Nat}
    (hfits : (planned readDemand run).response.total ≤ limit) (reference : UInt16)
    {answers : List Answered} (h : List.Forall₂ Suits run answers) :
    (Pdu.readAnswer reference answers).length ≤
      limit + nckLength run answers + trailingFill run answers := by
  have hblock := length_encodeBlock_le h
  rw [response_total_reads] at hfits
  rw [Pdu.readAnswer, Pdu.length_answer]
  omega

/-! ## Plans -/

/-- The lengths of request and answer for one item to be read. The payload of an item of a numerical
control is not counted. -/
def readSizes (item : RequestItem) : Nat × Nat :=
  (12 + item.encodedLength,
    match item.dataLength? with
    | some length => 14 + (4 + length)
    | none => 14)

/-- The lengths of request and answer for one item to be written. -/
def writeSizes (pair : RequestItem × DataItem) : Nat × Nat :=
  (12 + pair.1.encodedLength + (4 + pair.2.payload.length), 14 + 1)

theorem alone_read (item : RequestItem) :
    ((alone readDemand item).request.total, (alone readDemand item).response.total) =
      readSizes item := by
  refine Prod.ext (request_total_reads [item]) ((response_total_reads [item]).trans ?_)
  cases item with
  | standard item => simp [readSizes, RequestItem.dataLength?, rowLength, DataItem.headerLength,
      Pdu.ackHeaderLength, Pdu.Access.countLength]
  | nck item => rfl

theorem alone_write (pair : RequestItem × DataItem) :
    ((alone writeDemand pair).request.total, (alone writeDemand pair).response.total) =
      writeSizes pair :=
  Prod.ext (request_total_writes [pair]) (response_total_writes [pair])

theorem fits_iff {frame : Frame} {limit : Nat} :
    frame.fits limit ↔ frame.request.total ≤ limit ∧ frame.response.total ≤ limit := by
  simp [Frame.fits]

/-- Whether an item fits messages of its own can be told from their lengths. -/
theorem fits_alone_iff {α : Type} {demand : α → Demand} {sizes : α → Nat × Nat}
    (hsizes : ∀ item, ((alone demand item).request.total, (alone demand item).response.total) =
      sizes item) (item : α) (limit : Nat) :
    (alone demand item).fits limit ↔ (sizes item).1 ≤ limit ∧ (sizes item).2 ≤ limit := by
  rw [← hsizes]
  exact fits_iff

/-- A single payload is written with one message, if that can have 28 bytes more than the payload. -/
theorem planWrites_singleton (item : StandardItem) {data : DataItem} {budget : UInt16}
    (hne : data.payload ≠ []) (hfits : 28 + data.payload.length ≤ budget.toNat) :
    planWrites budget [(.standard item, data)] = .ok [[(.standard item, data)]] := by
  have hpos := List.length_pos_of_ne_nil hne
  have halone : (alone writeDemand (.standard item, data)).fits budget.toNat := by
    rw [fits_alone_iff alone_write]
    simp only [writeSizes, RequestItem.encodedLength, StandardItem.encodedLength]
    omega
  refine plan_eq_ok_iff.mpr ⟨List.forall_mem_singleton.mpr halone, ?_⟩
  rw [runs_cons]
  show _ = [(.standard item, data)] :: runs writeDemand budget.toNat []
  rw [runs_nil]

/-- What a division into messages has to be: for given lengths of request and answer for one item, a
given length of messages, and a given demand on each message. -/
structure DividesExactly {α : Type} (sizes : α → Nat × Nat) (budget : UInt16)
    (within : List α → Prop) (items : List α) (result : Except Error (List (List α))) : Prop where
  /-- There is a division exactly if every item fits messages of its own. -/
  divides_iff : (∃ parts, result = .ok parts) ↔
    ∀ item ∈ items, (sizes item).1 ≤ budget.toNat ∧ (sizes item).2 ≤ budget.toNat
  /-- If not, the first item that does not fit is reported, with the longer of its messages. -/
  refuses : ∀ before item after, items = before ++ item :: after →
    (∀ earlier ∈ before, (sizes earlier).1 ≤ budget.toNat ∧ (sizes earlier).2 ≤ budget.toNat) →
    ¬ ((sizes item).1 ≤ budget.toNat ∧ (sizes item).2 ≤ budget.toNat) →
    result = .error (.itemTooLarge before.length (max (sizes item).1 (sizes item).2) budget)
  /-- The parts put together are the list; none is empty, none has more than 255 items, and each meets
  the demand. -/
  parts : ∀ parts, result = .ok parts → parts.flatten = items ∧
    ∀ part ∈ parts, part ≠ [] ∧ part.length ≤ 255 ∧ within part

/-- The request to read a run is as long as planned and keeps to the agreed length, and so does every
answer that suits the run, but for the items of a numerical control and a fill byte in front of them
behind which no other item follows. -/
def ReadsWithin (budget : UInt16) (run : List RequestItem) : Prop :=
  ∀ reference,
    (∃ message, Pdu.encodeReadRequest reference run = .ok message ∧
      message.length = (planned readDemand run).request.total ∧ message.length ≤ budget.toNat) ∧
    ∀ answers, List.Forall₂ Suits run answers →
      (Pdu.readAnswer reference answers).length ≤
        budget.toNat + nckLength run answers + trailingFill run answers

/-- The request to write a run is as long as planned and keeps to the agreed length, and so does every
answer with a code for each item. -/
def WritesWithin (budget : UInt16) (run : List (RequestItem × DataItem)) : Prop :=
  ∀ reference,
    (∃ message,
      Pdu.encodeWriteRequest reference (run.map Prod.fst) (run.map Prod.snd) = .ok message ∧
      message.length = (planned writeDemand run).request.total ∧ message.length ≤ budget.toNat) ∧
    ∀ codes : List UInt8, codes.length = run.length →
      (Pdu.writeAnswer reference codes).length ≤ budget.toNat

/-- A plan divides exactly, if the lengths of the messages of one item are what its exchange takes,
and a run that fits meets the demand. -/
theorem plan_dividesExactly {α : Type} {demand : α → Demand} {sizes : α → Nat × Nat}
    {within : List α → Prop} {budget : UInt16}
    (hsizes : ∀ item, ((alone demand item).request.total, (alone demand item).response.total) =
      sizes item)
    (hwithin : ∀ run, run ≠ [] → run.length ≤ Pdu.Access.maxItems →
      (planned demand run).fits budget.toNat → within run)
    (items : List α) : DividesExactly sizes budget within items (plan demand budget items) := by
  have hfits := fun item => fits_alone_iff hsizes item budget.toNat
  constructor
  · constructor
    · rintro ⟨parts, h⟩ item hitem
      exact (hfits item).mp ((plan_eq_ok_iff.mp h).1 item hitem)
    · intro h
      exact ⟨_, plan_eq_ok_iff.mpr ⟨fun item hitem => (hfits item).mpr (h item hitem), rfl⟩⟩
  · rintro before item after rfl hbefore hitem
    have herror := plan_eq_too_large after
      (fun earlier hearlier => (hfits earlier).mpr (hbefore earlier hearlier))
      (fun h => hitem ((hfits item).mp h))
    rw [← hsizes]
    exact herror
  · intro parts h
    obtain ⟨halone, rfl⟩ := plan_eq_ok_iff.mp h
    refine ⟨flatten_runs demand budget.toNat items, fun run hrun => ?_⟩
    obtain ⟨hne, hcount, hrunfits⟩ := runs_fit halone run hrun
    exact ⟨hne, hcount, hwithin run hne hcount hrunfits⟩

/-- **Plans keep to the agreed length**, in reading as in writing, for every list of items and every
length that can be agreed. With `sizes item` the lengths of request and answer for the item alone,
that is `(12 + encodedLength, 14 + (4 + dataLength))` in reading, without the last term for a
numerical control, and `(12 + encodedLength + (4 + payload.length), 15)` in writing:

* There is a division exactly if neither length of any item exceeds the budget; otherwise the error is
  `itemTooLarge index size budget`, for the first item that does not fit, with the longer of its two
  messages.
* The parts of a division put together are the list. None is empty, and none has more than 255 items.
* The request for a part is as long as it was planned, and not longer than the budget. Nor is any
  answer to it that suits the items, but for `nckLength` and `trailingFill` in reading (`ReadsWithin`,
  `WritesWithin`). -/
theorem plans_divide_exactly (budget : UInt16) :
    (∀ items : List RequestItem,
      DividesExactly readSizes budget (ReadsWithin budget) items (planReads budget items)) ∧
    (∀ pairs : List (RequestItem × DataItem),
      DividesExactly writeSizes budget (WritesWithin budget) pairs (planWrites budget pairs)) := by
  constructor
  · refine plan_dividesExactly alone_read ?_
    intro run hne hcount hfits reference
    obtain ⟨hrequest, hresponse⟩ := fits_iff.mp hfits
    obtain ⟨message, hmessage, hlength⟩ := encodeReadRequest_eq_ok reference hne hcount
    refine ⟨⟨message, hmessage, hlength, ?_⟩, fun answers => length_readAnswer_le hresponse reference⟩
    rw [hlength]
    exact hrequest
  · refine plan_dividesExactly alone_write ?_
    intro run hne hcount hfits reference
    obtain ⟨hrequest, hresponse⟩ := fits_iff.mp hfits
    have hbudget := budget.toNat_lt
    -- a length that was agreed on is one that a header can declare
    obtain ⟨message, hmessage, hlength⟩ :=
      encodeWriteRequest_eq_ok reference hne hcount (by omega)
    refine ⟨⟨message, hmessage, hlength, ?_⟩, fun codes hcodes => ?_⟩
    · rw [hlength]
      exact hrequest
    · rw [response_total_writes] at hresponse
      rw [Pdu.writeAnswer, Pdu.length_answer, hcodes]
      exact hresponse

/-- The byte that is not counted does occur: 21 bytes of CPU memory and a value of a numerical
control, read with one message of at most 39 bytes. Of the answer, 40 bytes are not the control's. -/
theorem uncounted_fill :
    ¬ ∀ (budget : UInt16) (items : List RequestItem) (parts : List (List RequestItem)),
      planReads budget items = .ok parts → ∀ run ∈ parts, ∀ reference answers,
        List.Forall₂ Suits run answers →
          (Pdu.readAnswer reference answers).length ≤ budget.toNat + nckLength run answers := by
  intro h
  let memory : RequestItem := .standard
    { address := { area := .dataBlock, block := 1, byte := 0, bit := 0 }, type := .byte,
      count := 21 }
  let value : RequestItem := .nck
    { area := .channel, unit := 1, column := 1, line := 1, module := .y, lineCount := 1 }
  let bytes : Answered :=
    { code := 0xFF, sizeCode := 0x04, field := 168, payload := List.replicate 21 0, declared := rfl }
  let number : Answered :=
    { code := 0xFF, sizeCode := 0x09, field := 2, payload := [0, 1], declared := rfl }
  have hplan : planReads 39 [memory, value] = .ok [[memory, value]] := by
    refine plan_eq_ok_iff.mpr ⟨by decide, ?_⟩
    rw [runs_cons]
    show _ = [memory, value] :: runs readDemand 39 []
    rw [runs_nil]
  have hsuits : List.Forall₂ Suits [memory, value] [bytes, number] :=
    .cons rfl (.cons trivial .nil)
  have hlong := h 39 _ _ hplan _ List.mem_cons_self 1 _ hsuits
  revert hlong
  decide

end S7Comm.Batch
