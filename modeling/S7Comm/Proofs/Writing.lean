import Mathlib
import S7Comm.Proofs.Plan

/-!
# Writing in parts is writing

A list of data is written with as many messages as the agreed length demands. Unlike reading, writing
changes the controller, and what it says of an item may depend on what was written before. Against a
controller that executes the messages it is sent, in their order, all that does not show: every item
is written once, in the order of the list, and the return codes are those of writing them one after
the other.

* `execute step memory pairs`: the controller is given by what it does about one item, `step`, on a
  memory of any kind; this is what it does about a row of them.
* `Channel.Executes c budget step pairs controller good`: such a controller is on the other end of a
  channel. A message does not always tell what it was encoded from, since a payload may be longer than
  its length field can say. So the controller is one that knows the whole list, and what of it has
  been executed: the next message is about a run that follows.
* `Progress`: how far it has come. `Batch.writeEach_ok` is the induction on the runs of the plan.
* `Batch.outcome_writeAll`: writing all items or none and writing each differ only in what is made of
  the return codes, so that they leave the same state behind, and with it the same messages.

**Main result** (`writing_in_parts`). That there is such a channel for every `step` is
`Channel.bench_executes`.
-/

namespace S7Comm

open Call

/-! ## Controllers -/

section Controller

variable {π : Type} (step : π → RequestItem → DataItem → π × UInt8)

/-- Execute some pairs, one after the other: the memory in the end, and the codes. -/
def execute : π → List (RequestItem × DataItem) → π × List UInt8
  | memory, [] => (memory, [])
  | memory, (item, data) :: pairs =>
    let (memory, code) := step memory item data
    let (memory, codes) := execute memory pairs
    (memory, code :: codes)

theorem execute_append (memory : π) (front behind : List (RequestItem × DataItem)) :
    execute step memory (front ++ behind) =
      ((execute step (execute step memory front).1 behind).1,
        (execute step memory front).2 ++ (execute step (execute step memory front).1 behind).2) := by
  induction front generalizing memory with
  | nil => rfl
  | cons pair front ih =>
    rw [List.cons_append]
    simp only [execute]
    rw [ih]
    rfl

theorem length_execute (memory : π) (pairs : List (RequestItem × DataItem)) :
    (execute step memory pairs).2.length = pairs.length := by
  induction pairs generalizing memory with
  | nil => rfl
  | cons pair pairs ih =>
    simp only [execute, List.length_cons]
    rw [ih]

end Controller

/-- A controller that is written to. -/
structure Controller (π : Type) where
  /-- Its memory, of whatever kind. -/
  memory : π
  /-- What it has executed, in the order in which it did. -/
  executed : List (RequestItem × DataItem)
  /-- The messages that it was sent. -/
  received : List Bytes

/-- The controller after a message that is about some pairs. -/
def Controller.handle {π : Type} (step : π → RequestItem → DataItem → π × UInt8)
    (controller : Controller π) (run : List (RequestItem × DataItem)) (request : Bytes) :
    Controller π :=
  { memory := (execute step controller.memory run).1, executed := controller.executed ++ run,
    received := controller.received ++ [request] }

/-- A message is a request to write some pairs. -/
def Asks (run : List (RequestItem × DataItem)) (request : Bytes) : Prop :=
  ∃ reference, Pdu.encodeWriteRequest reference (run.map Prod.fst) (run.map Prod.snd) = .ok request

/-- How far a controller has come with some runs since a start: they are what it has executed, it was
sent a request for each, and it has answered with their codes. -/
structure Progress {π : Type} (step : π → RequestItem → DataItem → π × UInt8)
    (start now : Controller π) (done : List (List (RequestItem × DataItem)))
    (results : List (List ReturnCode)) : Prop where
  /-- What it has answered. -/
  codes : results.flatten = (execute step start.memory done.flatten).2.map ReturnCode.ofCode
  /-- What it has made of its memory. -/
  memory : now.memory = (execute step start.memory done.flatten).1
  /-- What it has executed. -/
  executed : now.executed = done.flatten
  /-- What it was sent. -/
  received : ∃ requests, List.Forall₂ Asks done requests ∧
    now.received = start.received ++ requests

namespace Progress

variable {π : Type} {step : π → RequestItem → DataItem → π × UInt8} {start now : Controller π}

/-- At the start nothing has been done. -/
theorem refl (h : start.executed = []) : Progress step start start [] [] where
  codes := rfl
  memory := rfl
  executed := h
  received := ⟨[], .nil, (List.append_nil _).symm⟩

/-- One message more. -/
theorem handle {done : List (List (RequestItem × DataItem))} {results : List (List ReturnCode)}
    (h : Progress step start now done results) {run : List (RequestItem × DataItem)}
    {request : Bytes} (hasks : Asks run request) :
    Progress step start (now.handle step run request) (done ++ [run])
      (results ++ [(execute step now.memory run).2.map ReturnCode.ofCode]) := by
  have hdone : (done ++ [run]).flatten = done.flatten ++ run := by
    rw [List.flatten_append, List.flatten_singleton]
  constructor
  · rw [List.flatten_append, List.flatten_singleton, hdone, execute_append, List.map_append,
      h.codes, h.memory]
  · rw [hdone, execute_append, ← h.memory]
    rfl
  · rw [hdone, ← h.executed]
    rfl
  · obtain ⟨requests, hrequests, hreceived⟩ := h.received
    refine ⟨requests ++ [request], List.rel_append hrequests (.cons hasks .nil), ?_⟩
    rw [← List.append_assoc, ← hreceived]
    rfl

end Progress

/-- A channel behind which a controller executes the pairs of a list, while the state of the channel
is a good one. A message that is encoded from the next of them is executed and answered, if it keeps
to the agreed length and so does the answer. -/
structure Channel.Executes {S π : Type} (c : Channel S) (budget : UInt16)
    (step : π → RequestItem → DataItem → π × UInt8) (pairs : List (RequestItem × DataItem))
    (controller : S → Controller π) (good : S → Prop) : Prop where
  /-- Requests can be sent. -/
  ready : ∀ s, good s → c.checkReady s = .ok ()
  /-- The agreed length. -/
  agreed : ∀ s, good s → c.budget s = budget
  /-- To take a reference is no harm, and no matter of the controller. -/
  allocate : ∀ s, good s →
    good (c.nextReference s).2 ∧ controller (c.nextReference s).2 = controller s
  /-- The answer to a request, and what becomes of the controller. -/
  exchange : ∀ s, good s → ∀ reference run rest request,
    (controller s).executed ++ run ++ rest = pairs →
    Pdu.encodeWriteRequest reference (run.map Prod.fst) (run.map Prod.snd) = .ok request →
    request.length ≤ budget.toNat →
    (Pdu.writeAnswer reference (execute step (controller s).memory run).2).length ≤ budget.toNat →
    ∃ s', c.exchange request s =
        .ok (Pdu.writeAnswer reference (execute step (controller s).memory run).2) s' ∧ good s' ∧
      controller s' = (controller s).handle step run request

namespace Batch

variable {S π : Type} {c : Channel S}

/-! ## Each and all -/

/-- Whether all items have to succeed shows in the outcome only. -/
theorem outcome_writeAll (c : Channel S) (items : List RequestItem) (data : List DataItem) (s : S) :
    ((writeAll c items data).outcome s).2 = ((writeEach c items data).outcome s).2 :=
  outcome_bind_check (writeEach c items data) checkCodes s

/-! ## One message after the other -/

variable {budget : UInt16} {step : π → RequestItem → DataItem → π × UInt8}
  {pairs : List (RequestItem × DataItem)} {controller : S → Controller π} {good : S → Prop}

/-- A run that fits, and is the next to be executed, is written with one message, and the codes are
those of its execution. -/
theorem writeRun_ok (h : c.Executes budget step pairs controller good)
    {run rest : List (RequestItem × DataItem)} (hne : run ≠ [])
    (hcount : run.length ≤ Pdu.Access.maxItems)
    (hfits : (planned writeDemand run).fits budget.toNat) {s : S} (hs : good s)
    (hnext : (controller s).executed ++ run ++ rest = pairs) :
    ∃ request s', writeRun c run s =
        .ok ((execute step (controller s).memory run).2.map ReturnCode.ofCode) s' ∧ good s' ∧
      Asks run request ∧ controller s' = (controller s).handle step run request := by
  obtain ⟨hrequest, hresponse⟩ := fits_iff.mp hfits
  have hbudget := budget.toNat_lt
  obtain ⟨hgood, hsame⟩ := h.allocate s hs
  obtain ⟨request, hencode, hlength⟩ :=
    encodeWriteRequest_eq_ok (c.nextReference s).1 hne hcount (by omega)
  have hcodes := length_execute step (controller s).memory run
  -- the controller has to answer only if its answer keeps to the agreed length, which the plan has
  -- seen to
  have hanswer : (Pdu.writeAnswer (c.nextReference s).1
      (execute step (controller s).memory run).2).length ≤ budget.toNat := by
    rw [response_total_writes] at hresponse
    rw [Pdu.writeAnswer, Pdu.length_answer, hcodes]
    exact hresponse
  have hexchange := h.exchange _ hgood (c.nextReference s).1 run rest request
  rw [hsame] at hexchange
  obtain ⟨s', hexchange, hs', hcontroller⟩ :=
    hexchange hnext hencode (hlength.trans_le hrequest) hanswer
  refine ⟨request, s', ?_, hs', ⟨_, hencode⟩, hcontroller⟩
  refine Channel.request_ok hencode hexchange ?_
  rw [← hcodes]
  refine checkWriteResponse_writeAnswer ?_
  rw [hcodes]
  exact hcount

/-- A list is written, if it can be divided and each of the runs can be written. -/
theorem writeEach_of_runs {items : List RequestItem} {data : List DataItem}
    {parts : List (List (RequestItem × DataItem))} {results : List (List ReturnCode)} {s s' : S}
    (hpaired : items.length = data.length) (hready : c.checkReady s = .ok ())
    (hplan : planWrites (c.budget s) (items.zip data) = .ok parts)
    (hruns : parts.mapM (writeRun c) s = .ok results s') :
    writeEach c items data s = .ok results.flatten s' := by
  unfold writeEach
  rw [if_neg (not_not_intro hpaired)]
  dsimp only
  by_cases hitems : items = []
  · subst hitems
    have hnone : parts = [] := (plan_eq_ok_iff.mp hplan).2.trans (runs_nil writeDemand _)
    subst hnone
    cases hruns
    rfl
  · rw [if_neg hitems]
    exact Channel.divided_ok hready hplan hruns

/-- A list of data, each of which fits messages of its own, is written to its items, by executing the
runs of a division of the list. -/
theorem writeEach_ok {items : List RequestItem} {data : List DataItem}
    (hpaired : items.length = data.length)
    (h : c.Executes budget step (items.zip data) controller good)
    (hadmits : ∀ pair ∈ items.zip data,
      (writeSizes pair).1 ≤ budget.toNat ∧ (writeSizes pair).2 ≤ budget.toNat)
    {s : S} (hs : good s) (hfresh : (controller s).executed = []) :
    ∃ parts results s', parts.flatten = items.zip data ∧
      writeEach c items data s = .ok results.flatten s' ∧ good s' ∧
      Progress step (controller s) (controller s') parts results := by
  have halone : ∀ pair ∈ items.zip data, (alone writeDemand pair).fits budget.toNat := by
    intro pair hpair
    exact (fits_alone_iff alone_write pair _).mpr (hadmits pair hpair)
  have hplan : planWrites (c.budget s) (items.zip data) =
      .ok (runs writeDemand budget.toNat (items.zip data)) := by
    rw [h.agreed s hs]
    exact plan_eq_ok_iff.mpr ⟨halone, rfl⟩
  have hflatten := flatten_runs writeDemand budget.toNat (items.zip data)
  have hstep : ∀ done run rest results s',
      done ++ run :: rest = runs writeDemand budget.toNat (items.zip data) →
      good s' ∧ Progress step (controller s) (controller s') done results →
      ∃ result s'', writeRun c run s' = .ok result s'' ∧
        good s'' ∧ Progress step (controller s) (controller s'') (done ++ [run])
          (results ++ [result]) := by
    rintro done run rest results s' hposition ⟨hs', hprogress⟩
    have hrun : run ∈ runs writeDemand budget.toNat (items.zip data) := by
      rw [← hposition]
      exact List.mem_append_right done List.mem_cons_self
    obtain ⟨hne, hcount, hfits⟩ := runs_fit halone run hrun
    -- the run follows what has been executed
    have hnext : (controller s').executed ++ run ++ rest.flatten = items.zip data := by
      rw [hprogress.executed, ← hflatten, ← hposition, List.flatten_append, List.flatten_cons,
        List.append_assoc]
    obtain ⟨request, s'', hwrite, hs'', hasks, hcontroller⟩ :=
      writeRun_ok h hne hcount hfits hs' hnext
    refine ⟨_, s'', hwrite, hs'', ?_⟩
    rw [hcontroller]
    exact hprogress.handle hasks
  obtain ⟨results, s', hruns, hs', hprogress⟩ := mapM_ok_of_steps
    (fun done results s' => good s' ∧ Progress step (controller s) (controller s') done results)
    hstep ⟨hs, .refl hfresh⟩
  exact ⟨_, results, s', hflatten, writeEach_of_runs hpaired (h.ready s hs) hplan hruns, hs',
    hprogress⟩

end Batch

/-! ## A controller that counts -/

/-- A controller on the other end of a channel, with the reference of the last request. -/
structure Bench (π : Type) where
  /-- The controller. -/
  controller : Controller π
  /-- The reference. -/
  reference : UInt16

/-- The channel to a controller that is going to be sent some pairs. Of a message it looks at the
reference and at the number of its items. -/
def Channel.bench {π : Type} (step : π → RequestItem → DataItem → π × UInt8)
    (pairs : List (RequestItem × DataItem)) (budget : UInt16) : Channel (Bench π) where
  checkReady _ := .ok ()
  budget _ := budget
  nextReference s :=
    (Session.following s.reference, { s with reference := Session.following s.reference })
  exchange request s :=
    match Pdu.Header.decode request with
    | .ok (header, _ :: count :: _) =>
      let run := (pairs.drop s.controller.executed.length).take count.toNat
      .ok (Pdu.writeAnswer header.reference (execute step s.controller.memory run).2)
        { s with controller := s.controller.handle step run request }
    | _ => .error (.transport .timeout) s
  record _ s := s

/-- Whatever a controller does about an item, it can be on the other end. -/
theorem Channel.bench_executes {π : Type} (step : π → RequestItem → DataItem → π × UInt8)
    (pairs : List (RequestItem × DataItem)) (budget : UInt16) :
    (bench step pairs budget).Executes budget step pairs Bench.controller fun _ => True where
  ready _ _ := rfl
  agreed _ _ := rfl
  allocate _ _ := ⟨trivial, rfl⟩
  exchange s _ reference run rest request hnext hencode _ _ := by
    obtain ⟨-, -, hcount, -, rfl⟩ := Pdu.encodeWriteRequest_eq_ok_iff.mp hencode
    have htold := Pdu.Access.toNat_count hcount
    rw [List.length_map] at htold
    have hrun : (pairs.drop s.controller.executed.length).take run.length = run := by
      rw [← hnext, List.append_assoc, List.drop_left, List.take_left]
    have hdecode := Pdu.decode_requestHeader reference
      (Pdu.Access.write.parameters (run.map Prod.fst)).length
      (DataItem.encodeBlock (run.map Prod.snd)).length
      (Pdu.Access.write.parameters (run.map Prod.fst) ++ DataItem.encodeBlock (run.map Prod.snd))
    rw [← List.append_assoc] at hdecode
    refine ⟨{ s with controller := s.controller.handle step run _ }, ?_, trivial, rfl⟩
    simp only [bench, Pdu.writeRequest, hdecode]
    simp only [Pdu.Access.parameters, List.cons_append, List.length_map, htold, hrun]
    rfl

/-! ## Writing in parts -/

/-- **Writing in parts is writing.** Against a controller that executes what it is sent
(`Channel.Executes`), let data be written to a list of as many items, each of which fits messages of
its own, `12 + encodedLength + (4 + payload.length) ≤ budget` and `15 ≤ budget`. The call ends with a
value, and:

* the memory in the end and the return codes are those of `execute step memory (items.zip data)`, that
  is of executing each pair once, in the order of the list;
* what was sent are requests to write consecutive parts of the list, and all of it;
* if all items have to succeed, the channel ends in the same state, and so with the same messages
  sent, whatever the codes are. -/
theorem writing_in_parts {S π : Type} {c : Channel S} {budget : UInt16}
    {step : π → RequestItem → DataItem → π × UInt8} {controller : S → Controller π}
    {good : S → Prop} {items : List RequestItem} {data : List DataItem}
    (hpaired : items.length = data.length)
    (h : c.Executes budget step (items.zip data) controller good)
    (hadmits : ∀ pair ∈ items.zip data,
      12 + pair.1.encodedLength + (DataItem.headerLength + pair.2.payload.length) ≤ budget.toNat ∧
        14 + 1 ≤ budget.toNat)
    {s : S} (hs : good s) (hfresh : (controller s).executed = []) :
    let (outcome, after) := (Batch.writeEach c items data).outcome s
    let (memory, codes) := execute step (controller s).memory (items.zip data)
    outcome = .ok (codes.map ReturnCode.ofCode) ∧
      (controller after).memory = memory ∧ (controller after).executed = items.zip data ∧
      (∃ parts requests, parts.flatten = items.zip data ∧ List.Forall₂ Asks parts requests ∧
        (controller after).received = (controller s).received ++ requests) ∧
      ((Batch.writeAll c items data).outcome s).2 = after := by
  obtain ⟨parts, results, after, hflatten, hwrite, -, hprogress⟩ :=
    Batch.writeEach_ok hpaired h hadmits hs hfresh
  have hcodes := hprogress.codes
  have hmemory := hprogress.memory
  have hexecuted := hprogress.executed
  obtain ⟨requests, hrequests, hreceived⟩ := hprogress.received
  rw [hflatten] at hcodes hmemory hexecuted
  rw [Batch.outcome_writeAll, outcome_of_ok hwrite, hcodes]
  exact ⟨rfl, hmemory, hexecuted, ⟨parts, requests, hflatten, hrequests, hreceived⟩, rfl⟩

/-- Three words, of which the second is refused, by messages of at most 50 bytes. -/
theorem writing_in_parts_refused :
    let word (byte : UInt32) : RequestItem := .standard
      { address := { area := .dataBlock, block := 1, byte, bit := 0 }, type := .byte, count := 2 }
    let items : List RequestItem := [word 0, word 2, word 4]
    let data : List DataItem := [.ofBytes [1, 2], .ofBytes [3, 4], .ofBytes [5, 6]]
    let step (memory : List Bytes) (item : RequestItem) (data : DataItem) : List Bytes × UInt8 :=
      if item = word 2 then (memory, 0x05) else (memory ++ [data.payload], 0xFF)
    let c := Channel.bench step (items.zip data) 50
    let fresh : Bench (List Bytes) :=
      { controller := { memory := [], executed := [], received := [] }, reference := 0 }
    let (outcome, after) := (Batch.writeEach c items data).outcome fresh
    outcome = .ok [.success, .addressOutOfRange, .success] ∧
      after.controller.memory = [[1, 2], [5, 6]] ∧ after.controller.executed = items.zip data ∧
      ((Batch.writeAll c items data).outcome fresh).2 = after := by
  intro word items data step c fresh
  have hadmits : ∀ pair ∈ items.zip data,
      12 + pair.1.encodedLength + (DataItem.headerLength + pair.2.payload.length) ≤
          (50 : UInt16).toNat ∧
        14 + 1 ≤ (50 : UInt16).toNat := by
    decide
  obtain ⟨houtcome, hmemory, hexecuted, -, hall⟩ :=
    writing_in_parts (s := fresh) rfl (Channel.bench_executes step (items.zip data) 50) hadmits
      trivial rfl
  exact ⟨houtcome, hmemory, hexecuted, hall⟩

end S7Comm
