import S7Comm.Proofs.Received

/-!
# All items, or each for itself

A list of places can be used in two ways. Each item is taken for itself: what the controller says of
it is part of the result, and an item that failed is a gap in it. Or all items have to succeed, and
the first one that did not is the error.

**One conversation, two verdicts.** Both ways send the same packets, and leave the same session behind
them, however many messages the list takes, whichever items fail, and whatever goes wrong in a later
message. All that differs is what is said at the end.

* `Call.Judges verdict first second`: two calls end in the same state, and with the same error if the
  first one fails; if it ends with a value, the second ends with a `verdict` on the value. It passes
  to what is made of the values (`Call.Judges.bind`, `Call.Judges.form`).
* `Batch.FailsAt codes i`: the return code at position `i` is not `.success`.
* `Batch.Verdict codes value result`: `.ok value` if nothing failed, and else `.error (.item index
  code failed)`, of which `Batch.Names` says that `failed` are all positions that failed, in ascending
  order, that `index` is the first of them, and `code` its return code. The positions are those of the
  list and not of a message.
* `Batch.Isolates codes values`: there is one entry for each item, and it is `none` exactly where the
  item failed.

**Main result** (`Station.strict_differs_in_verdict`): of lists of places to read, of bits, and of
places to write, in any state of a session and for any other end.
-/

namespace S7Comm

namespace Call

variable {S α β α' β' : Type}

/-- Two calls end alike up to a verdict: in the same state; with the same error; or, if the first one
ends with a value, the second with a verdict on it. -/
inductive Judges (verdict : α → Except Error β → Prop) :
    Except Error α × S → Except Error β × S → Prop where
  /-- What fails fails both times. -/
  | failed (e : Error) (s : S) : Judges verdict (.error e, s) (.error e, s)
  /-- A value is judged. -/
  | judged {value : α} {result : Except Error β} (s : S) :
    verdict value result → Judges verdict (.ok value, s) (result, s)

/-- To look at a value is to judge it: if the look leads to the verdict on each value that the call
can end with, then the call with the look behind it ends alike up to that verdict. -/
theorem judges_bind_check {verdict : α → Except Error α → Prop} {check : α → Except Error Unit}
    {call : Call S α}
    (hcheck : ∀ value, Yields call value → verdict value (check value >>= fun _ => .ok value))
    (s : S) :
    Judges verdict (call.outcome s)
      ((call >>= fun value => ofExcept (check value) >>= fun _ => pure value).outcome s) := by
  cases hcall : call s with
  | error e after =>
    rw [outcome_of_error hcall, outcome_of_error (bind_of_error hcall _)]
    exact .failed e after
  | ok value after =>
    have hverdict := hcheck value ⟨s, after, hcall⟩
    rw [outcome_of_ok hcall, outcome, bind_of_ok hcall]
    cases hresult : check value with
    | ok =>
      rw [hresult] at hverdict
      exact .judged after hverdict
    | error e =>
      rw [hresult] at hverdict
      exact .judged after hverdict

/-- Calls that end alike up to a verdict still do when something is made of their values in which the
state has no part. -/
theorem Judges.bind {verdict : α → Except Error β → Prop} {verdict' : α' → Except Error β' → Prop}
    {call : Call S α} {call' : Call S β} {next : α → Call S α'} {next' : β → Call S β'} {s : S}
    (h : Judges verdict (call.outcome s) (call'.outcome s))
    (hnext : ∀ value result, (call.outcome s).1 = .ok value → verdict value result →
      ∃ value' result', next value = pure value' ∧
        (ofExcept result >>= next') = ofExcept result' ∧ verdict' value' result') :
    Judges verdict' ((call >>= next).outcome s) ((call' >>= next').outcome s) := by
  generalize hend : call.outcome s = ends at h
  generalize hend' : call'.outcome s = ends' at h
  cases h with
  | failed e after =>
    rw [outcome_of_error (bind_of_error (error_of_outcome hend) next),
      outcome_of_error (bind_of_error (error_of_outcome hend') next')]
    exact .failed e after
  | @judged value result after hverdict =>
    obtain ⟨value', result', hvalue, hresult, hverdict'⟩ :=
      hnext value result (by rw [hend]) hverdict
    have hsecond : (call' >>= next') s = (ofExcept result >>= next') after := by
      cases result with
      | ok other => exact bind_of_ok (ok_of_outcome hend') next'
      | error e => exact bind_of_error (error_of_outcome hend') next'
    rw [Call.outcome, bind_of_ok (ok_of_outcome hend), hvalue, Call.outcome, hsecond, hresult]
    cases result' with
    | ok other => exact .judged after hverdict'
    | error e => exact .judged after hverdict'

/-- Calls that end alike up to a verdict still do when their values are given other forms. -/
theorem Judges.form {verdict : α → Except Error β → Prop} {verdict' : α' → Except Error β' → Prop}
    {call : Call S α} {call' : Call S β} {form : α → α'} {form' : β → β'} {s : S}
    (h : Judges verdict (call.outcome s) (call'.outcome s))
    (hform : ∀ value result, (call.outcome s).1 = .ok value → verdict value result →
      verdict' (form value) (result.map form')) :
    Judges verdict' ((call >>= fun value => pure (form value)).outcome s)
      ((call' >>= fun value => pure (form' value)).outcome s) := by
  apply h.bind
  intro value result hvalue hverdict
  refine ⟨form value, result.map form', rfl, ?_, hform value result hvalue hverdict⟩
  cases result <;> rfl

end Call

open Call

namespace Batch

/-! ## Verdicts

The look at the return codes collects the failures with their positions (`failures`); the facts about
them are those of a filtered list with indices.
-/

/-- The item at a position failed. -/
def FailsAt (codes : List ReturnCode) (i : Nat) : Prop :=
  ∃ code, codes[i]? = some code ∧ code ≠ .success

/-- What an error says of items that failed. -/
structure Names (codes : List ReturnCode) (index : Nat) (code : ReturnCode) (failed : List Nat) :
    Prop where
  /-- The positions ascend. -/
  ascending : failed.Pairwise (· < ·)
  /-- They are those of all items that failed. -/
  complete : ∀ i, i ∈ failed ↔ FailsAt codes i
  /-- The first of them is the one that is spoken of. -/
  first : failed.head? = some index
  /-- What the controller says of it. -/
  code : codes[index]? = some code

/-- The verdict on a value that was obtained with some return codes, where all items have to
succeed. -/
inductive Verdict {α : Type} (codes : List ReturnCode) (value : α) : Except Error α → Prop where
  /-- No item failed. -/
  | passed : (∀ i, ¬ FailsAt codes i) → Verdict codes value (.ok value)
  /-- Some items failed. -/
  | failed {index : Nat} {code : ReturnCode} {failed : List Nat} :
    Names codes index code failed → Verdict codes value (.error (.item index code failed))

/-- Of a list of values there is none exactly where the item failed. -/
structure Isolates {α : Type} (codes : List ReturnCode) (values : List (Option α)) : Prop where
  /-- There is one entry for each item. -/
  length : values.length = codes.length
  /-- An entry is missing where the item failed. -/
  none_iff : ∀ i, values[i]? = some none ↔ FailsAt codes i

/-- A code stands among the failures with a position exactly if it is the code at that position, and
no success. -/
theorem mem_failures_iff {codes : List ReturnCode} {code : ReturnCode} {i : Nat} :
    (code, i) ∈ failures codes ↔ codes[i]? = some code ∧ code ≠ .success := by
  simp [failures, List.mem_zipIdx_iff_getElem?, ReturnCode.isSuccess]

/-- The positions of the failures are the positions of the items that failed. -/
theorem mem_map_failures_iff {codes : List ReturnCode} {i : Nat} :
    i ∈ (failures codes).map Prod.snd ↔ FailsAt codes i := by
  simp [FailsAt, mem_failures_iff]

/-- The failures of a list come in the order of their positions. -/
theorem ascending_failures (codes : List ReturnCode) :
    ((failures codes).map Prod.snd).Pairwise (· < ·) := by
  have hsublist : ((failures codes).map Prod.snd).Sublist (codes.zipIdx.map Prod.snd) :=
    List.filter_sublist.map Prod.snd
  apply List.Pairwise.sublist hsublist
  rw [List.zipIdx_map_snd]
  exact List.pairwise_lt_range'

/-- The look at the return codes is the verdict: without a failure the value stands, and else the
error has the first of them with its code, and the positions of all. That the first is the one with
the lowest position is `ascending_failures`. -/
theorem verdict_checkCodes {α : Type} (codes : List ReturnCode) (value : α) :
    Verdict codes value (checkCodes codes >>= fun _ => .ok value) := by
  unfold checkCodes
  have hmem : ∀ i, i ∈ (failures codes).map Prod.snd ↔ FailsAt codes i :=
    fun _ => mem_map_failures_iff
  have hascending := ascending_failures codes
  cases hfailures : failures codes with
  | nil =>
    rw [hfailures] at hmem
    apply Verdict.passed
    intro i hi
    exact absurd ((hmem i).mpr hi) List.not_mem_nil
  | cons failure others =>
    obtain ⟨code, index⟩ := failure
    have hfirst : (code, index) ∈ failures codes := by simp [hfailures]
    rw [hfailures] at hmem hascending
    apply Verdict.failed
    exact ⟨hascending, hmem, rfl, (mem_failures_iff.mp hfirst).1⟩

/-- Where no item failed, each succeeded. -/
theorem forall_isSuccess {results : List DataItem}
    (h : ∀ i, ¬ FailsAt (results.map DataItem.returnCode) i) :
    ∀ item ∈ results, item.isSuccess = true := by
  intro item hitem
  obtain ⟨i, hi⟩ := List.mem_iff_getElem?.mp hitem
  by_contra hfailed
  apply h i
  refine ⟨item.returnCode, by rw [List.getElem?_map, hi]; rfl, ?_⟩
  simpa [DataItem.isSuccess, ReturnCode.isSuccess] using hfailed

/-- The payloads of items, or what was made of them item by item, are missing exactly where the items
failed. -/
theorem isolates_payload? {α : Type} {results : List DataItem} {values : List (Option α)}
    (h : List.Forall₂ (fun item value => value = none ↔ item.isSuccess = false) results values) :
    Isolates (results.map DataItem.returnCode) values := by
  refine ⟨by rw [List.length_map, h.length_eq], fun i => ?_⟩
  simp only [FailsAt, List.getElem?_map]
  induction h generalizing i with
  | nil => simp
  | @cons item value results values hfirst _ ih =>
    cases i with
    | zero =>
      simp [hfirst, DataItem.isSuccess, ReturnCode.isSuccess]
    | succ i => simpa using ih i

/-! ## Lists of items -/

variable {S : Type} {c : Channel S}

/-- An item that was read has just the bytes that were asked for. -/
theorem fulfils_of_readEach {items : List RequestItem} {results : List DataItem}
    (h : Yields (readEach c items) results) : List.Forall₂ Pdu.Fulfils items results := by
  have hrun : ∀ run answers, Yields (readRun c run) answers → List.Forall₂ Pdu.Fulfils run answers := by
    intro run answers hread
    obtain ⟨reference, -, hread⟩ := hread.of_bind
    obtain ⟨request, -, hread⟩ := hread.of_bind
    obtain ⟨response, -, hread⟩ := hread.of_bind
    exact (checkReadResponse_eq_ok_iff_sound.mp (Channel.result_of_yields_accept hread)).fulfilled
  unfold readEach at h
  split at h
  · next hnil =>
    rw [h.of_pure, hnil]
    exact .nil
  · obtain ⟨_, -, h⟩ := h.of_bind
    obtain ⟨budget, -, h⟩ := h.of_bind
    obtain ⟨runs, hplan, h⟩ := h.of_bind
    obtain ⟨answers, hanswers, h⟩ := h.of_bind
    have hplan : planReads budget items = .ok runs := hplan.of_ofExcept
    rw [h.of_pure, ← flatten_of_plan hplan]
    exact List.rel_flatten (hanswers.of_mapM.imp hrun)

/-- A message that was written has brought a return code for each item. -/
theorem length_of_writeRun {pairs : List (RequestItem × DataItem)} {codes : List ReturnCode}
    (h : Yields (writeRun c pairs) codes) : codes.length = pairs.length := by
  obtain ⟨reference, -, h⟩ := h.of_bind
  obtain ⟨request, -, h⟩ := h.of_bind
  obtain ⟨response, -, h⟩ := h.of_bind
  have hcheck := Channel.result_of_yields_accept h
  simp only [checkWriteResponse, except_bind_eq_ok_iff, guard_eq_ok_iff] at hcheck
  obtain ⟨⟨header, found⟩, -, -, -, hlength, hend⟩ := hcheck
  cases hend
  exact not_not.mp hlength

/-- A list that was written has brought a return code for each item. -/
theorem length_of_writeEach {items : List RequestItem} {data : List DataItem}
    {codes : List ReturnCode} (h : Yields (writeEach c items data) codes) :
    codes.length = items.length := by
  have hpaired : items.length = data.length := by
    by_contra hne
    unfold writeEach at h
    rw [if_pos hne] at h
    obtain ⟨_, hthrow, -⟩ := h.of_bind
    exact not_yields_throw _ _ hthrow
  unfold writeEach at h
  rw [if_neg (not_not_intro hpaired)] at h
  dsimp only at h
  split at h
  · next hnil =>
    rw [h.of_pure, hnil]
    rfl
  · obtain ⟨_, -, h⟩ := h.of_bind
    obtain ⟨budget, -, h⟩ := h.of_bind
    -- one code for each item of a run, and the runs are the list
    obtain ⟨runs, hplan, h⟩ := h.of_bind
    obtain ⟨answers, hanswers, h⟩ := h.of_bind
    have hplan : planWrites budget (items.zip data) = .ok runs := hplan.of_ofExcept
    rw [h.of_pure, length_flatten_of_forall₂ (hanswers.of_mapM.imp fun _ _ => length_of_writeRun),
      flatten_of_plan hplan, List.length_zip, ← hpaired, min_self]

/-- Reading a list strictly is reading it and judging what was read; each item has the length that was
asked for, if it succeeded, in both ways. -/
theorem judges_readAll (c : Channel S) (items : List RequestItem) (s : S) :
    Judges (fun results verdict => List.Forall₂ Pdu.Fulfils items results ∧
        Verdict (results.map DataItem.returnCode) results verdict)
      ((readEach c items).outcome s) ((readAll c items).outcome s) := by
  apply judges_bind_check
  intro results hresults
  exact ⟨fulfils_of_readEach hresults, verdict_checkCodes _ results⟩

/-- Writing a list strictly is writing it and judging what came back. -/
theorem judges_writeAll (c : Channel S) (items : List RequestItem) (data : List DataItem) (s : S) :
    Judges (fun codes verdict => codes.length = items.length ∧ Verdict codes codes verdict)
      ((writeEach c items data).outcome s) ((writeAll c items data).outcome s) := by
  apply judges_bind_check
  intro codes hcodes
  exact ⟨length_of_writeEach hcodes, verdict_checkCodes codes codes⟩

/-- A verdict on a value is one on every form of it. -/
theorem Verdict.map {α β : Type} {codes : List ReturnCode} {value : α} {result : Except Error α}
    (h : Verdict codes value result) (form : α → β) : Verdict codes (form value) (result.map form) := by
  cases h with
  | passed hnone => exact .passed hnone
  | failed hnames => exact .failed hnames

/-- What passes has its form, and what fails still fails: if `next` is `pure value'` where no item
failed, then what follows on the verdict is a verdict on `value'`. -/
theorem Verdict.bind {α β : Type} {codes : List ReturnCode} {value : α} {value' : β}
    {result : Except Error α} {next : α → Call S β} (h : Verdict codes value result)
    (hnext : (∀ i, ¬ FailsAt codes i) → next value = pure value') :
    ∃ result', (ofExcept result >>= next) = ofExcept result' ∧ Verdict codes value' result' := by
  cases h with
  | passed hnone => exact ⟨.ok value', hnext hnone, .passed hnone⟩
  | failed hnames => exact ⟨_, rfl, .failed hnames⟩

end Batch

/-! ## Bits

Bits are read as bytes, and the bit of a byte can be looked at only if there is a byte. So the two
ways come to the same end here only because a byte that was read is there (`fulfils_of_readEach`).
-/

namespace Client

variable {S : Type}

/-- One byte can be looked at for its bit. -/
theorem exists_isSet {bytes : Bytes} (h : bytes.length = 1) : ∃ bit, isSet bytes = .ok bit := by
  obtain ⟨byte, rfl⟩ := List.length_eq_one_iff.mp h
  exact ⟨_, rfl⟩

/-- What stands in the second of two lists has something beside it in the first. -/
theorem exists_of_forall₂ {α β : Type} {R : α → β → Prop} {inputs : List α} {results : List β}
    (h : List.Forall₂ R inputs results) {result : β} (hresult : result ∈ results) :
    ∃ input ∈ inputs, R input result := by
  induction h with
  | nil => cases hresult
  | cons hfirst _ ih =>
    rcases List.mem_cons.mp hresult with rfl | hbehind
    · exact ⟨_, List.mem_cons_self, hfirst⟩
    · obtain ⟨input, hinput, hrelated⟩ := ih hbehind
      exact ⟨input, List.mem_cons_of_mem _ hinput, hrelated⟩

/-- There is an item of one byte for each of the addresses of some bits. -/
theorem bits_of_bitItems {addresses : List String} {items : List RequestItem}
    (h : bitItems addresses = .ok items) :
    items.length = addresses.length ∧
      ∀ item ∈ items, ∃ place, item = .standard place ∧ place.dataLength = 1 := by
  have hitems := forall₂_of_mapM h
  refine ⟨hitems.length_eq.symm, ?_⟩
  intro item hitem
  obtain ⟨text, -, hmade⟩ := exists_of_forall₂ hitems hitem
  obtain ⟨address, -, hend⟩ := except_bind_eq_ok_iff.mp hmade
  cases hend
  exact ⟨.single address, rfl, rfl⟩

/-- An item of one byte that was read has one byte. -/
theorem length_payload_of_bits {items : List RequestItem} {results : List DataItem}
    (hbits : ∀ item ∈ items, ∃ place, item = .standard place ∧ place.dataLength = 1)
    (h : List.Forall₂ Pdu.Fulfils items results) :
    ∀ result ∈ results, result.isSuccess = true → result.payload.length = 1 := by
  intro result hresult hsuccess
  obtain ⟨item, hitem, hfulfils⟩ := exists_of_forall₂ h hresult
  obtain ⟨place, rfl, hlength⟩ := hbits item hitem
  exact (hfulfils place rfl hsuccess).trans hlength

/-- Where each item that was read has one byte, the bits are there for those items; and if all items
were read, for all. The first half is what `readEachBit` makes of the items, the second what
`readBits` does, and the bits of the second are those of the first without the gaps. -/
theorem exists_bits {results : List DataItem}
    (h : ∀ item ∈ results, item.isSuccess = true → item.payload.length = 1) :
    ∃ bits : List (Option Bool),
      (results.mapM fun item =>
        match item.payload? with
        | some payload => do return some (← isSet payload)
        | none => return none) = (pure bits : Call S (List (Option Bool))) ∧
      List.Forall₂ (fun item bit => bit = none ↔ item.isSuccess = false) results bits ∧
      ((∀ item ∈ results, item.isSuccess = true) →
        (results.mapM fun item =>
          (Call.ofExcept ((isSet item.payload).mapError .insufficientData) : Call S Bool)) =
            pure (bits.filterMap id)) := by
  induction results with
  | nil => exact ⟨[], rfl, .nil, fun _ => rfl⟩
  | cons item results ih =>
    obtain ⟨bits, heach, hnone, hall⟩ := ih fun other hother => h other (List.mem_cons_of_mem _ hother)
    rw [List.mapM_cons, List.mapM_cons, heach]
    -- an item that was read has its byte; without one there is a gap, and not all were read
    by_cases hsuccess : item.isSuccess = true
    · obtain ⟨bit, hbit⟩ := exists_isSet (h item List.mem_cons_self hsuccess)
      have hpayload : item.payload? = some item.payload := if_pos hsuccess
      refine ⟨some bit :: bits, ?_, .cons (by simp [hsuccess]) hnone, ?_⟩
      · rw [hpayload]
        dsimp only
        rw [hbit]
        rfl
      · intro hrest
        rw [hall fun other hother => hrest other (List.mem_cons_of_mem _ hother), hbit]
        rfl
    · have hpayload : item.payload? = none := if_neg hsuccess
      refine ⟨none :: bits, ?_, .cons (by simp [hsuccess]) hnone, ?_⟩
      · rw [hpayload]
        rfl
      · intro hrest
        exact absurd (hrest item List.mem_cons_self) hsuccess

/-- Reading bits strictly is reading them as far as they can be read, and judging what was read: with
one result for each address, a gap exactly where its item failed, and the verdict on the bits that
there are. -/
theorem judges_readBits (c : Client S) {addresses : List String} {items : List RequestItem}
    (hitems : bitItems addresses = .ok items) (s : S) :
    Judges (fun bits verdict => ∃ results,
        ((Batch.readEach c.channel items).outcome s).1 = .ok results ∧
        results.length = addresses.length ∧
        Batch.Isolates (results.map DataItem.returnCode) bits ∧
        Batch.Verdict (results.map DataItem.returnCode) (bits.filterMap id) verdict)
      ((c.readEachBit addresses).outcome s) ((c.readBits addresses).outcome s) := by
  obtain ⟨hlength, hbyte⟩ := bits_of_bitItems hitems
  unfold readEachBit readBits
  rw [hitems]
  apply (Batch.judges_readAll c.channel items s).bind
  rintro results result hread ⟨hfulfils, hverdict⟩
  obtain ⟨bits, heach, hnone, hall⟩ := exists_bits (length_payload_of_bits hbyte hfulfils)
  have hstrict := hverdict.bind fun hpassed => hall (Batch.forall_isSuccess hpassed)
  obtain ⟨result', hresult, hverdict'⟩ := hstrict
  refine ⟨bits, result', heach, hresult, results, hread, ?_, ?_, hverdict'⟩
  · exact hfulfils.length_eq.symm.trans hlength
  · exact Batch.isolates_payload? hnone

end Client

namespace Station

variable {σ : Type}

/-- **The strict way differs in the verdict.** In whatever state a session is, and whatever the other
end does, the two ways of each pair, `readEachOf` and `readMany`, `readEachBit` and `readBits`,
`writeEachOf` and `writeMany`, are one conversation: they leave the same session and the same network
behind, and what ends the one with an error ends the other with it.

* Otherwise there is a result for each place, `results.length = list.size`, and in reading it is a gap
  exactly where its item failed (`Batch.Isolates`).
* The strict way returns the same if no item failed, and else the error `.item index code failed`,
  with the positions of all that did in ascending order, and the return code of the first
  (`Batch.Verdict`, `Batch.Names`). -/
theorem strict_differs_in_verdict (peer : Peer σ) (st : Station σ) :
    let ended (command : Command) := (perform peer (.command command)).outcome st
    let read (items : List RequestItem) := ((Batch.readEach (channel peer) items).outcome st).1
    (∀ list : ReadList, Judges (fun answer verdict => ∃ results,
        read list.items.toList = .ok results ∧ results.length = list.size ∧
        answer = .payloads (results.map DataItem.payload?) ∧
        Batch.Isolates (results.map DataItem.returnCode) (results.map DataItem.payload?) ∧
        Batch.Verdict (results.map DataItem.returnCode) (Answer.items results) verdict)
      (ended (.readEachOf list)) (ended (.readMany list))) ∧
    (∀ addresses : List String, Judges (fun answer verdict => ∃ items results bits,
        Client.bitItems addresses = .ok items ∧ read items = .ok results ∧
        results.length = addresses.length ∧ answer = .maybeBits bits ∧
        Batch.Isolates (results.map DataItem.returnCode) bits ∧
        Batch.Verdict (results.map DataItem.returnCode) (Answer.bits (bits.filterMap id)) verdict)
      (ended (.readEachBit addresses)) (ended (.readBits addresses))) ∧
    ∀ list : WriteList, Judges (fun answer verdict => ∃ codes,
        answer = .codes codes ∧ codes.length = list.size ∧
        Batch.Verdict codes Answer.nothing verdict)
      (ended (.writeEachOf list)) (ended (.writeMany list)) := by
  intro ended read
  refine ⟨fun list => ?_, fun addresses => ?_, fun list => ?_⟩
  · have heach : ended (.readEachOf list) = (Batch.readEach (channel peer) list.items.toList >>=
        fun results => pure (Answer.payloads (results.map DataItem.payload?))).outcome st := by
      apply outcome_congr
      exact congrFun (bind_assoc (Batch.readEach (channel peer) list.items.toList) _ _) st
    rw [heach]
    apply (Batch.judges_readAll (channel peer) list.items.toList st).form
    rintro results result hread ⟨hfulfils, hverdict⟩
    refine ⟨results, hread, hfulfils.length_eq.symm, rfl, ?_, hverdict.map Answer.items⟩
    apply Batch.isolates_payload?
    rw [List.forall₂_map_right_iff, List.forall₂_same]
    intro item _
    simp [DataItem.payload?]
  -- where an address of a bit is none, both ways are refused alike
  · cases hitems : Client.bitItems addresses with
    | error e =>
      have heach : ended (.readEachBit addresses) = (.error e, st) := by
        apply outcome_of_error
        change ((ofExcept (Client.bitItems addresses) >>= _) >>= _) st = _
        rw [hitems]
        rfl
      have hall : ended (.readBits addresses) = (.error e, st) := by
        apply outcome_of_error
        change ((ofExcept (Client.bitItems addresses) >>= _) >>= _) st = _
        rw [hitems]
        rfl
      rw [heach, hall]
      exact .failed e st
    | ok items =>
      apply (Client.judges_readBits (Client.ofPeer peer st.session.options) hitems st).form
      rintro bits result - ⟨results, hread, hlength, hisolates, hverdict⟩
      exact ⟨items, results, bits, rfl, hread, hlength, rfl, hisolates, hverdict.map Answer.bits⟩
  · have hall : ended (.writeMany list) = (Batch.writeAll (channel peer) list.items list.data >>=
        fun _ => pure Answer.nothing).outcome st := by
      apply outcome_congr
      exact congrFun (bind_assoc (Batch.writeAll (channel peer) list.items list.data) _ _) st
    rw [hall]
    apply (Batch.judges_writeAll (channel peer) list.items list.data st).form
    rintro codes result - ⟨hlength, hverdict⟩
    exact ⟨codes, rfl, by simpa [WriteList.items, WriteList.size] using hlength,
      hverdict.map fun _ => Answer.nothing⟩

end Station

end S7Comm
