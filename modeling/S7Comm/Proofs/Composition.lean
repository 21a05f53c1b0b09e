import Mathlib.Data.List.Forall2
import S7Comm.Call

/-!
# Calls that are made of calls

A call is put together from smaller ones, one after the other, with errors that end it on the way. Two
things about such calls are kept apart here.

**How a sequence runs.**

* `bind_of_ok`, `bind_of_error`: from `call s = .ok value s'` the sequence `(call >>= next) s` is
  `next value s'`; from `call s = .error e s'` it is `.error e s'`. `bind_cases` are the two of them
  as one case distinction, with which a proof about a sequence begins.
* `mapM_ok_of_steps`: a row of calls. If `I done results s` holds of the inputs that are done, their
  results and the state, and each call carries it to `I (done ++ [input]) (results ++ [result]) s'`,
  then `inputs.mapM call` ends with a value, and `I inputs results s'`. This is the induction behind
  every run of requests.
* `Yields call value := ∃ before after, call before = .ok value after`: a value that a call can have.
  Backwards, a value of a sequence comes from values of its parts (`Yields.of_bind`,
  `Yields.of_mapM`).
* `outcome_of_ok`, `outcome_of_error` and their converses go between a run and its `Call.outcome`,
  which has the error and the state side by side.

**What holds of all calls of some make.**

* `Composes P`: the property `P` holds of a value, of an error that leaves the session usable, and of
  `call >>= next` if it holds of `call` and of `next value` for each value that `call` yields. It has
  then to be looked into for the smallest parts only, and the operations of a client have it without
  their steps being followed.
* `FailsWith P result`, `Errs P call`: all errors are of a kind, without a state and with one.
  `Harmless` is the kind that is used most, `e.isFatal = false`.

Of `Except` only what is needed later is here; Mathlib says nothing of `mapM` and `mapError` over it.
-/

namespace S7Comm.Call

variable {S α β : Type}

/-! ## Running a sequence -/

/-- What runs behind a call that ends with a value. -/
theorem bind_of_ok {call : Call S α} {s s' : S} {value : α} (h : call s = .ok value s')
    (next : α → Call S β) : (call >>= next) s = next value s' := by
  change EStateM.bind call next s = _
  rw [EStateM.bind, h]

/-- Nothing runs behind a call that ends with an error. -/
theorem bind_of_error {call : Call S α} {s s' : S} {e : Error} (h : call s = .error e s')
    (next : α → Call S β) : (call >>= next) s = .error e s' := by
  change EStateM.bind call next s = _
  rw [EStateM.bind, h]

/-- Behind calls that run alike the same runs. -/
theorem bind_congr_left {call call' : Call S α} {s : S} (h : call s = call' s)
    (next : α → Call S β) : (call >>= next) s = (call' >>= next) s := by
  change EStateM.bind call next s = EStateM.bind call' next s
  rw [EStateM.bind, EStateM.bind, h]

/-- The two ways in which a sequence can run. -/
theorem bind_cases (call : Call S α) (next : α → Call S β) (s : S) :
    (∃ value s', call s = .ok value s' ∧ (call >>= next) s = next value s') ∨
      ∃ e s', call s = .error e s' ∧ (call >>= next) s = .error e s' := by
  cases h : call s with
  | ok value s' => exact .inl ⟨value, s', rfl, bind_of_ok h next⟩
  | error e s' => exact .inr ⟨e, s', rfl, bind_of_error h next⟩

/-- A sequence that ends with a value has run through. -/
theorem ok_of_bind {call : Call S α} {next : α → Call S β} {s s'' : S} {result : β}
    (h : (call >>= next) s = .ok result s'') :
    ∃ value s', call s = .ok value s' ∧ next value s' = .ok result s'' := by
  rcases bind_cases call next s with ⟨value, s', hcall, hbind⟩ | ⟨e, s', -, hbind⟩
  · exact ⟨value, s', hcall, hbind.symm.trans h⟩
  · cases hbind.symm.trans h

/-- The outcome of a call that ends with a value. -/
theorem outcome_of_ok {call : Call S α} {s s' : S} {value : α} (h : call s = .ok value s') :
    call.outcome s = (.ok value, s') := by
  rw [outcome, h]

/-- The outcome of a call that ends with an error. -/
theorem outcome_of_error {call : Call S α} {s s' : S} {e : Error} (h : call s = .error e s') :
    call.outcome s = (.error e, s') := by
  rw [outcome, h]

/-- Calls that run alike have the same outcome. -/
theorem outcome_congr {call call' : Call S α} {s : S} (h : call s = call' s) :
    call.outcome s = call'.outcome s := by
  rw [outcome, outcome, h]

/-- A call whose outcome is a value ends with it. -/
theorem ok_of_outcome {call : Call S α} {s s' : S} {value : α}
    (h : call.outcome s = (.ok value, s')) : call s = .ok value s' := by
  rw [outcome] at h
  split at h
  · next hrun =>
    cases h
    exact hrun
  · cases h

/-- A call whose outcome is an error ends with it. -/
theorem error_of_outcome {call : Call S α} {s s' : S} {e : Error}
    (h : call.outcome s = (.error e, s')) : call s = .error e s' := by
  rw [outcome] at h
  split at h
  · cases h
  · next hrun =>
    cases h
    exact hrun

/-- To give a value another form does not change where a call ends. -/
theorem outcome_bind_pure (call : Call S α) (form : α → β) (s : S) :
    ((call >>= fun value => pure (form value)).outcome s).2 = (call.outcome s).2 := by
  rcases bind_cases call (fun value => pure (form value)) s with
    ⟨value, s', hrun, hbind⟩ | ⟨e, s', hrun, hbind⟩
  · rw [outcome_of_ok hrun, outcome_of_ok (hbind.trans rfl)]
  · rw [outcome_of_error hrun, outcome_of_error hbind]

/-- If there is a value in another form, there was one before. -/
theorem exists_ok_of_bind_pure {call : Call S α} {form : α → β} {s : S} {result : β}
    (h : ((call >>= fun value => pure (form value)).outcome s).1 = .ok result) :
    ∃ value, (call.outcome s).1 = .ok value := by
  rcases bind_cases call (fun value => pure (form value)) s with
    ⟨value, s', hrun, -⟩ | ⟨e, s', -, hbind⟩
  · exact ⟨value, by rw [outcome_of_ok hrun]⟩
  · rw [outcome_of_error hbind] at h
    cases h

/-- To look at a value does not change where a call ends, whatever is made of it. -/
theorem outcome_bind_check (call : Call S α) (check : α → Except Error Unit) (s : S) :
    ((call >>= fun value => ofExcept (check value) >>= fun _ => pure value).outcome s).2 =
      (call.outcome s).2 := by
  rcases bind_cases call (fun value => ofExcept (check value) >>= fun _ => pure value) s with
    ⟨value, s', hrun, hbind⟩ | ⟨e, s', hrun, hbind⟩
  · rw [outcome_of_ok hrun, outcome, hbind]
    cases check value with
    | ok => rfl
    | error e => rfl
  · rw [outcome_of_error hrun, outcome_of_error hbind]

/-- A value that passes a look at it is the one that was looked at. -/
theorem ok_of_bind_check {call : Call S α} {check : α → Except Error Unit} {value : α} {s s' : S}
    (h : (call >>= fun value => ofExcept (check value) >>= fun _ => pure value) s = .ok value s') :
    call s = .ok value s' := by
  obtain ⟨found, middle, hrun, hnext⟩ := ok_of_bind h
  cases hcheck : check found with
  | ok =>
    rw [hcheck] at hnext
    cases hnext
    exact hrun
  | error e =>
    rw [hcheck] at hnext
    cases hnext

/-- A row of calls, each of which ends with a value and preserves what is known of the inputs that are
done, of their results, and of the state, ends with a value for each input. -/
theorem mapM_ok_of_steps (I : List α → List β → S → Prop) {call : α → Call S β} {inputs : List α}
    (hstep : ∀ done input rest results s, done ++ input :: rest = inputs → I done results s →
      ∃ result s', call input s = .ok result s' ∧ I (done ++ [input]) (results ++ [result]) s')
    {s : S} (h : I [] [] s) :
    ∃ results s', inputs.mapM call s = .ok results s' ∧ I inputs results s' := by
  -- the induction is on the inputs that are left
  have hrest : ∀ rest done results s, done ++ rest = inputs → I done results s →
      ∃ results' s', rest.mapM call s = .ok results' s' ∧ I inputs (results ++ results') s' := by
    intro rest
    induction rest with
    | nil =>
      intro done results s hdone h
      refine ⟨[], s, rfl, ?_⟩
      rw [List.append_nil] at hdone ⊢
      rw [← hdone]
      exact h
    | cons input rest ih =>
      intro done results s hdone h
      -- one call, and then the others, for which one more input is done
      obtain ⟨result, middle, hcall, hmiddle⟩ := hstep done input rest results s hdone h
      have hdone' : done ++ [input] ++ rest = inputs := by
        rw [List.append_assoc]
        exact hdone
      obtain ⟨results', after, hmapM, hafter⟩ := ih _ _ middle hdone' hmiddle
      refine ⟨result :: results', after, ?_, ?_⟩
      · rw [List.mapM_cons, bind_of_ok hcall, bind_of_ok hmapM]
        rfl
      · rw [List.append_assoc] at hafter
        exact hafter
  exact hrest inputs [] [] s rfl h

/-! ## The values of a call -/

/-- A call can end with a value. -/
def Yields (call : Call S α) (value : α) : Prop :=
  ∃ before after, call before = .ok value after

/-- No value comes from an error. -/
theorem not_yields_throw (e : Error) (value : α) : ¬ Yields (throw e : Call S α) value := by
  rintro ⟨s, s', h⟩
  cases h

/-- The only value of a call that is just a value. -/
theorem Yields.of_pure {value result : α} (h : Yields (pure value : Call S α) result) :
    result = value := by
  obtain ⟨s, s', h⟩ := h
  cases h
  rfl

/-- The value of a computation without state. -/
theorem Yields.of_ofExcept {result : Except Error α} {value : α}
    (h : Yields (ofExcept result : Call S α) value) : result = .ok value := by
  obtain ⟨s, s', h⟩ := h
  cases result with
  | error e => cases h
  | ok other =>
    cases h
    rfl

/-- A value of a sequence is one of its last part. -/
theorem Yields.of_bind {call : Call S α} {next : α → Call S β} {result : β}
    (h : Yields (call >>= next) result) :
    ∃ value, Yields call value ∧ Yields (next value) result := by
  obtain ⟨s, s', h⟩ := h
  obtain ⟨value, middle, hcall, hnext⟩ := ok_of_bind h
  exact ⟨value, ⟨s, middle, hcall⟩, middle, s', hnext⟩

/-- The values of a row of calls are a value of each. -/
theorem Yields.of_mapM {call : α → Call S β} {inputs : List α} {results : List β}
    (h : Yields (inputs.mapM call) results) :
    List.Forall₂ (fun input result => Yields (call input) result) inputs results := by
  induction inputs generalizing results with
  | nil =>
    rw [List.mapM_nil] at h
    rw [h.of_pure]
    exact .nil
  | cons input inputs ih =>
    rw [List.mapM_cons] at h
    obtain ⟨result, hfirst, h⟩ := h.of_bind
    obtain ⟨rest, hrest, h⟩ := h.of_bind
    rw [h.of_pure]
    exact .cons hfirst (ih hrest)

/-! ## Computations without state that end with a value -/

section Except

variable {ε ε' : Type}

/-- A sequence ends with a value if each part does. -/
theorem except_bind_eq_ok_iff {result : Except ε α} {next : α → Except ε β} {value : β} :
    result >>= next = .ok value ↔ ∃ first, result = .ok first ∧ next first = .ok value := by
  cases result with
  | ok first =>
    constructor
    · intro h
      exact ⟨first, rfl, h⟩
    · rintro ⟨_, ⟨⟩, h⟩
      exact h
  | error e =>
    constructor
    · rintro ⟨⟩
    · rintro ⟨_, ⟨⟩, -⟩

/-- The values of a row are those of its members. -/
theorem forall₂_of_mapM {f : α → Except ε β} {inputs : List α} {results : List β}
    (h : inputs.mapM f = .ok results) :
    List.Forall₂ (fun input result => f input = .ok result) inputs results := by
  induction inputs generalizing results with
  | nil =>
    cases h
    exact .nil
  | cons input inputs ih =>
    rw [List.mapM_cons] at h
    obtain ⟨first, hfirst, h⟩ := except_bind_eq_ok_iff.mp h
    obtain ⟨rest, hrest, h⟩ := except_bind_eq_ok_iff.mp h
    cases h
    exact .cons hfirst (ih hrest)

/-- A row ends with the values of its members, if each has one. -/
theorem mapM_eq_ok {f : α → Except ε β} {g : α → β} {inputs : List α}
    (h : ∀ input ∈ inputs, f input = .ok (g input)) : inputs.mapM f = .ok (inputs.map g) := by
  induction inputs with
  | nil => rfl
  | cons input inputs ih =>
    have hrest := ih fun other hother => h other (List.mem_cons_of_mem _ hother)
    rw [List.mapM_cons, h input List.mem_cons_self, hrest]
    rfl

/-- A row ends with an error, if one of its members does. -/
theorem exists_error_of_mapM {f : α → Except ε β} {input : α} {inputs : List α} {e : ε}
    (hinput : input ∈ inputs) (h : f input = .error e) : ∃ e', inputs.mapM f = .error e' := by
  cases hrun : inputs.mapM f with
  | error e' => exact ⟨e', rfl⟩
  | ok results =>
    obtain ⟨i, hi, rfl⟩ := List.getElem_of_mem hinput
    have hvalues := forall₂_of_mapM hrun
    have hvalue := hvalues.get hi (hvalues.length_eq ▸ hi)
    rw [List.get_eq_getElem, h] at hvalue
    cases hvalue

/-- A row ends with the error of the first member that has one. -/
theorem mapM_eq_error_iff {f : α → Except ε β} {inputs : List α} {e : ε} :
    inputs.mapM f = .error e ↔ ∃ before input after, inputs = before ++ input :: after ∧
      (∀ earlier ∈ before, ∃ value, f earlier = .ok value) ∧ f input = .error e := by
  constructor
  · intro h
    induction inputs with
    -- forwards, the first member that fails is looked for from the front
    | nil => cases h
    | cons input inputs ih =>
      rw [List.mapM_cons] at h
      cases hfirst : f input with
      | error e' =>
        rw [hfirst] at h
        cases h
        exact ⟨[], input, inputs, rfl, fun _ hmem => absurd hmem List.not_mem_nil, hfirst⟩
      | ok value =>
        rw [hfirst] at h
        cases hrest : inputs.mapM f with
        | ok values =>
          rw [hrest] at h
          cases h
        | error e' =>
          rw [hrest] at h
          cases h
          obtain ⟨before, found, after, rfl, hbefore, hfound⟩ := ih hrest
          have hok := List.forall_mem_cons.mpr ⟨⟨value, hfirst⟩, hbefore⟩
          exact ⟨input :: before, found, after, rfl, hok, hfound⟩
  · rintro ⟨before, input, after, rfl, hbefore, hinput⟩
    -- backwards, what stands in front of it has values
    induction before with
    | nil =>
      rw [List.nil_append, List.mapM_cons, hinput]
      rfl
    | cons earlier before ih =>
      obtain ⟨⟨value, hvalue⟩, hothers⟩ := List.forall_mem_cons.mp hbefore
      rw [List.cons_append, List.mapM_cons, hvalue, ih hothers]
      rfl

/-- What is made of a row that is not empty is not empty. -/
theorem mapM_cons_ne_nil {f : α → Except ε β} {input : α} {inputs : List α} {results : List β}
    (h : (input :: inputs).mapM f = .ok results) : results ≠ [] := by
  cases forall₂_of_mapM h
  exact List.cons_ne_nil _ _

/-- To give an error another form does not change the value. -/
theorem mapError_eq_ok_iff {result : Except ε α} {lift : ε → ε'} {value : α} :
    result.mapError lift = .ok value ↔ result = .ok value := by
  cases result with
  | ok other => exact ⟨by rintro ⟨⟩; rfl, by rintro ⟨⟩; rfl⟩
  | error e => exact ⟨by rintro ⟨⟩, by rintro ⟨⟩⟩

/-- An error in another form is the form of an error. -/
theorem mapError_eq_error_iff {result : Except ε α} {lift : ε → ε'} {e : ε'} :
    result.mapError lift = .error e ↔ ∃ cause, result = .error cause ∧ lift cause = e := by
  cases result with
  | ok value => exact ⟨by rintro ⟨⟩, by rintro ⟨_, ⟨⟩, -⟩⟩
  | error cause =>
    constructor
    · rintro ⟨⟩
      exact ⟨cause, rfl, rfl⟩
    · rintro ⟨_, ⟨⟩, rfl⟩
      rfl

/-- Behind a check, a value shows that the check was passed. -/
theorem guard_eq_ok_iff {c : Prop} [Decidable c] {e : ε} {next : PUnit → Except ε β} {value : β} :
    (if c then throw e >>= next else next ()) = .ok value ↔ ¬c ∧ next () = .ok value := by
  split
  · next hc => exact ⟨by rintro ⟨⟩, fun h => absurd hc h.1⟩
  · next hc => exact ⟨fun h => ⟨hc, h⟩, And.right⟩

end Except

/-! ## Computations without state that end with an error -/

section FailsWith

variable {ε ε' : Type} {P : ε → Prop} {Q : ε' → Prop}

/-- A computation without state all of whose errors are of some kind. -/
def FailsWith (P : ε → Prop) (result : Except ε α) : Prop :=
  ∀ e, result = .error e → P e

namespace FailsWith

/-- A value is no error. -/
theorem ok (value : α) : FailsWith P (.ok value) := by
  rintro e ⟨⟩

/-- An error of the kind. -/
theorem error {e : ε} (h : P e) : FailsWith P (.error e : Except ε α) := by
  rintro _ ⟨⟩
  exact h

/-- Errors of a kind are of every wider kind. -/
theorem mono {P' : ε → Prop} {result : Except ε α} (h : FailsWith P result)
    (himp : ∀ e, P e → P' e) : FailsWith P' result :=
  fun e he => himp e (h e he)

/-- To give an error another form gives it another kind. -/
theorem mapError {lift : ε' → ε} {result : Except ε' α} (h : FailsWith Q result)
    (hlift : ∀ cause, Q cause → P (lift cause)) : FailsWith P (result.mapError lift) := by
  cases result with
  | ok value => exact ok value
  | error cause => exact error (hlift cause (h cause rfl))

/-- A sequence fails as its parts do; of the second part, what the first ends with needs to be
considered only. -/
theorem bind {result : Except ε α} {next : α → Except ε β} (h : FailsWith P result)
    (hnext : ∀ value, result = .ok value → FailsWith P (next value)) :
    FailsWith P (result >>= next) := by
  cases result with
  | ok value => exact hnext value rfl
  | error e => exact error (h e rfl)

/-- A check in front of a computation. -/
theorem guard {c : Prop} [Decidable c] {e : ε} {next : PUnit → Except ε β} (he : P e)
    (hnext : FailsWith P (next ())) : FailsWith P (if c then throw e >>= next else next ()) := by
  split
  · exact error he
  · exact hnext

/-- A row fails as its members do. -/
theorem mapM {f : α → Except ε β} (h : ∀ input, FailsWith P (f input)) (inputs : List α) :
    FailsWith P (inputs.mapM f) := by
  induction inputs with
  | nil => exact ok []
  | cons input inputs ih =>
    rw [List.mapM_cons]
    exact (h input).bind fun _ _ => ih.bind fun _ _ => ok _

end FailsWith

end FailsWith

/-! ## Calls that end with an error -/

section Errs

variable {P : Error → Prop}

/-- A call all of whose errors are of some kind. -/
def Errs (P : Error → Prop) (call : Call S α) : Prop :=
  ∀ s e s', call s = .error e s' → P e

namespace Errs

/-- A value is no error. -/
theorem pure (value : α) : Errs P (Pure.pure value : Call S α) := by
  rintro s e s' ⟨⟩

/-- An error of the kind. -/
theorem throw {e : Error} (h : P e) : Errs P (MonadExcept.throw e : Call S α) := by
  rintro s _ s' ⟨⟩
  exact h

/-- A computation without state errs as it fails. -/
theorem ofExcept {result : Except Error α} (h : FailsWith P result) :
    Errs P (Call.ofExcept result : Call S α) := by
  cases result with
  | ok value => exact pure value
  | error e => exact throw (h e rfl)

/-- A sequence errs as its parts do; of the second part, what the first can end with needs to be
considered only. -/
theorem bind {call : Call S α} {next : α → Call S β} (h : Errs P call)
    (hnext : ∀ value, Yields call value → Errs P (next value)) : Errs P (call >>= next) := by
  intro s e s' hrun
  rcases bind_cases call next s with ⟨value, middle, hcall, hbind⟩ | ⟨e', middle, hcall, hbind⟩
  · exact hnext value ⟨s, middle, hcall⟩ middle e s' (hbind.symm.trans hrun)
  · cases hbind.symm.trans hrun
    exact h s e s' hcall

/-- What was computed without state can be gone on with. -/
theorem ofExcept_bind {result : Except Error α} {next : α → Call S β} (h : FailsWith P result)
    (hnext : ∀ value, result = .ok value → Errs P (next value)) :
    Errs P (Call.ofExcept result >>= next) :=
  (ofExcept h).bind fun value hvalue => hnext value hvalue.of_ofExcept

/-- A check in front of a call. -/
theorem guard {c : Prop} [Decidable c] {e : Error} {next : PUnit → Call S β} (he : P e)
    (hnext : ¬ c → Errs P (next ())) :
    Errs P (if c then MonadExcept.throw e >>= next else next ()) := by
  split
  · exact (throw he).bind fun value hvalue => absurd hvalue (not_yields_throw e value)
  · next hc => exact hnext hc

/-- A row errs as its members do. -/
theorem mapM {call : α → Call S β} {inputs : List α}
    (h : ∀ input ∈ inputs, Errs P (call input)) : Errs P (inputs.mapM call) := by
  induction inputs with
  | nil => exact pure []
  | cons input inputs ih =>
    rw [List.mapM_cons]
    refine (h input List.mem_cons_self).bind fun _ _ => ?_
    exact (ih fun other hother => h other (List.mem_cons_of_mem _ hother)).bind fun _ _ => pure _

end Errs

end Errs

/-! ## Errors that leave a session usable -/

/-- A computation without state whose errors leave the session usable. -/
def Harmless (result : Except Error α) : Prop :=
  ∀ e, result = .error e → e.isFatal = false

namespace Harmless

/-- A value is no error. -/
theorem ok (value : α) : Harmless (.ok value) :=
  FailsWith.ok value

/-- A harmless error. -/
theorem error {e : Error} (h : e.isFatal = false) : Harmless (.error e : Except Error α) :=
  FailsWith.error h

/-- Errors are harmless if each cause, as it is lifted, is. -/
theorem mapError {ε : Type} {lift : ε → Error} (h : ∀ cause, (lift cause).isFatal = false)
    (result : Except ε α) : Harmless (result.mapError lift) :=
  FailsWith.mapError (fun _ _ => trivial) fun cause _ => h cause

/-- A sequence is harmless if its parts are. -/
theorem bind {result : Except Error α} {next : α → Except Error β} (h : Harmless result)
    (hnext : ∀ value, Harmless (next value)) : Harmless (result >>= next) :=
  FailsWith.bind h fun value _ => hnext value

end Harmless

/-! ## Properties that pass to the whole -/

/-- A property of calls that passes from the parts of a call to the call. -/
structure Composes (P : (α : Type) → Call S α → Prop) : Prop where
  /-- A value has it. -/
  pure : ∀ {α : Type} (value : α), P α (Pure.pure value)
  /-- An error has it that leaves the session usable. -/
  refuse : ∀ {α : Type} {e : Error}, e.isFatal = false → P α (throw e)
  /-- A sequence has it; of the second part, what the first can end with needs to be considered
  only. -/
  bind : ∀ {α β : Type} {call : Call S α} {next : α → Call S β},
    P α call → (∀ value, call.Yields value → P β (next value)) → P β (call >>= next)

namespace Composes

variable {P : (α : Type) → Call S α → Prop} (h : Composes P)

include h

/-- A computation without state has the property if its errors leave the session usable. -/
theorem ofExcept {result : Except Error α} (harmless : Harmless result) :
    P α (Call.ofExcept result) := by
  cases result with
  | ok value => exact h.pure value
  | error e => exact h.refuse (harmless e rfl)

/-- What was computed without state can be gone on with. -/
theorem ofExcept_bind {result : Except Error α} {next : α → Call S β} (harmless : Harmless result)
    (hnext : ∀ value, result = .ok value → P β (next value)) :
    P β (Call.ofExcept result >>= next) :=
  h.bind (h.ofExcept harmless) fun value hvalue => hnext value hvalue.of_ofExcept

/-- A check in front of a call. -/
theorem guard {c : Prop} [Decidable c] {e : Error} {next : PUnit → Call S β}
    (he : e.isFatal = false) (hnext : P β (next ())) :
    P β (if c then throw e >>= next else next ()) := by
  split
  · exact h.bind (h.refuse he) fun value hvalue => absurd hvalue (not_yields_throw e value)
  · exact hnext

/-- A row of calls has the property if each of them has it. -/
theorem mapM {call : α → Call S β} {inputs : List α} (hcall : ∀ input ∈ inputs, P β (call input)) :
    P (List β) (inputs.mapM call) := by
  induction inputs with
  | nil => exact h.pure []
  | cons input inputs ih =>
    rw [List.mapM_cons]
    refine h.bind (hcall input List.mem_cons_self) fun _ _ => ?_
    refine h.bind (ih fun other hother => hcall other (List.mem_cons_of_mem _ hother)) fun _ _ => ?_
    exact h.pure _

end Composes

end S7Comm.Call
