import S7Comm.Proofs.AnswerErrors
import S7Comm.Proofs.Conversation

/-!
# First faults

A session answers with its fault as often as it is used, and marks the fault as a repetition. For the
marks not to pile up, a fault must never be a repetition itself. So each error that a session can meet
while it is ready, or while it is being connected, is looked at here.

* `Error.isOriginal`: the error is met for the first time, and is not the mark of another one, at any
  depth.
* `Error.isOriginal_of_isOfAnswer`, `Error.isOriginal_of_harmless`: what is found wrong with an answer
  is found for the first time, and what leaves a session usable is no fault. What fails in connecting
  is dealt with by `Station.original_connect`.
* `Station.Originates`: that the errors of a call repeat no fault passes from the parts of the call to
  the call, and holds of every operation (`Station.originates_law`).
* **Main result** (`Station.original_run`): in the course of every run, a fault that a session has is
  a first one. This is what the marks in `S7Comm.Proofs.FailFast` rest on.

That a first fault does not read like a repetition either is a matter of how the words begin
(`FramingError.unmarked_message`, `NegotiationError.unmarked_message`).
-/

namespace S7Comm

open Call

/-! ## First errors -/

/-- Whether a violation of the format is met for the first time. -/
def FramingError.isOriginal : FramingError → Bool
  | .again _ => false
  | .dataItem _ cause => cause.isOriginal
  | _ => true

/-- Whether a failure of the negotiation is met for the first time. -/
def NegotiationError.isOriginal : NegotiationError → Bool
  | .again _ => false
  | .malformed cause => cause.isOriginal
  | _ => true

/-- Whether an error is met for the first time, and is not the repetition of a fault. -/
def Error.isOriginal : Error → Bool
  | .framing cause => cause.isOriginal
  | .negotiation cause => cause.isOriginal
  | _ => true

/-- What is found where an answer is looked at is found for the first time. -/
theorem FramingError.isOriginal_of_isOfAnswer {cause : FramingError} (h : cause.isOfAnswer = true) :
    cause.isOriginal = true := by
  induction cause with
  | again => cases h
  | dataItem _ cause ih => exact ih h
  | _ => rfl

/-- So is an error with which looking at an answer ends. -/
theorem Error.isOriginal_of_isOfAnswer {e : Error} (h : e.isOfAnswer = true) :
    e.isOriginal = true := by
  cases e with
  | framing cause => exact FramingError.isOriginal_of_isOfAnswer h
  | negotiation => cases h
  | _ => rfl

/-- An error that leaves the session usable repeats no fault: only errors of the format and of the
negotiation can be repetitions, and they are fatal. -/
theorem Error.isOriginal_of_harmless {e : Error} (h : e.isFatal = false) : e.isOriginal = true := by
  cases e <;> first | rfl | cases h

/-! ## Their words

The words of a repetition begin with those of the session. Three letters are enough to tell that the
words of a first error do not.
-/

/-- A text that begins otherwise than the words of a repetition do. -/
def Unmarked (text : String) : Prop :=
  3 ≤ text.toList.length ∧ text.toList.take 3 ≠ ['s', 'e', 's']

instance (text : String) : Decidable (Unmarked text) :=
  inferInstanceAs (Decidable (_ ∧ _))

namespace Unmarked

variable {text : String}

/-- How a text begins does not depend on what is added to it, if it has the three letters by which it
is told. -/
theorem append (h : Unmarked text) (other : String) : Unmarked (text ++ other) := by
  obtain ⟨hlength, hne⟩ := h
  rw [Unmarked, String.toList_append, List.length_append, List.take_append_of_le_length hlength]
  exact ⟨Nat.le_add_right_of_le hlength, hne⟩

/-- A text that begins with a number. -/
theorem number (n : Nat) (h : 2 ≤ text.toList.length) : Unmarked (toString n ++ text) := by
  have hdigits : (toString n).toList = Nat.toDigits 10 n := by
    rw [Nat.toString_eq_repr, Nat.toList_repr]
  have hdigit : ∀ c ∈ Nat.toDigits 10 n, c.isDigit = true :=
    fun c => Nat.isDigit_of_mem_toDigits (by decide) (by decide)
  rw [Unmarked, String.toList_append, hdigits]
  cases hfirst : Nat.toDigits 10 n with
  | nil => exact absurd hfirst Nat.toDigits_ne_nil
  | cons c rest =>
    rw [hfirst] at hdigit
    have hc := hdigit c List.mem_cons_self
    refine ⟨?_, fun hmarked => ?_⟩
    · rw [List.length_append, List.length_cons]
      omega
    · rw [List.cons_append, List.take_succ_cons] at hmarked
      rw [(List.cons.inj hmarked).1] at hc
      cases hc

/-- A text that begins otherwise does not begin with the words of a repetition. -/
theorem not_isPrefix (h : Unmarked text) : ¬ "session faulted: ".toList <+: text.toList := by
  rintro ⟨rest, hrest⟩
  refine h.2 ?_
  rw [← hrest, List.take_append_of_le_length (by decide)]
  decide

end Unmarked

/-- A violation of the format that is met for the first time is not told as a repetition. -/
theorem FramingError.unmarked_message {cause : FramingError} (h : cause.isOriginal = true) :
    Unmarked cause.message := by
  cases cause
  case again => cases h
  case unexpectedBytes bytes items =>
    unfold message
    rw [String.append_assoc, String.append_assoc]
    refine .number bytes ?_
    rw [String.toList_append, List.length_append]
    exact Nat.le_add_right_of_le (by decide)
  all_goals
    unfold message
    repeat' with_reducible apply Unmarked.append
    decide

/-- Nor is a failure of the negotiation. -/
theorem NegotiationError.unmarked_message {cause : NegotiationError} (h : cause.isOriginal = true) :
    Unmarked cause.message := by
  cases cause
  case again => cases h
  case rejected cause =>
    unfold message ProtocolError.message
    repeat' with_reducible apply Unmarked.append
    decide
  all_goals
    unfold message
    repeat' with_reducible apply Unmarked.append
    decide

/-! ## What is made of answers -/

namespace Pdu

/-- A computation without state whose errors are first ones. -/
def Original {α : Type} (result : Except FramingError α) : Prop :=
  FailsWith (fun e => e.isOriginal = true) result

/-- So are those of a step that complains of the format of an answer. -/
theorem OfFormat.original {α : Type} {result : Except FramingError α} (h : OfFormat result) :
    Original result :=
  FailsWith.mono h fun _ => FramingError.isOriginal_of_isOfAnswer

end Pdu

/-- A computation without state whose errors repeat no fault. -/
def Unrepeated {α : Type} (result : Except Error α) : Prop :=
  FailsWith (fun e => e.isOriginal = true) result

namespace Unrepeated

variable {α : Type}

/-- What is found where an answer is looked at. -/
theorem of_answer {result : Except Error α} (h : Pdu.OfAnswer result) : Unrepeated result :=
  FailsWith.mono h fun _ => Error.isOriginal_of_isOfAnswer

end Unrepeated

namespace Pdu

/-- An answer to a setup is refused with a fault that is a first one. What is wrong with its format is
told as a failure of the negotiation, and is no repetition inside of that either. -/
theorem original_acceptSetup (response : Bytes) (reference : UInt16) :
    FailsWith (fun fault => fault.error.isOriginal = true)
      (Station.acceptSetup response reference) := by
  have hparameters (parameters : Bytes) :
      FailsWith (fun e => e.isOriginal = true) (Setup.decodeParameters parameters) := by
    unfold Setup.decodeParameters
    split
    · split
      · exact .error rfl
      · dsimp only
        split
        · exact .error rfl
        · exact .ok _
    · exact .error rfl
  have hmalformed {α : Type} {result : Except FramingError α} (h : Original result) :
      FailsWith (fun e : NegotiationError => e.isOriginal = true) (result.mapError .malformed) :=
    FailsWith.mapError h fun _ hcause => hcause
  have hresponse : FailsWith (fun e => e.isOriginal = true) (Setup.decodeResponse response) := by
    unfold Setup.decodeResponse
    refine .guard rfl ?_
    refine (hmalformed (ofFormat_decode response).original).bind fun _ _ => ?_
    refine .guard rfl ?_
    refine FailsWith.bind (FailsWith.mapError (fun _ _ => trivial) fun _ _ => rfl) fun _ _ => ?_
    refine (hmalformed (ofFormat_splitBlocks _ _).original).bind fun _ _ => ?_
    exact (hparameters _).bind fun _ _ => .ok _
  -- the answer is decoded, its header once more, and the reference is compared
  unfold Station.acceptSetup
  refine (hresponse.mapError fun _ hcause => hcause).bind fun _ _ => ?_
  refine ((ofFormat_decode response).original.mapError fun _ hcause => hcause).bind fun _ _ => ?_
  refine FailsWith.bind ?_ fun _ _ => .ok _
  exact (ofFormat_requireReference _ _).original.mapError fun _ hcause => hcause

end Pdu

namespace Station

variable {σ : Type} (peer : Peer σ)

/-- A call that settles a ready session, and whose errors repeat no fault there. -/
def Originates (α : Type) (call : Call (Station σ) α) : Prop :=
  ∀ st, st.session.state = .ready →
    Settles peer st (call st) ∧ ∀ e after, call st = .error e after → e.isOriginal = true

/-- Whether a call is such can be told from its parts. -/
theorem originates_composes : Composes (Originates peer) :=
  ends_composes (Q := fun _ e _ => e.isOriginal = true) peer
    (fun _ _ => Error.isOriginal_of_harmless) fun _ h => h

/-- So is a request, if the reasons for not accepting its answer are first ones. -/
theorem originates_ask {α : Type} {request : UInt16 → Except Error Bytes}
    {answer : UInt16 → Bytes → Except Error α}
    (harmless : ∀ reference, Harmless (request reference))
    (hanswer : ∀ reference response, Unrepeated (answer reference response)) :
    Originates peer α ((channel peer).ask request answer) := by
  refine ends_ask (Q := fun _ e _ => e.isOriginal = true) peer harmless ?_
  intro st e after _ hpasses
  cases hpasses with
  | unexpressed hrequest _ => exact Error.isOriginal_of_harmless (harmless _ e hrequest)
  | unconnected _ _ _ => rfl
  | unsent _ _ _ => rfl
  | unanswered _ _ _ _ _ => rfl
  | refused _ _ _ _ hrefused _ => exact hanswer _ _ e hrefused

/-- So are the operations of a client, by the law of operations: all that they report of answers is
found in the answers, and no operation makes an error out of a fault. -/
theorem originates_law (options : Options) :
    Client.Law (Client.ofPeer peer options) (Originates peer) := by
  refine .of_ask (originates_composes peer) (ends_ensureReady peer) (ends_pduBudget peer)
    (fun run => ?_) (fun run => ?_) fun job => ?_
  · exact originates_ask peer (harmless_encodeReadRequest run)
      fun reference response => .of_answer (Pdu.ofAnswer_checkReadResponse response reference run)
  · exact originates_ask peer (harmless_encodeWriteRequest _ _)
      fun reference response =>
        .of_answer (Pdu.ofAnswer_checkWriteResponse response reference run.length)
  · exact originates_ask peer (fun reference => harmless_argument (job.encode reference))
      fun reference response => .of_answer (Pdu.ofAnswer_validateAck response reference)

/-- A use of the connection is such a call. -/
theorem originates_perform {step : Step} (huse : step.isUse = true) :
    Originates peer Answer (perform peer step) := by
  intro st hready
  refine ⟨keeps_perform peer huse st hready, ?_⟩
  cases step with
  | connect => cases huse
  | close => cases huse
  | exchange message =>
    have h := originates_composes peer
    refine (h.bind (fun st hready => ⟨keeps_exchange peer message st hready, ?_⟩)
      (fun response _ => h.pure (Answer.bytes response)) st hready).2
    intro e after hrun
    rw [exchange_of_ready hready] at hrun
    split at hrun
    · cases hrun
    · cases hrun
      rfl
  | command command =>
    exact ((originates_law peer st.session.options).perform command st hready).2

/-! ## First faults in a session -/

/-- A fault that a session has is met for the first time. -/
def Original (st : Station σ) : Prop :=
  ∀ fault, st.session.fault? = some fault → fault.error.isOriginal = true

/-- A session whose connection was given up for a first fault has a first fault. -/
theorem original_of_givenUp {st : Station σ} {fault : Fault} (h : st.session.GivenUp fault)
    (horiginal : fault.error.isOriginal = true) : st.Original := by
  intro other hother
  obtain rfl := Option.some.inj (h.fault.symm.trans hother)
  exact horiginal

/-- A fault that is left behind by connecting is a first one, whatever fault the session had before:
that is forgotten before the other end is asked. -/
theorem original_connect (st : Station σ) : ((connect peer).outcome st).2.Original := by
  have hends := connect_cases peer st
  cases hconnect : connect peer st with
  | ok value after =>
    rw [hconnect] at hends
    obtain ⟨stream, -, -, -, -, -, hnone, -⟩ := hends
    rw [outcome_of_ok hconnect]
    intro fault hfault
    cases hnone.symm.trans hfault
  | error e after =>
    rw [hconnect] at hends
    obtain ⟨fault, -, hgivenUp, hfault⟩ := hends
    rw [outcome_of_error hconnect]
    refine original_of_givenUp hgivenUp ?_
    rcases hfault with ⟨cause, rfl⟩ | ⟨response, reference, hsetup⟩
    · rfl
    · exact Pdu.original_acceptSetup response reference fault hsetup

/-- In each step, a fault stays a first one: connecting leaves a first one or none, closing leaves
none, and of a use of the session each error with which it can be given up is a first one. A session
that is faulted already keeps its fault as it is, and repeats it in the outcome only. -/
theorem original_perform (step : Step) {st : Station σ} (h : st.Original) :
    ((perform peer step).outcome st).2.Original := by
  by_cases huse : step.isUse = true
  · by_cases hready : st.session.state = .ready
    -- a use of a ready session gives it up for its own error, or leaves its fault alone
    · have hstill {after : Station σ} (hafter : StillReady peer st after) : after.Original :=
        fun fault hfault => h fault (hafter.fault ▸ hfault)
      obtain ⟨hsettles, horiginal⟩ := originates_perform peer huse st hready
      cases hrun : perform peer step st with
      | ok answer after =>
        rw [hrun] at hsettles
        rw [outcome_of_ok hrun]
        exact hstill hsettles
      | error e after =>
        rw [hrun] at hsettles
        rw [outcome_of_error hrun]
        unfold Settles at hsettles
        dsimp only at hsettles
        split at hsettles
        · next fault hfault =>
          refine original_of_givenUp hsettles ?_
          rw [← Error.fault?_eq_some_iff.mp hfault]
          exact horiginal e after hrun
        · exact hstill hsettles
    -- a session that is not ready is left as it is
    · rw [(rests_perform peer huse).outcome hready]
      exact h
  -- connecting and closing set the fault anew
  · cases step with
    | connect =>
      have hconnect := original_connect peer st
      rw [← outcome_bind_pure (connect peer) fun _ => Answer.nothing] at hconnect
      exact hconnect
    | close =>
      rintro fault ⟨⟩
    | exchange message => exact absurd rfl huse
    | command command => exact absurd rfl huse

/-- **In a run, a fault stays a first one**, over any steps, by induction on them. So a session that
begins without a fault never has one that is the repetition of another. -/
theorem original_run {st : Station σ} (h : st.Original) (steps : List Step) :
    (run peer steps st).2.Original := by
  induction steps generalizing st with
  | nil => exact h
  | cons step steps ih => exact ih (original_perform peer step h)

end Station

end S7Comm
