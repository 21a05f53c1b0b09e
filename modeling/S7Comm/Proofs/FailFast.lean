import S7Comm.Proofs.FirstFaults
import S7Comm.Proofs.Refusal

/-!
# Sessions that have failed

A session that met a fault answers every request with it until it is connected again. There are
three ways in which a use of such a session can end (`Station.FailsFast`): with the fault, with an
error that was found in the arguments, or with the empty answer where there is nothing to do.
Whichever it is, the session is left as it is, and nothing is sent; so the next use meets the same
session, and the fault is repeated as it was the first time. -/

namespace S7Comm

open Call

namespace Station

variable {σ : Type} (peer : Peer σ)

/-! ## Calls on a session that has failed

Two fields decide, the state and the fault. Whether there still is a connection is not asked, as none
of these calls comes as far as that.
-/

/-- How a step can end on a session with a fault. -/
inductive FailsFast (st : Station σ) (fault : Fault) : Step → Except Error Answer → Prop where
  /-- With the fault. -/
  | replayed {step : Step} : FailsFast st fault step (.error fault.replay)
  /-- With an error that was found in its arguments, and that it ends with whatever becomes of the
  session. -/
  | refused {step : Step} {e : Error} : e.isLocal = true →
    (∀ other : Station σ, other.session.options = st.session.options →
      perform peer step other = .error e other) →
    FailsFast st fault step (.error e)
  /-- With the empty answer, where there is nothing to do. -/
  | empty {command : Command} {answer : Answer} : command.emptyAnswer? = some answer →
    FailsFast st fault (.command command) (.ok answer)

/-- A use of the connection of a session with a fault ends in one of these ways, and changes
nothing. -/
theorem failsFast_perform {st : Station σ} {fault : Fault} (hfaulted : st.session.state = .faulted)
    (hfault : st.session.fault? = some fault) {step : Step} (huse : step.isUse = true) :
    ((perform peer step).outcome st).2 = st ∧
      FailsFast peer st fault step ((perform peer step).outcome st).1 := by
  have hstate : st.session.state ≠ .ready := by
    rw [hfaulted]
    exact SessionState.noConfusion
  refine ⟨(rests_perform peer huse).outcome hstate, ?_⟩
  have hcheck : st.session.checkReady = .error fault.replay :=
    Session.checkReady_eq_replay hfaulted hfault
  cases step with
  | connect => cases huse
  | close => cases huse
  | exchange message =>
    have hrun : perform peer (.exchange message) st = .error fault.replay st :=
      bind_of_error (exchange_of_checkReady hcheck) _
    rw [outcome_of_error hrun]
    exact .replayed
  | command command =>
    cases hanswer : command.emptyAnswer? with
    | some answer =>
      have hrun : perform peer (.command command) st = .ok answer st :=
        Client.perform_of_empty hanswer st
      rw [outcome_of_ok hrun]
      exact .empty hanswer
    | none =>
      have hrefuses : (channel peer).Refuses
          ((Client.ofPeer peer st.session.options).perform command) :=
        Client.refuses_perform hanswer
      -- an error of the arguments comes first, and does not depend on the session
      rcases hrefuses with ⟨e, hlocal, hcall⟩ | hcall
      · have hrun : perform peer (.command command) st = .error e st := hcall st
        rw [outcome_of_error hrun]
        refine .refused hlocal fun other hother => ?_
        change (Client.ofPeer peer other.session.options).perform command other = _
        rw [hother]
        exact hcall other
      · have hrun : perform peer (.command command) st = .error fault.replay st :=
          hcall st _ hcheck
        rw [outcome_of_error hrun]
        exact .replayed

/-- In a run of uses no step changes the session, and each meets the session as the first did. -/
theorem failsFast_run {st : Station σ} {fault : Fault} (hfaulted : st.session.state = .faulted)
    (hfault : st.session.fault? = some fault) {steps : List Step}
    (huse : ∀ step ∈ steps, step.isUse = true) :
    (run peer steps st).2 = st ∧
      List.Forall₂ (FailsFast peer st fault) steps (run peer steps st).1 := by
  induction steps with
  | nil => exact ⟨rfl, .nil⟩
  | cons step steps ih =>
    obtain ⟨hstay, hstep⟩ := failsFast_perform peer hfaulted hfault (huse step List.mem_cons_self)
    obtain ⟨hstays, hsteps⟩ := ih fun other hother => huse other (List.mem_cons_of_mem _ hother)
    simp only [run]
    rw [hstay]
    exact ⟨hstays, .cons hstep hsteps⟩

/-- An error that repeats a fault: of the transport, itself; otherwise an error of the same kind,
whose words are those of the fault behind those of a repetition, with which they do not begin. -/
inductive Repetition : Fault → Error → Prop where
  /-- A failure of the transport. -/
  | transport {cause : TransportError} : Repetition (.transport cause) (.transport cause)
  /-- A failure of the negotiation. -/
  | negotiation {cause again : NegotiationError} :
    again.message = "session faulted: " ++ cause.message →
    ¬ "session faulted: ".toList <+: cause.message.toList →
    Repetition (.negotiation cause) (.negotiation again)
  /-- A violation of the format. -/
  | framing {cause again : FramingError} :
    again.message = "session faulted: " ++ cause.message →
    ¬ "session faulted: ".toList <+: cause.message.toList →
    Repetition (.framing cause) (.framing again)

/-- A first fault is repeated so. -/
theorem repetition_replay {fault : Fault} (h : fault.error.isOriginal = true) :
    Repetition fault fault.replay := by
  cases fault with
  | transport cause => exact .transport
  | negotiation cause =>
    exact .negotiation rfl (NegotiationError.unmarked_message h).not_isPrefix
  | framing cause => exact .framing rfl (FramingError.unmarked_message h).not_isPrefix

/-- **Calls on a session that has failed.** Let a session be new, then go through any steps on any
network, and be faulted. However it is used from then on, in any number of exchanges and commands in
any order, and without being connected or closed:

* `(run peer steps here).2 = here`: no field of the session changes, nothing is sent, and the other
  end is not asked for anything;
* each outcome is that of its step alone (`FailsFast`): the fault, an error that the step has with any
  session because it is found in its arguments, or the empty answer of a command without items;
* the error that repeats the fault is a `Repetition`. It is the same error for a failure of the
  transport. Otherwise it is of the same kind, and its words are those of the fault behind "session
  faulted: ", with which those of the fault never begin: it is marked once, however often it is
  repeated. -/
theorem fails_fast (options : Options) (network : Network σ) (before steps : List Step)
    {fault : Fault}
    (hfaulted : (run peer before { session := { options }, network }).2.session.state = .faulted)
    (hfault : (run peer before { session := { options }, network }).2.session.fault? = some fault)
    (huse : ∀ step ∈ steps, step.isUse = true) :
    let here := (run peer before { session := { options }, network }).2
    (run peer steps here).2 = here ∧
      List.Forall₂ (FailsFast peer here fault) steps (run peer steps here).1 ∧
      Repetition fault fault.replay := by
  intro here
  obtain ⟨hstay, hsteps⟩ := failsFast_run peer hfaulted hfault huse
  have hfresh : ({ session := { options }, network } : Station σ).Original := by
    rintro _ ⟨⟩
  exact ⟨hstay, hsteps, repetition_replay (original_run peer hfresh before fault hfault)⟩

/-- A session that was faulted by an answer to request 99 when it had made two, and three uses of it
after that. -/
theorem fails_fast_foreign :
    let strange : Bytes := [0x32, 3, 0, 0, 0, 99, 0, 0, 0, 0, 0, 0]
    let replies : List Reply :=
      greeting 240 ++ [{ bytes := [3, 0, 0, 19, 2, 0xF0, 0x80] ++ strange }]
    let fresh : Station (List Reply) :=
      { session := { options := .ofFamily "plc" .s71500 }, network := { peer := replies, sent := [] } }
    let here := (run scripted [.connect, .command (.control .stop)] fresh).2
    let uses : List Step := [.exchange [0x32], .command (.readBits []), .command (.control .stop)]
    here.session.state = .faulted ∧
      here.session.fault? = some (.framing (.foreignReference 99 2)) ∧
      (run scripted uses here).2 = here := by
  intro strange replies fresh here uses
  have hfaulted : here.session.state = .faulted := by decide
  have hfault : here.session.fault? = some (.framing (.foreignReference 99 2)) := by decide
  have huse : ∀ step ∈ uses, step.isUse = true := by simp [uses, Step.isUse]
  refine ⟨hfaulted, hfault, ?_⟩
  exact (fails_fast scripted (.ofFamily "plc" .s71500) { peer := replies, sent := [] }
    [.connect, .command (.control .stop)] uses hfaulted hfault huse).1

end Station

end S7Comm
