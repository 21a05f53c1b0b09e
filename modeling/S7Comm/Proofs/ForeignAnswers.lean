import S7Comm.Proofs.Answer
import S7Comm.Proofs.Conversation

/-!
# Answers to other requests

What comes back on a connection need not answer what was sent on it: an answer that was late may still
be under way, or the other end may have lost count. The reference in the header is there to tell, and
a message that does not repeat the reference of the request is not the answer to it.

**What becomes of such a message.** For a job of control the reference is looked at before what the
message says, and the message breaks the format. So it does for lists of items, unless the controller
reports an error in it: reading and writing look at the report first, and pass it on as if it had been
made on their own request. The session then stays ready, on a connection on which request and answer
have come apart (`Station.foreign_report_believed`).

* `Pdu.Disowns access answer e`: with `access` and a report, `e = .protocol answer.report`, and
  without the one or the other `e` is a violation of the format.
* `Pdu.checkReadResponse_of_foreign`, `Pdu.checkWriteResponse_of_foreign`,
  `Pdu.validateAck_of_foreign`: each of the three checks of an answer disowns a foreign one, the first
  two with `access` and the third without.
* **Main result** (`Station.foreign_answers`): so it is for all operations, as every operation is a
  conversation in which accepted answers repeat the reference (`Station.strays_law`, by
  `Station.Converses`).

The setup is made before there are operations; its answer is looked at by `connect_course`.
-/

namespace S7Comm

open Call

/-! ## Requests -/

namespace Pdu

/-- Whether what follows the header of a request asks for access to items. -/
def IsAccess (body : Bytes) : Prop :=
  ∃ access : Access, body.head? = some access.code

/-- A request with a reference, and whether it asks for access to items. -/
def Requests (message : Bytes) (reference : UInt16) (access : Prop) : Prop :=
  ∃ header body, Header.decode message = .ok (header, body) ∧ header.reference = reference ∧
    (IsAccess body ↔ access)

/-- A request to read asks for access. -/
theorem requests_read {reference : UInt16} {items : List RequestItem} {message : Bytes}
    (h : encodeReadRequest reference items = .ok message) : Requests message reference True := by
  obtain ⟨-, -, rfl⟩ := encodeReadRequest_eq_ok_iff.mp h
  have haccess : IsAccess (Access.read.parameters items) := ⟨.read, rfl⟩
  exact ⟨_, _, decode_requestHeader _ _ _ _, rfl, iff_true_intro haccess⟩

/-- A request to write asks for access. -/
theorem requests_write {reference : UInt16} {items : List RequestItem} {data : List DataItem}
    {message : Bytes} (h : encodeWriteRequest reference items data = .ok message) :
    Requests message reference True := by
  obtain ⟨-, -, -, -, rfl⟩ := encodeWriteRequest_eq_ok_iff.mp h
  have haccess : IsAccess (Access.write.parameters items ++ DataItem.encodeBlock data) :=
    ⟨.write, rfl⟩
  rw [writeRequest, List.append_assoc]
  exact ⟨_, _, decode_requestHeader _ _ _ _, rfl, iff_true_intro haccess⟩

/-- The parameters of a job of control begin with one of two codes, neither of which is of access. -/
theorem Control.not_isAccess {job : Control} {parameters : Bytes}
    (h : job.parameters = .ok parameters) : ¬ IsAccess parameters := by
  have hhead : parameters.head? = some 0x28 ∨ parameters.head? = some 0x29 := by
    cases job with
    | insert type number fileSystem =>
      rw [Control.parameters] at h
      split at h
      · cases h
      · cases h
        exact .inl rfl
    | stop =>
      cases h
      exact .inr rfl
    | hotRestart | coldRestart | copyRamToRom | compress =>
      cases h
      exact .inl rfl
  rintro ⟨access, haccess⟩
  rw [haccess] at hhead
  cases access <;> simp [Access.code] at hhead

/-- A job of control does not ask for access. -/
theorem requests_control {job : Control} {reference : UInt16} {message : Bytes}
    (h : job.encode reference = .ok message) : Requests message reference False := by
  simp only [Control.encode, except_bind_eq_ok_iff, job_eq_ok_iff] at h
  obtain ⟨parameters, hparameters, _, ⟨-, -, rfl⟩, h⟩ := h
  cases h
  exact ⟨_, _, decode_requestHeader _ _ _ _, rfl,
    iff_false_intro (Control.not_isAccess hparameters)⟩

end Pdu

/-! ## Errors of the format -/

/-- A computation without state whose errors say that a response broke the format. -/
def Framed {α : Type} (result : Except Error α) : Prop :=
  FailsWith (fun e => ∃ cause, e = .framing cause) result

/-- What looks at the format only. -/
theorem framed_lift {α : Type} (result : Except FramingError α) : Framed (liftM result) :=
  FailsWith.mapError (fun _ _ => trivial) fun cause _ => ⟨cause, rfl⟩

/-! ## What is made of a foreign answer

The two checks for access decode first and compare the reference then (`Decodes.disowns`); what can go
wrong in decoding goes wrong before the reference is looked at, and a report is among that.
-/

namespace Pdu

/-- The error to which an answer to another request leads. Where access was asked for, the report of
the controller is passed on, although it was made on another request; in all other cases the answer
breaks the format. -/
def Disowns (access : Prop) (answer : Header) (e : Error) : Prop :=
  (access ∧ answer.report ≠ ⟨0, 0⟩ → e = .protocol answer.report) ∧
    (¬ (access ∧ answer.report ≠ ⟨0, 0⟩) → ∃ cause, e = .framing cause)

/-- Only an acknowledgment has a report. -/
theorem Header.isAck_of_report {bytes rest : Bytes} {header : Header}
    (h : decode bytes = .ok (header, rest)) (hreport : header.report ≠ ⟨0, 0⟩) :
    header.kind.isAck = true := by
  unfold decode at h
  split at h
  · split at h
    · cases h
    · split at h
      · cases h
      · dsimp only at h
        split at h
        · next hack =>
          split at h
          · cases h
            exact hack
          · cases h
        · cases h
          exact absurd rfl hreport
  · cases h

variable {α β : Type} {response rest : Bytes} {answer : Header} {reference : UInt16}

/-- What is decoded of an answer with some header: nothing if it has a report, which is the error
then; otherwise what goes wrong breaks the format, and what is found comes with the header. -/
structure Decodes (answer : Header) (decoded : Except Error (Header × α)) : Prop where
  /-- A report is an error. -/
  reported : answer.report ≠ ⟨0, 0⟩ → decoded = .error (.protocol answer.report)
  /-- Without a report, what goes wrong is the format. -/
  framed : answer.report = ⟨0, 0⟩ → Framed decoded
  /-- What is found is that of the header. -/
  header : ∀ found, decoded = .ok found → found.1 = answer

/-- An answer is opened behind its header. -/
theorem decodes_openAnswer (h : Header.decode response = .ok (answer, rest)) :
    Decodes answer (openAnswer response) where
  reported hreport := by
    -- the kind is looked at before the report, and a report needs the kind of an acknowledgment
    have hack : answer.requireAck = .ok () := by
      rw [Header.requireAck, Header.isAck_of_report h hreport, if_pos rfl]
    rw [openAnswer, h]
    change (liftM answer.requireAck >>= _ : Except Error _) = _
    rw [hack]
    change (liftM answer.requireNoReport >>= _ : Except Error _) = _
    rw [Header.requireNoReport_of_report hreport]
    rfl
  framed hreport := by
    unfold openAnswer
    refine (framed_lift _).bind ?_
    rintro ⟨header, body⟩ hheader
    rw [lift_framing_eq_ok_iff, h] at hheader
    cases hheader
    refine (framed_lift _).bind fun _ _ => ?_
    rw [Header.requireNoReport_eq_ok_iff.mpr hreport]
    refine FailsWith.bind (FailsWith.ok ()) fun _ _ => ?_
    refine (framed_lift _).bind fun _ _ => ?_
    exact (framed_lift _).bind fun _ _ => .ok _
  header found hopen := by
    simp only [openAnswer, except_bind_eq_ok_iff, lift_framing_eq_ok_iff, h] at hopen
    obtain ⟨_, ⟨⟩, _, -, _, -, _, -, _, -, hend⟩ := hopen
    cases hend
    rfl

namespace Decodes

/-- What is decoded further stays with the header. -/
theorem bind {decoded : Except Error (Header × α)} {next : Header × α → Except Error (Header × β)}
    (h : Decodes answer decoded) (hframed : ∀ found, Framed (next found))
    (hheader : ∀ found result, next found = .ok result → result.1 = found.1) :
    Decodes answer (decoded >>= next) where
  reported hreport := by
    rw [h.reported hreport]
    rfl
  framed hreport := (h.framed hreport).bind fun found _ => hframed found
  header result hresult := by
    obtain ⟨found, hfound, hnext⟩ := except_bind_eq_ok_iff.mp hresult
    rw [hheader found result hnext, h.header found hfound]

/-- The data items of an answer. -/
theorem read (h : Header.decode response = .ok (answer, rest)) :
    Decodes answer (decodeReadResponse response) := by
  unfold decodeReadResponse
  refine (decodes_openAnswer h).bind (fun _ => ?_) fun _ _ hnext => ?_
  · refine (framed_lift _).bind fun _ _ => ?_
    refine (framed_lift _).bind fun _ _ => ?_
    exact .guard ⟨_, rfl⟩ (.ok _)
  · simp only [except_bind_eq_ok_iff, guard_eq_ok_iff] at hnext
    obtain ⟨_, -, _, -, -, hend⟩ := hnext
    cases hend
    rfl

/-- The return codes of an answer. -/
theorem write (h : Header.decode response = .ok (answer, rest)) :
    Decodes answer (decodeWriteResponse response) := by
  unfold decodeWriteResponse
  refine (decodes_openAnswer h).bind (fun _ => ?_) fun _ _ hnext => ?_
  · refine (framed_lift _).bind fun _ _ => ?_
    exact .guard ⟨_, rfl⟩ (.ok _)
  · simp only [except_bind_eq_ok_iff, guard_eq_ok_iff] at hnext
    obtain ⟨_, -, -, hend⟩ := hnext
    cases hend
    rfl

/-- Where the reference is looked at behind what was decoded, a foreign one is too late for a
report, but in time for everything else. -/
theorem disowns {decoded : Except Error (Header × α)} (h : Decodes answer decoded)
    (hforeign : answer.reference ≠ reference) (next : Header × α → Unit → Except Error β) :
    ∃ e, (decoded >>= fun found =>
        (liftM (found.1.requireReference reference) : Except Error Unit) >>= next found) = .error e ∧
      Disowns True answer e := by
  by_cases hreport : answer.report = ⟨0, 0⟩
  · cases hdecoded : decoded with
    | error e =>
      obtain ⟨cause, rfl⟩ := h.framed hreport e hdecoded
      exact ⟨_, rfl, fun hmisled => absurd hreport hmisled.2, fun _ => ⟨cause, rfl⟩⟩
    | ok found =>
      have hrefused : found.1.requireReference reference =
          .error (.foreignReference answer.reference reference) := by
        rw [h.header found hdecoded, Header.requireReference, if_neg hforeign]
      refine ⟨.framing (.foreignReference answer.reference reference), ?_,
        fun hmisled => absurd hreport hmisled.2, fun _ => ⟨_, rfl⟩⟩
      change (liftM (found.1.requireReference reference) : Except Error Unit) >>= next found = _
      rw [hrefused]
      rfl
  · refine ⟨.protocol answer.report, ?_, fun _ => rfl, fun hnone => absurd ⟨trivial, hreport⟩ hnone⟩
    rw [h.reported hreport]
    rfl

end Decodes

variable (h : Header.decode response = .ok (answer, rest)) (hforeign : answer.reference ≠ reference)

include h hforeign

/-- A foreign answer to a request to read. -/
theorem checkReadResponse_of_foreign (requested : List RequestItem) :
    ∃ e, Batch.checkReadResponse response reference requested = .error e ∧ Disowns True answer e :=
  (Decodes.read h).disowns hforeign _

/-- A foreign answer to a request to write. -/
theorem checkWriteResponse_of_foreign (written : Nat) :
    ∃ e, Batch.checkWriteResponse response reference written = .error e ∧ Disowns True answer e :=
  (Decodes.write h).disowns hforeign _

/-- A foreign answer to a job of control: the reference is looked at before the report. -/
theorem validateAck_of_foreign :
    ∃ e, Control.validateAck response reference = .error e ∧ Disowns False answer e := by
  have hrefused : answer.requireReference reference =
      .error (.foreignReference answer.reference reference) := by
    rw [Header.requireReference, if_neg hforeign]
  have hframed : ∀ cause, Disowns False answer (.framing cause) :=
    fun cause => ⟨fun hmisled => hmisled.1.elim, fun _ => ⟨cause, rfl⟩⟩
  rw [Control.validateAck, h]
  change ∃ e, (liftM answer.requireAck >>= _ : Except Error _) = .error e ∧ _
  cases hack : answer.requireAck with
  | error cause => exact ⟨_, rfl, hframed cause⟩
  | ok =>
    change ∃ e, (liftM (answer.requireReference reference) >>= _ : Except Error _) = .error e ∧ _
    rw [hrefused]
    exact ⟨_, rfl, hframed _⟩

end Pdu

namespace Station

variable {σ : Type}

/-! ## Foreign answers in a session -/

/-- An answer that has a header repeats the reference of the request in a packet. -/
def Repeats (packet response : Bytes) : Prop :=
  ∃ header body, Pdu.Header.decode (Iso.carried packet) = .ok (header, body) ∧
    ∀ answer rest, Pdu.Header.decode response = .ok (answer, rest) →
      answer.reference = header.reference

/-- An error is that to which the reply to a packet leads, if it is an answer to another request. -/
def Strays (packet : Bytes) (reply : Except TransportError Bytes) (e : Error) : Prop :=
  ∃ header body, Pdu.Header.decode (Iso.carried packet) = .ok (header, body) ∧
    ∀ response answer rest, reply = .ok response →
      Pdu.Header.decode response = .ok (answer, rest) → answer.reference ≠ header.reference →
        Pdu.Disowns (Pdu.IsAccess body) answer e

/-- A request, and a check of the answer that finds out foreign ones. -/
theorem converses_of_foreign {peer : Peer σ} {α : Type} (access : Prop)
    {request : UInt16 → Except Error Bytes} {answer : UInt16 → Bytes → Except Error α}
    (hrequest : ∀ reference message, request reference = .ok message →
      Pdu.Requests message reference access)
    (hanswer : ∀ reference response header rest,
      Pdu.Header.decode response = .ok (header, rest) → header.reference ≠ reference →
        ∃ e, answer reference response = .error e ∧ Pdu.Disowns access header e) :
    Converses Repeats Strays peer α ((channel peer).ask request answer) := by
  refine converses_ask ?_ ?_ ?_
  · intro reference message packet response value hmessage hwrap hvalue
    obtain ⟨header, body, hdecode, rfl, -⟩ := hrequest reference message hmessage
    rw [← Iso.carried_of_wrapData hwrap] at hdecode
    refine ⟨header, body, hdecode, fun found rest hfound => ?_⟩
    by_contra hforeign
    obtain ⟨e, he, -⟩ := hanswer header.reference response found rest hfound hforeign
    rw [hvalue] at he
    cases he
  · intro reference message packet e hmessage hwrap
    obtain ⟨header, body, hdecode, rfl, -⟩ := hrequest reference message hmessage
    rw [← Iso.carried_of_wrapData hwrap] at hdecode
    exact ⟨header, body, hdecode, fun response found rest hreply => nomatch hreply⟩
  · intro reference message packet response e hmessage hwrap he
    obtain ⟨header, body, hdecode, rfl, haccess⟩ := hrequest reference message hmessage
    rw [← Iso.carried_of_wrapData hwrap] at hdecode
    refine ⟨header, body, hdecode, ?_⟩
    rintro _ found rest ⟨⟩ hfound hforeign
    obtain ⟨e', he', hdisowns⟩ := hanswer header.reference response found rest hfound hforeign
    obtain rfl : e = e' := Except.error.inj (he.symm.trans he')
    rw [Pdu.Disowns, haccess]
    exact hdisowns

/-- Every operation of a client finds out foreign answers. -/
theorem strays_law (peer : Peer σ) (options : Options) :
    Client.Law (Client.ofPeer peer options) (Converses Repeats Strays peer) := by
  refine converses_law options (fun run => ?_) (fun run => ?_) fun job => ?_
  · exact converses_of_foreign True (fun _ _ => Pdu.requests_read)
      fun _ _ _ _ h hforeign => Pdu.checkReadResponse_of_foreign h hforeign run
  · exact converses_of_foreign True (fun _ _ => Pdu.requests_write)
      fun _ _ _ _ h hforeign => Pdu.checkWriteResponse_of_foreign h hforeign run.length
  · exact converses_of_foreign False
      (fun _ _ h => Pdu.requests_control (lift_argument_eq_ok_iff.mp h))
      fun _ _ _ _ h hforeign => Pdu.validateAck_of_foreign h hforeign

/-- **What becomes of an answer to another request.** Take a session that is ready on a connection,
and any operation of a client. Every packet that it sends carries a request: behind its 7 bytes of
headers is a message with a header, `Pdu.Header.decode (Iso.carried packet) = .ok (header, body)`. If
what comes back for it has a header with another reference, `answer.reference ≠ header.reference`, the
operation fails.

* Where access was asked for and the message reports an error, `answer.report ≠ ⟨0, 0⟩`, the report is
  what it fails with, `.protocol answer.report`, and the session is ready still.
* In all other cases the message has broken the format, `.framing`, and the session is faulted. -/
theorem foreign_answers (peer : Peer σ) {st : Station σ} {stream : Stream}
    (hready : st.session.ReadyOn stream) (command : Command) :
    let (outcome, after) := (perform peer (.command command)).outcome st
    after.network.sent = st.network.sent ++ (exchanged peer st after).map Prod.fst ∧
      ∀ packet reply, (packet, reply) ∈ exchanged peer st after →
        ∃ header body, Pdu.Header.decode (Iso.carried packet) = .ok (header, body) ∧
          ∀ response answer rest, reply = .ok response →
            Pdu.Header.decode response = .ok (answer, rest) → answer.reference ≠ header.reference →
              (Pdu.IsAccess body ∧ answer.report ≠ ⟨0, 0⟩ →
                outcome = .error (.protocol answer.report) ∧ after.session.state = .ready) ∧
              (¬ (Pdu.IsAccess body ∧ answer.report ≠ ⟨0, 0⟩) →
                (∃ cause, outcome = .error (.framing cause)) ∧ after.session.state = .faulted) := by
  have hlaw := (strays_law peer st.session.options).perform command
  have hkeeps : Keeps peer Answer (perform peer (.command command)) := keeps_perform peer rfl
  obtain ⟨hfaulted, -, hstill⟩ := Settles.faulted_iff peer (hkeeps st hready.state)
  obtain ⟨hsent, hrecord⟩ := exchanged_of_converses hlaw hready
  refine ⟨hsent, fun packet reply hmem => ?_⟩
  -- a reply that was gone on from repeats the reference; so a foreign one is the last, and its error
  -- that of the operation
  rcases hrecord packet reply hmem with ⟨response, rfl, hrepeats⟩ | ⟨e, he, hstrays⟩
  · obtain ⟨header, body, hdecode, hrepeats⟩ := hrepeats
    refine ⟨header, body, hdecode, ?_⟩
    rintro _ answer rest ⟨⟩ hanswer hforeign
    exact absurd (hrepeats answer rest hanswer) hforeign
  · obtain ⟨header, body, hdecode, hstrays⟩ := hstrays
    refine ⟨header, body, hdecode, fun response answer rest hreply hanswer hforeign => ?_⟩
    obtain ⟨hreported, hframed⟩ := hstrays response answer rest hreply hanswer hforeign
    constructor
    · intro hmisled
      obtain rfl := hreported hmisled
      refine ⟨he, (hstill fun e he' => ?_).state⟩
      rw [Except.error.inj (he'.symm.trans he)]
      rfl
    · intro hnone
      obtain ⟨cause, rfl⟩ := hframed hnone
      exact ⟨⟨cause, he⟩, hfaulted.mpr ⟨_, he, rfl⟩⟩

/-- Stopping, and then a message for request 99, which reports an error: the error is not that of
the request, which was the second one, and the session is faulted. -/
theorem foreign_answers_stop :
    let strange : Bytes := [0x32, 3, 0, 0, 0, 99, 0, 0, 0, 0, 0x85, 0]
    let here := greeted 240 [{ bytes := [3, 0, 0, 19, 2, 0xF0, 0x80] ++ strange }]
    let (outcome, after) := (perform scripted (.command (.control .stop))).outcome here
    (exchanged scripted here after).map Prod.snd = [.ok strange] ∧
      (∃ cause, outcome = .error (.framing cause)) ∧ after.session.state = .faulted := by
  intro strange here
  have hready : here.session.ReadyOn .fresh := ⟨by decide, by decide⟩
  let packet : Bytes := [3, 0, 0, 33, 2, 0xF0, 0x80, 0x32, 1, 0, 0, 0, 2, 0, 16, 0, 0, 0x29, 0, 0, 0,
    0, 0, 9] ++ Pdu.Control.programService
  have hexchanged : exchanged scripted here
      ((perform scripted (.command (.control .stop))).outcome here).2 = [(packet, .ok strange)] := by
    decide
  have hmem : (packet, .ok strange) ∈ exchanged scripted here
      ((perform scripted (.command (.control .stop))).outcome here).2 := by
    rw [hexchanged]
    exact List.mem_singleton_self _
  obtain ⟨header, body, hdecode, hforeign⟩ :=
    (foreign_answers scripted hready (.control .stop)).2 packet (.ok strange) hmem
  have hfound : Pdu.Header.decode (Iso.carried packet) =
      .ok (Pdu.requestHeader 2 16 0, [0x29, 0, 0, 0, 0, 0, 9] ++ Pdu.Control.programService) := rfl
  obtain ⟨rfl, rfl⟩ := Prod.mk.inj (Except.ok.inj (hdecode.symm.trans hfound))
  have hcontrol := @Pdu.Control.not_isAccess .stop _ rfl
  refine ⟨congrArg (List.map Prod.snd) hexchanged, ?_⟩
  exact (hforeign strange _ _ rfl rfl (by decide)).2 fun hmisled => hcontrol hmisled.1

/-- An answer to request 99 that reports an error, in reply to request 2, which is to read a byte:
the report is believed, and the session stays ready. -/
theorem foreign_report_believed :
    let strange : Bytes := [0x32, 3, 0, 0, 0, 99, 0, 0, 0, 0, 0x85, 0]
    let here := greeted 240 [{ bytes := [3, 0, 0, 19, 2, 0xF0, 0x80] ++ strange }]
    let (outcome, after) :=
      (perform scripted (.command (.readRaw .byte 1 .dataBlock 1 0 0))).outcome here
    here.session.state = .ready ∧
      (exchanged scripted here after).map Prod.snd = [.ok strange] ∧
      (exchanged scripted here after).map (fun exchange =>
        (Pdu.Header.decode (Iso.carried exchange.1)).map fun found => found.1.reference) =
          [.ok 2] ∧
      (Pdu.Header.decode strange).map (fun found => found.1.reference) = .ok 99 ∧
      outcome = .error (.protocol ⟨0x85, 0⟩) ∧ after.session.state = .ready := by
  refine ⟨?_, ?_, ?_, ?_, ?_, ?_⟩
  case refine_5 => cbv
  all_goals decide +kernel

end Station

end S7Comm
