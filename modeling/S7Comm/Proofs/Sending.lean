import S7Comm.Proofs.Conversation
import S7Comm.Proofs.Fragments
import S7Comm.Proofs.Plan

/-!
# What was planned is sent

Three lengths have to be told in sixteen bits: that which is agreed on for messages, those of the
blocks in a header, and that of a packet, which is seven bytes longer than the message in it. A plan
knows of the first only. The second follows from it. The third does not: a message of more than `65528
= 65535 - 7` bytes fits no packet (`Iso.exists_wrapData_iff`), and messages of up to 65535 bytes can
be agreed on.

**Requests.** A run of a plan can always be made into a request, which is not longer than agreed. A
request to read is far shorter than a packet can be; a request to write fits a packet exactly if it
has at most 65528 bytes (`Batch.request_of_planReads`, `Batch.request_of_planWrites`). The request for
a job of control always fits (`Pdu.Control.length_encode_le`).

**Faults.** So there are two ways for a ready session to become faulted.

* `Station.Provoked peer here e after`: at the moment `here` a packet was to be sent, and the other
  end is to blame, because the packet did not get through, because it was not answered, or because its
  answer is wanting (`Wanting`).
* `Station.Oversized here e after`: at the moment `here` a request to write was not sent, with `65528
  < message.length ≤ pduLength`, and `e` calls it a packet of bad format.

**Main results.** That these are all is `Station.requests_sent`, by a law about all operations
(`explained_law`). That the second does occur is `Station.writeEach_oversized`, for every list whose
first request is too long, and `Station.oversized_request`, for one list.
-/

namespace S7Comm

open Call

/-! ## Lengths -/

namespace Iso

/-- A message fits a packet if and only if it has at most 65528 bytes: a packet has at most 65535, of
which four are its own header and three that of the data unit. -/
theorem exists_wrapData_iff {message : Bytes} :
    (∃ packet, wrapData message = .ok packet) ↔ message.length ≤ 65528 := by
  constructor
  · rintro ⟨packet, h⟩
    by_contra hlong
    unfold wrapData Packet.encode at h
    dsimp only at h
    rw [if_pos] at h
    · cases h
    · simp only [Packet.headerLength, Packet.maxLength, List.length_append, List.length_cons,
        List.length_nil]
      omega
  · exact fun h => ⟨_, wrapData_eq_ok h⟩

/-- Of a message that fits no packet, that is what is reported. -/
theorem wrapData_eq_error_iff {message : Bytes} {e : PacketError} :
    wrapData message = .error e ↔ e = .badFormat ∧ 65528 < message.length := by
  constructor
  · intro h
    refine ⟨?_, ?_⟩
    · unfold wrapData Packet.encode at h
      dsimp only at h
      split at h <;> cases h
      rfl
    · by_contra hshort
      cases (wrapData_eq_ok (Nat.not_lt.mp hshort)).symm.trans h
  · rintro ⟨rfl, hlong⟩
    cases hwrap : wrapData message with
    | ok packet => exact absurd (exists_wrapData_iff.mp ⟨packet, hwrap⟩) (Nat.not_le.mpr hlong)
    | error e =>
      unfold wrapData Packet.encode at hwrap
      dsimp only at hwrap
      split at hwrap <;> cases hwrap
      rfl

end Iso

/-- A number below a power of ten has no more digits than that: `(digits n).length ≤ width` for `n <
10 ^ width`, where `width` is at least one, as zero has a digit. -/
theorem Decimal.length_digits_le {n width : Nat} (hwidth : 0 < width) (h : n < 10 ^ width) :
    (digits n).length ≤ width := by
  induction width generalizing n with
  | zero => exact absurd hwidth (Nat.lt_irrefl 0)
  | succ width ih =>
    rw [digits]
    split
    · exact Nat.succ_pos width
    · next hten =>
      rw [Nat.pow_succ] at h
      have hdiv : n / 10 < 10 ^ width := Nat.div_lt_of_lt_mul (by omega)
      have hpos : 0 < width := by
        rcases Nat.eq_zero_or_pos width with rfl | hpos
        · rw [Nat.pow_zero] at h
          omega
        · exact hpos
      rw [List.length_append]
      exact Nat.succ_le_succ (ih hpos hdiv)

namespace Pdu.Control

/-- The call of a service has 11 bytes, and those of its argument and its name. -/
theorem length_service (argument name : Bytes) :
    (service argument name).length = 11 + argument.length + name.length := by
  simp only [service, wordBytes, List.length_append, List.length_cons, List.length_nil]
  omega

/-- The argument that names a block has ten bytes, as the number of the block has five digits. -/
theorem length_insertArgument (type : BlockType) {number : Nat} (fileSystem : FileSystem)
    (h : number ≤ maxBlockNumber) : (insertArgument type number fileSystem).length = 10 := by
  have hdigits : (Decimal.digits number).length ≤ 5 :=
    Decimal.length_digits_le (by decide) (Nat.lt_succ_of_le h)
  have htype : type.code.length = 2 := by cases type <;> rfl
  simp only [insertArgument, ascii, List.length_append, List.length_map, List.length_cons,
    List.length_nil, List.length_leftpad, htype]
  omega

/-- The parameters of a job have at most 30 bytes, whatever job it is, and whatever block it names. -/
theorem length_parameters_le {job : Control} {parameters : Bytes}
    (h : job.parameters = .ok parameters) : parameters.length ≤ 30 := by
  cases job with
  | insert type number fileSystem =>
    rw [Control.parameters] at h
    split at h
    · cases h
    · next hnumber =>
      cases h
      rw [length_service, length_insertArgument type fileSystem (Nat.not_lt.mp hnumber)]
      decide
  | hotRestart | coldRestart | stop | copyRamToRom | compress =>
    cases h
    decide

/-- The request for a job always fits a packet. -/
theorem length_encode_le {job : Control} {reference : UInt16} {message : Bytes}
    (h : job.encode reference = .ok message) : message.length ≤ 65528 := by
  simp only [encode, except_bind_eq_ok_iff, job_eq_ok_iff] at h
  obtain ⟨parameters, hparameters, _, ⟨-, -, rfl⟩, h⟩ := h
  cases h
  have hheader : (requestHeader reference parameters.length 0).encode.length = jobHeaderLength :=
    Header.length_encode _
  have hlength := length_parameters_le hparameters
  rw [List.length_append, hheader]
  simp only [jobHeaderLength]
  omega

end Pdu.Control

/-! ## Requests of a plan -/

namespace Batch

/-- A run of items that are planned to be read can be asked for, under any reference, with a request
that is not longer than agreed and that fits a packet. Its length is `(planned readDemand
run).request.total`, which the plan has compared with the agreed length; and 255 items are far from a
packet. -/
theorem request_of_planReads {budget : UInt16} {items : List RequestItem}
    {parts : List (List RequestItem)} (h : planReads budget items = .ok parts)
    {run : List RequestItem} (hrun : run ∈ parts) (reference : UInt16) :
    ∃ message packet, Pdu.encodeReadRequest reference run = .ok message ∧
      message.length ≤ budget.toNat ∧ Iso.wrapData message = .ok packet := by
  obtain ⟨halone, rfl⟩ := plan_eq_ok_iff.mp h
  obtain ⟨hne, hcount, hfits⟩ := runs_fit halone run hrun
  obtain ⟨message, hmessage, hlength⟩ := encodeReadRequest_eq_ok reference hne hcount
  obtain ⟨-, -, rfl⟩ := Pdu.encodeReadRequest_eq_ok_iff.mp hmessage
  obtain ⟨packet, hpacket⟩ := Iso.exists_wrapData_iff.mpr (Pdu.length_readRequest_le reference hcount)
  exact ⟨_, packet, hmessage, hlength.trans_le (fits_iff.mp hfits).1, hpacket⟩

/-- A run of items that are planned to be written can be asked for, under any reference, with a
request that is not longer than agreed. It fits a packet if and only if it has at most 65528 bytes,
about which the plan has nothing to say. -/
theorem request_of_planWrites {budget : UInt16} {pairs : List (RequestItem × DataItem)}
    {parts : List (List (RequestItem × DataItem))} (h : planWrites budget pairs = .ok parts)
    {run : List (RequestItem × DataItem)} (hrun : run ∈ parts) (reference : UInt16) :
    ∃ message,
      Pdu.encodeWriteRequest reference (run.map Prod.fst) (run.map Prod.snd) = .ok message ∧
      message.length ≤ budget.toNat ∧
      ((∃ packet, Iso.wrapData message = .ok packet) ↔ message.length ≤ 65528) := by
  obtain ⟨halone, rfl⟩ := plan_eq_ok_iff.mp h
  obtain ⟨hne, hcount, hfits⟩ := runs_fit halone run hrun
  obtain ⟨hrequest, -⟩ := fits_iff.mp hfits
  obtain ⟨message, hmessage, hlength⟩ := encodeWriteRequest_eq_ok reference hne hcount
    (hrequest.trans (Nat.le_of_lt_succ budget.toNat_lt))
  exact ⟨message, hmessage, hlength.trans_le hrequest, Iso.exists_wrapData_iff⟩

end Batch

/-! ## Who is to blame

The reason of a fault is found at a moment between the beginning of a call and its end, and not at its
beginning. `Explained` says that there is such a moment; it is carried on backwards, as what explains
an error after a later moment explains it after an earlier one.
-/

/-- An answer is found wanting as that to a request. -/
inductive Wanting (message response : Bytes) : Error → Prop where
  /-- The request was to read some items. -/
  | read {reference : UInt16} {run : List RequestItem} {e : Error} :
    Pdu.encodeReadRequest reference run = .ok message →
    Batch.checkReadResponse response reference run = .error e → Wanting message response e
  /-- The request was to write some items. -/
  | write {reference : UInt16} {run : List (RequestItem × DataItem)} {e : Error} :
    Pdu.encodeWriteRequest reference (run.map Prod.fst) (run.map Prod.snd) = .ok message →
    Batch.checkWriteResponse response reference run.length = .error e → Wanting message response e
  /-- The request was for a job of control. -/
  | control {reference : UInt16} {job : Pdu.Control} {e : Error} :
    job.encode reference = .ok message →
    Pdu.Control.validateAck response reference = .error e → Wanting message response e

namespace Station

variable {σ : Type}

/-- At a moment of a ready session a packet was to be sent, and what became of it is the reason for the
error. -/
inductive Provoked (peer : Peer σ) (here : Station σ) : Error → Station σ → Prop where
  /-- The packet did not get through, or it was not answered, or with packets that are none. -/
  | unanswered {stream : Stream} {packet : Bytes} {e : TransportError} {after : Station σ} :
    here.session.ReadyOn stream →
    peer.reply packet (stream, here.network) = .error e →
    after.network = peer.behind packet (stream, here.network) →
    Provoked peer here (.transport e) after
  /-- Its answer is wanting. -/
  | wanting {stream stream' : Stream} {packet response : Bytes} {e : Error} {after : Station σ} :
    here.session.ReadyOn stream →
    peer.reply packet (stream, here.network) = .ok (response, stream') →
    Wanting (Iso.carried packet) response e →
    after.network = peer.behind packet (stream, here.network) →
    Provoked peer here e after

/-- At a moment of a ready session a request to write was not sent, which is not longer than agreed,
but too long for a packet. -/
structure Oversized (here : Station σ) (e : Error) (after : Station σ) : Prop where
  /-- That is said to be a packet of bad format. -/
  error : e = .transport (.packet .badFormat)
  /-- Nothing was sent. -/
  unsent : after.network = here.network
  /-- There is such a request. -/
  request : ∃ reference, ∃ run : List (RequestItem × DataItem), ∃ message,
    Pdu.encodeWriteRequest reference (run.map Prod.fst) (run.map Prod.snd) = .ok message ∧
      65528 < message.length ∧ message.length ≤ here.session.pduLength.toNat

/-- A fatal error is explained: if there was a connection, and the length of messages is the given
one, then there is a moment on the way, at which the session was still ready on its connection, and
the error was provoked there, or comes from a request that was too long to be sent. Other errors need
no explanation, as they leave the session as it is. -/
def Explained (peer : Peer σ) (budget : UInt16) (before : Station σ) (e : Error)
    (after : Station σ) : Prop :=
  ∀ stream, before.session.ReadyOn stream → before.session.pduLength = budget → e.isFatal = true →
    ∃ here, StillReady peer before here ∧ (Provoked peer here e after ∨ Oversized here e after)

variable {peer : Peer σ} {budget : UInt16}

/-- Whether the errors of a call are explained can be told from its parts. -/
theorem explained_composes : Composes (Ends (Explained peer budget) peer) := by
  refine ends_composes peer
    (fun _ e he _ _ _ hfatal => absurd (he.symm.trans hfatal) Bool.false_ne_true) ?_
  intro st middle e after hmiddle h stream hready hbudget hfatal
  obtain ⟨stream', hready'⟩ := hmiddle.exists_readyOn hready
  obtain ⟨here, hhere, hcause⟩ := h stream' hready' (hmiddle.pduLength.trans hbudget) hfatal
  exact ⟨here, hmiddle.trans hhere, hcause⟩

/-- Requests of some make are explained, if what is wanting about their answers is, and if those that
fit no packet are to write and not longer than the given length. -/
theorem explained_ask {α : Type} {request : UInt16 → Except Error Bytes}
    {answer : UInt16 → Bytes → Except Error α} (harmless : ∀ reference, Harmless (request reference))
    (hwanting : ∀ reference message response e, request reference = .ok message →
      answer reference response = .error e → Wanting message response e)
    (hlong : ∀ reference message, request reference = .ok message → 65528 < message.length →
      message.length ≤ budget.toNat ∧ ∃ run : List (RequestItem × DataItem),
        Pdu.encodeWriteRequest reference (run.map Prod.fst) (run.map Prod.snd) = .ok message) :
    Ends (Explained peer budget) peer α ((channel peer).ask request answer) := by
  refine ends_ask peer harmless fun st e after _ hpasses stream hready hbudget hfatal => ?_
  refine ⟨st, .refl hready.state, ?_⟩
  cases hpasses with
  | unexpressed hrequest _ =>
    exact absurd ((harmless _ e hrequest).symm.trans hfatal) Bool.false_ne_true
  | unsent hrequest hwrap hafter =>
    obtain ⟨rfl, hlength⟩ := Iso.wrapData_eq_error_iff.mp hwrap
    obtain ⟨hle, run, hrun⟩ := hlong _ _ hrequest hlength
    exact .inr ⟨rfl, hafter, _, run, _, hrun, hlength, hbudget ▸ hle⟩
  | unconnected _ hnone _ => cases hnone.symm.trans hready.stream
  | unanswered hstream _ _ hreply hafter =>
    exact .inl (.unanswered ⟨hready.state, hstream⟩ hreply hafter)
  | refused hstream hrequest hwrap hreply hanswer hafter =>
    refine .inl (.wanting ⟨hready.state, hstream⟩ hreply ?_ hafter)
    rw [Iso.carried_of_wrapData hwrap]
    exact hwanting _ _ _ e hrequest hanswer

/-- A list that is divided for the given length is explained if its runs are. The runs are those of a
plan for the length, so that what is known of such runs may be used. -/
theorem explained_divided {α β : Type} {demand : α → Batch.Demand}
    {call : List α → Call (Station σ) (List β)} {items : List α}
    (hkeeps : Keeps peer (List β) (do
      (channel peer).ensureReady
      let runs ← Batch.plan demand (← (channel peer).pduBudget) items
      let results ← runs.mapM call
      return results.flatten))
    (hcall : ∀ parts, Batch.plan demand budget items = .ok parts →
      ∀ run ∈ parts, Ends (Explained peer budget) peer (List β) (call run)) :
    Ends (Explained peer budget) peer (List β) (do
      (channel peer).ensureReady
      let runs ← Batch.plan demand (← (channel peer).pduBudget) items
      let results ← runs.mapM call
      return results.flatten) := by
  intro st hready
  refine ⟨hkeeps st hready, fun e after hrun stream hon hbudget => ?_⟩
  have hplan : (channel peer).budget st = budget := hbudget
  rw [Channel.divides_eq (checkReady_of_ready peer hready), hplan] at hrun
  have h : Composes (Ends (Explained peer budget) peer) := explained_composes
  have hruns := h.ofExcept_bind (Batch.harmless_plan demand budget items) fun parts hparts =>
    h.bind (h.mapM (hcall parts hparts)) fun results _ => h.pure results.flatten
  exact (hruns st hready).2 e after hrun stream hon hbudget

/-- The operations of a client are explained, by the law of operations: what is wanting of an answer
is an error of its check, and of the three kinds of requests only those to write can be too long for a
packet. -/
theorem explained_law (options : Options) :
    Client.Law (Client.ofPeer peer options) (Ends (Explained peer budget) peer) where
  toComposes := explained_composes
  ensureReady := ends_ensureReady peer
  pduBudget := ends_pduBudget peer
  readEach items := by
    have hkeeps := (keeps_law peer options).readEach items
    unfold Batch.readEach at hkeeps ⊢
    by_cases hnone : items = []
    · rw [if_pos hnone]
      exact explained_composes.pure []
    rw [if_neg hnone] at hkeeps ⊢
    refine explained_divided hkeeps fun parts hparts run hrun => ?_
    refine explained_ask (harmless_encodeReadRequest run) ?_ ?_
    · exact fun _ _ _ _ hrequest hanswer => .read hrequest hanswer
    -- a request to read fits a packet, so it is never the reason
    · intro reference message hrequest hlength
      obtain ⟨_, packet, hencode, -, hwrap⟩ := Batch.request_of_planReads hparts hrun reference
      cases hencode.symm.trans hrequest
      exact absurd (Iso.exists_wrapData_iff.mp ⟨packet, hwrap⟩) (Nat.not_le.mpr hlength)
  writeEach items data := by
    have hkeeps := (keeps_law peer options).writeEach items data
    unfold Batch.writeEach at hkeeps ⊢
    by_cases hpaired : items.length ≠ data.length
    · rw [if_pos hpaired]
      exact explained_composes.bind (explained_composes.refuse (by rfl))
        fun value hvalue => absurd hvalue (not_yields_throw _ value)
    rw [if_neg hpaired] at hkeeps ⊢
    dsimp only at hkeeps ⊢
    by_cases hnone : items = []
    · rw [if_pos hnone]
      exact explained_composes.pure []
    rw [if_neg hnone] at hkeeps ⊢
    refine explained_divided hkeeps fun parts hparts run hrun => ?_
    refine explained_ask (harmless_encodeWriteRequest _ _) ?_ ?_
    · exact fun _ _ _ _ hrequest hanswer => .write hrequest hanswer
    -- a request to write may be too long, but not longer than agreed
    · intro reference message hrequest hlength
      obtain ⟨_, hencode, hle, -⟩ := Batch.request_of_planWrites hparts hrun reference
      cases hencode.symm.trans hrequest
      exact ⟨hle, run, hencode⟩
  control job := by
    refine Client.control_of_ask explained_composes (ends_ensureReady peer) ?_
    refine explained_ask (fun reference => harmless_argument (job.encode reference)) ?_ ?_
    · exact fun _ _ _ _ hrequest hanswer =>
        .control (mapError_eq_ok_iff.mp hrequest) hanswer
    · intro reference message hrequest hlength
      have hshort := Pdu.Control.length_encode_le (mapError_eq_ok_iff.mp hrequest)
      exact absurd hshort (Nat.not_le.mpr hlength)

/-- If the request for a run fits no packet, nothing is sent, a reference is used up, and the session
is faulted with the error of the packet layer. -/
theorem writeRun_unsent {st : Station σ} {stream : Stream} {run : List (RequestItem × DataItem)}
    {message : Bytes} {e : PacketError} (hready : st.session.ReadyOn stream)
    (hmessage : Pdu.encodeWriteRequest (Session.following st.session.reference)
      (run.map Prod.fst) (run.map Prod.snd) = .ok message)
    (hwrap : Iso.wrapData message = .error e) :
    Batch.writeRun (channel peer) run st =
      .error (.transport (.packet e))
        { session := st.session.advance.markFaulted (.transport (.packet e))
          network := st.network } := by
  let advanced : Station σ := { st with session := st.session.advance }
  have hallocate : (channel peer).allocate st =
      .ok (Session.following st.session.reference) advanced := rfl
  have hadvanced : advanced.session.ReadyOn stream := ⟨hready.state, hready.stream⟩
  rw [Batch.writeRun, bind_of_ok hallocate, hmessage]
  exact bind_of_error (exchange_of_unsent peer hadvanced hwrap) _

/-- If the first request of a list to be written is too long for a packet, nothing is sent, and the
session is faulted: by what is called a packet of bad format. -/
theorem writeEach_oversized {st : Station σ} {stream : Stream}
    {pairs run : List (RequestItem × DataItem)} {later : List (List (RequestItem × DataItem))}
    (hready : st.session.ReadyOn stream)
    (hplan : Batch.planWrites st.session.pduLength pairs = .ok (run :: later))
    (hlong : 65528 < (Batch.planned Batch.writeDemand run).request.total) :
    Batch.writeEach (channel peer) (pairs.map Prod.fst) (pairs.map Prod.snd) st =
      .error (.transport (.packet .badFormat))
        { session := st.session.advance.markFaulted (.transport (.packet .badFormat))
          network := st.network } := by
  obtain ⟨halone, hruns⟩ := Batch.plan_eq_ok_iff.mp hplan
  have hne : pairs ≠ [] := by
    rintro rfl
    cases hruns.trans (Batch.runs_nil Batch.writeDemand _)
  have hrun : run ∈ Batch.runs Batch.writeDemand st.session.pduLength.toNat pairs :=
    hruns ▸ List.mem_cons_self
  obtain ⟨hrunNe, hcount, hfits⟩ := Batch.runs_fit halone run hrun
  obtain ⟨message, hmessage, hlength⟩ := Batch.encodeWriteRequest_eq_ok
    (Session.following st.session.reference) hrunNe hcount
    ((Batch.fits_iff.mp hfits).1.trans (Nat.le_of_lt_succ st.session.pduLength.toNat_lt))
  have hwrap : Iso.wrapData message = .error .badFormat :=
    Iso.wrapData_eq_error_iff.mpr ⟨rfl, hlong.trans_eq hlength.symm⟩
  rw [Batch.writeEach_pairs _ hne, Channel.divided_eq (checkReady_of_ready peer hready.state) hplan,
    List.mapM_cons]
  exact bind_of_error (bind_of_error (writeRun_unsent hready hmessage hwrap) _) _

/-- So it is for a single item with at least 65501 bytes, if the agreed length admits it. -/
theorem writeEach_oversized_bytes (peer : Peer σ) {st : Station σ} {stream : Stream}
    (item : StandardItem) {bytes : Bytes} (hready : st.session.ReadyOn stream)
    (hlong : 65501 ≤ bytes.length)
    (hfits : 28 + bytes.length ≤ st.session.pduLength.toNat) :
    Batch.writeEach (channel peer) [.standard item] [.ofBytes bytes] st =
      .error (.transport (.packet .badFormat))
        { session := st.session.advance.markFaulted (.transport (.packet .badFormat))
          network := st.network } := by
  have htotal : (Batch.planned Batch.writeDemand [(.standard item, .ofBytes bytes)]).request.total =
      28 + bytes.length := rfl
  have hne : bytes ≠ [] := List.ne_nil_of_length_pos (by omega)
  have hplan : Batch.planWrites st.session.pduLength [(.standard item, .ofBytes bytes)] =
      .ok [[(.standard item, .ofBytes bytes)]] :=
    Batch.planWrites_singleton item hne hfits
  exact writeEach_oversized hready hplan (by rw [htotal]; omega)

/-- **Requests are sent, and only the other end can fault a session**, as long as messages have at
most 65528 bytes.

* Whatever is planned to be read can be asked for: for each run of a plan and each reference there is
  a request with `message.length ≤ budget`, and it fits a packet.
* Whatever is planned to be written can be asked for with `message.length ≤ budget`, and the request
  fits a packet exactly if `message.length ≤ 65528`.
* If an operation on a session that is ready on a connection leaves it faulted, then at some moment on
  the way either a packet was to be sent, which did not get through, was not answered, or was answered
  with what is wanting as an answer to it (`Provoked`); or there was a request to write, with `65528 <
  message.length ≤ pduLength`, that was not sent (`Oversized`). -/
theorem requests_sent (peer : Peer σ) (st : Station σ) :
    (∀ budget items parts, Batch.planReads budget items = .ok parts → ∀ run ∈ parts, ∀ reference,
      ∃ message packet, Pdu.encodeReadRequest reference run = .ok message ∧
        message.length ≤ budget.toNat ∧ Iso.wrapData message = .ok packet) ∧
    (∀ budget pairs parts, Batch.planWrites budget pairs = .ok parts → ∀ run ∈ parts, ∀ reference,
      ∃ message,
        Pdu.encodeWriteRequest reference (run.map Prod.fst) (run.map Prod.snd) = .ok message ∧
        message.length ≤ budget.toNat ∧
        ((∃ packet, Iso.wrapData message = .ok packet) ↔ message.length ≤ 65528)) ∧
    ∀ (command : Command) stream, st.session.ReadyOn stream →
      let (outcome, after) := (perform peer (.command command)).outcome st
      after.session.state = .faulted →
        ∃ e here, outcome = .error e ∧ StillReady peer st here ∧
          (Provoked peer here e after ∨
            65528 < st.session.pduLength.toNat ∧ Oversized here e after) := by
  refine ⟨fun _ _ _ h _ hrun => Batch.request_of_planReads h hrun,
    fun _ _ _ h _ hrun => Batch.request_of_planWrites h hrun, fun command stream hready => ?_⟩
  have huse : (Step.command command).isUse = true := rfl
  -- a session is faulted for a fatal error only, and those are explained
  have hcourse := (keeps_perform peer huse st hready.state).faulted_iff
  have hlaw : Client.Law (Client.ofPeer peer st.session.options)
      (Ends (Explained peer st.session.pduLength) peer) :=
    explained_law st.session.options
  have hexplained := (hlaw.perform command st hready.state).2
  rcases hrun : (perform peer (.command command)).outcome st with ⟨outcome, after⟩
  rw [hrun] at hcourse
  intro hfaulted
  obtain ⟨e, rfl, hfatal⟩ := hcourse.1.mp hfaulted
  obtain ⟨here, hhere, hcause⟩ := hexplained e after (error_of_outcome hrun) stream hready rfl hfatal
  refine ⟨e, here, rfl, hhere, hcause.imp_right fun hlong => ⟨?_, hlong⟩⟩
  obtain ⟨_, _, _, -, hgt, hle⟩ := hlong.request
  rw [← hhere.pduLength]
  exact Nat.lt_of_lt_of_le hgt hle

/-- A byte is written, and the other end hangs up. -/
theorem requests_sent_unanswered :
    let here := greeted 240 []
    let after := ((perform scripted (.command (.writeByte "DB1.DBB0" 7))).outcome here).2
    here.session.state = .ready ∧ after.session.state = .faulted ∧
      ∃ e middle, StillReady scripted here middle ∧ Provoked scripted middle e after := by
  intro here after
  have hready : here.session.ReadyOn .fresh := ⟨by decide, by decide⟩
  have hfaulted : after.session.state = .faulted := by decide +kernel
  obtain ⟨e, middle, -, hmiddle, hcause⟩ :=
    (requests_sent scripted here).2.2 (.writeByte "DB1.DBB0" 7) .fresh hready hfaulted
  have hshort : ¬ 65528 < here.session.pduLength.toNat := by decide
  exact ⟨hready.state, hfaulted, e, middle, hmiddle, hcause.resolve_right fun hlong => hshort hlong.1⟩

/-- Where 65535 bytes have been agreed on, a request of 65529 bytes is planned, and not sent. -/
theorem oversized_request :
    let here := greeted 65535 []
    let place : StandardItem :=
      { address := { area := .dataBlock, block := 1, byte := 0, bit := 0 }, type := .byte
        count := 65501 }
    let list : WriteList := { pairs := #[(.standard place, .ofBytes (List.replicate 65501 0xAA))] }
    here.session.state = .ready ∧ ∃ after,
      perform scripted (.command (.writeEachOf list)) here =
        .error (.transport (.packet .badFormat)) after ∧
      after.session.state = .faulted ∧ after.network.sent = here.network.sent := by
  intro here place list
  have hready : here.session.ReadyOn .fresh := ⟨by decide, by decide⟩
  have hlong : 65501 ≤ (List.replicate 65501 (0xAA : UInt8)).length := by
    rw [List.length_replicate]
  have hfits : 28 + (List.replicate 65501 (0xAA : UInt8)).length ≤
      here.session.pduLength.toNat := by
    rw [List.length_replicate]
    decide
  have hwrite := writeEach_oversized_bytes scripted place hready hlong hfits
  refine ⟨by decide, _, bind_of_error hwrite _, rfl, rfl⟩

end Station

end S7Comm
