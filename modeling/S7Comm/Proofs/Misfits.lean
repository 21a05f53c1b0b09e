import S7Comm.Proofs.ForeignAnswers
import S7Comm.Proofs.Sufficiency

/-!
# Answers of another length

An answer can be sound in all respects but one: an item that was read has more or fewer bytes than
were asked for. Reading a value from it would take bytes that are not there, or bytes that mean
something else. Such an answer breaks the format, and the session is given up; so the value is never
decoded, and the decoders never lack bytes.

* `Station.AsksToRead reference run packet`: what was asked for is what the packet says. Several lists
  of items can be asked for by the same packet, since not all of an address is sent; but the lengths
  that they ask for are the same (`Pdu.readRequest_inj`).
* `Station.Misfits reference run response`: the message can be decoded as an answer, it has the
  reference and the number of items of the request, and there is an item that was read with
  `item.payload.length ≠ length`, where `length` was asked for.
* `Station.Misfits.checkReadResponse`: such an answer is refused with an error of the format.
* **Main result** (`Station.typed_reads_suffice`): this beside what is known of sufficient payloads,
  for every operation that reads values of a type.
-/

namespace S7Comm

open Call

/-! ## What a packet asks for -/

/-- Items whose bytes begin alike ask for the same length, and what follows them is the same. Two
items may be different all the same, in a place that three bytes do not hold; but of the type and the
count all is sent. -/
theorem RequestItem.dataLength?_of_encode_append {item item' : RequestItem} {rest rest' : Bytes}
    (h : item.encode ++ rest = item'.encode ++ rest') :
    item.dataLength? = item'.dataLength? ∧ rest = rest' := by
  have hthird := congrArg (fun bytes => bytes[2]?) h
  rcases item with place | lines
  · rcases item' with place' | lines'
    · have hdecode := place.decode_encode rest
      rw [show place.encode ++ rest = place'.encode ++ rest' from h,
        place'.decode_encode rest'] at hdecode
      obtain ⟨hsent, hrest⟩ := Prod.mk.inj (Except.ok.inj hdecode)
      have hlength : place.sent.dataLength = place'.sent.dataLength :=
        congrArg StandardItem.dataLength hsent.symm
      exact ⟨congrArg some hlength, hrest.symm⟩
    · cases hthird
  · rcases item' with place' | lines'
    · cases hthird
    · have hlength :
          (RequestItem.nck lines).encode.length = (RequestItem.nck lines').encode.length := by
        rw [length_encode, length_encode]
        rfl
      exact ⟨rfl, (List.append_inj h hlength).2⟩

/-- As many items with the same bytes ask for the same lengths, each as its partner. By induction on
the one list, and item by item. -/
theorem RequestItem.dataLengths_of_encode {items items' : List RequestItem}
    (hlength : items.length = items'.length) (h : items.flatMap encode = items'.flatMap encode) :
    items.map dataLength? = items'.map dataLength? := by
  induction items generalizing items' with
  | nil =>
    obtain rfl := List.eq_nil_of_length_eq_zero hlength.symm
    rfl
  | cons item items ih =>
    rcases items' with _ | ⟨item', items'⟩
    · cases hlength
    · rw [List.flatMap_cons, List.flatMap_cons] at h
      obtain ⟨hitem, hitems⟩ := dataLength?_of_encode_append h
      rw [List.map_cons, List.map_cons, hitem, ih (Nat.succ.inj hlength) hitems]

namespace Pdu

/-- A request to read tells its reference and the lengths that it asks for: equal messages, of at most
255 items each, have both in common, though perhaps not the places. -/
theorem readRequest_inj {reference reference' : UInt16} {items items' : List RequestItem}
    (hcount : items.length ≤ Access.maxItems) (hcount' : items'.length ≤ Access.maxItems)
    (h : readRequest reference items = readRequest reference' items') :
    reference = reference' ∧
      items.map RequestItem.dataLength? = items'.map RequestItem.dataLength? := by
  have hdecode : Header.decode (readRequest reference items) = _ :=
    decode_requestHeader reference _ 0 (Access.read.parameters items)
  have hdecode' : Header.decode (readRequest reference' items') = _ :=
    decode_requestHeader reference' _ 0 (Access.read.parameters items')
  rw [h, hdecode'] at hdecode
  obtain ⟨hheader, hparameters⟩ := Prod.mk.inj (Except.ok.inj hdecode)
  obtain ⟨hnumber, hitems⟩ := List.cons.inj (List.cons.inj hparameters).2
  have hlength := congrArg UInt8.toNat hnumber
  rw [Access.toNat_count hcount, Access.toNat_count hcount'] at hlength
  exact ⟨(congrArg Header.reference hheader).symm,
    (RequestItem.dataLengths_of_encode hlength hitems).symm⟩

end Pdu

namespace Station

variable {σ : Type} {reference : UInt16} {run : List RequestItem} {packet response : Bytes}

/-- Two lists that a packet asks for have the same lengths, and the reference is the same. -/
theorem AsksToRead.lengths {reference' : UInt16} {run' : List RequestItem}
    (h : AsksToRead reference run packet) (h' : AsksToRead reference' run' packet) :
    reference = reference' ∧ run.map RequestItem.dataLength? = run'.map RequestItem.dataLength? := by
  obtain ⟨message, hmessage, hwrap⟩ := h
  obtain ⟨message', hmessage', hwrap'⟩ := h'
  obtain rfl : message = message' :=
    (Iso.carried_of_wrapData hwrap).symm.trans (Iso.carried_of_wrapData hwrap')
  obtain ⟨-, hcount, hread⟩ := Pdu.encodeReadRequest_eq_ok_iff.mp hmessage
  obtain ⟨-, hcount', hread'⟩ := Pdu.encodeReadRequest_eq_ok_iff.mp hmessage'
  exact Pdu.readRequest_inj hcount hcount' (hread.symm.trans hread')

/-- A packet whose message has another function than reading behind its header does not ask to read
anything. Requests to write, to agree on a setup and to do a job of control are such. -/
theorem not_asksToRead {message body : Bytes} {header : Pdu.Header}
    (hwrap : Iso.wrapData message = .ok packet)
    (hdecode : Pdu.Header.decode message = .ok (header, body))
    (hother : body.head? ≠ some Pdu.Access.read.code) : ¬ AsksToRead reference run packet := by
  rintro ⟨message', hmessage, hwrap'⟩
  obtain rfl : message' = message :=
    (Iso.carried_of_wrapData hwrap').symm.trans (Iso.carried_of_wrapData hwrap)
  obtain ⟨-, -, rfl⟩ := Pdu.encodeReadRequest_eq_ok_iff.mp hmessage
  have hread : Pdu.Header.decode (Pdu.readRequest reference run) = _ :=
    Pdu.decode_requestHeader reference _ 0 (Pdu.Access.read.parameters run)
  rw [hdecode] at hread
  obtain ⟨-, rfl⟩ := Prod.mk.inj (Except.ok.inj hread)
  exact hother rfl

/-! ## Answers -/

/-- A message can be decoded as an answer to a request to read, and reports no error; it has the
reference and the number of items of the request; but an item that was read has another length than
was asked for. -/
def Misfits (reference : UInt16) (run : List RequestItem) (response : Bytes) : Prop :=
  ∃ header items, Pdu.decodeReadResponse response = .ok (header, items) ∧
    header.reference = reference ∧ items.length = run.length ∧
    ∃ (i : Nat) (request : RequestItem) (item : DataItem) (length : Nat), run[i]? = some request ∧
      request.dataLength? = some length ∧ items[i]? = some item ∧ item.isSuccess = true ∧
      item.payload.length ≠ length

/-- What does not fit what a packet asks for does not fit any list that it asks for. So it may be said
of the packet, and the list that was asked for need not be known. -/
theorem Misfits.of_asksToRead {reference' : UInt16} {run' : List RequestItem}
    (h : Misfits reference run response) (hasks : AsksToRead reference run packet)
    (hasks' : AsksToRead reference' run' packet) : Misfits reference' run' response := by
  obtain ⟨rfl, hlengths⟩ := hasks.lengths hasks'
  obtain ⟨header, items, hdecode, hreference, hcount, i, request, item, length, hrequest, hlength,
    hitem, hsuccess, hne⟩ := h
  have hsame := congrArg List.length hlengths
  rw [List.length_map, List.length_map] at hsame
  have hfound : (run.map RequestItem.dataLength?)[i]? = (run'.map RequestItem.dataLength?)[i]? := by
    rw [hlengths]
  rw [List.getElem?_map, List.getElem?_map, hrequest, Option.map_some, hlength, eq_comm,
    Option.map_eq_some_iff] at hfound
  obtain ⟨request', hrequest', hlength'⟩ := hfound
  exact ⟨header, items, hdecode, hreference, hcount.trans hsame, i, request', item, length, hrequest',
    hlength', hitem, hsuccess, hne⟩

/-- **Such an answer is refused for its format**, by the check that every answer to a request to read
goes through. What is checked before the payloads it passes; and if it passed the check of the
payloads too, each item that was read would have its length (`Batch.checkPayloads_eq_ok_iff`). -/
theorem Misfits.checkReadResponse (h : Misfits reference run response) :
    ∃ cause, Batch.checkReadResponse response reference run = .error (.framing cause) := by
  obtain ⟨header, items, hdecode, hreference, hcount, i, request, item, length, hrequest, hlength,
    hitem, hsuccess, hne⟩ := h
  have hchecked : Batch.checkReadResponse response reference run =
      (Batch.checkPayloads 0 run items).mapError .framing >>= fun _ => pure items := by
    rw [Batch.checkReadResponse, hdecode]
    change (liftM (header.requireReference reference) >>= _ : Except Error _) = _
    rw [Pdu.Header.requireReference_eq_ok_iff.mpr hreference]
    change (if items.length ≠ run.length then _ else _ : Except Error _) = _
    rw [if_neg (not_not_intro hcount)]
    rfl
  rw [hchecked]
  rcases hpayloads : Batch.checkPayloads 0 run items with cause | _
  · exact ⟨cause, rfl⟩
  · -- the check of the payloads is not passed
    have hfulfils := (Batch.checkPayloads_eq_ok_iff hcount 0).mp hpayloads
    obtain ⟨hi, rfl⟩ := List.getElem?_eq_some_iff.mp hrequest
    obtain ⟨hi', rfl⟩ := List.getElem?_eq_some_iff.mp hitem
    have hfulfil : Pdu.Fulfils run[i] items[i] := hfulfils.get hi hi'
    rcases hkind : run[i] with place | lines
    · rw [hkind] at hlength
      cases hlength
      exact absurd (hfulfil place hkind hsuccess) hne
    · rw [hkind] at hlength
      cases hlength

/-! ## In a session

An answer that is accepted fits, and one that does not is the last of the call. That is a conversation
in the sense of `Converses`, with `Accepts` for what is fine and `Resents` for what accounts for an
error.
-/

/-- An answer fits what a packet asks for. -/
def Accepts (packet response : Bytes) : Prop :=
  ∀ reference run, AsksToRead reference run packet → ¬ Misfits reference run response

/-- If the reply to a packet is a message that does not fit what the packet asks for, the error is one
of the format. Of replies that are none, and of packets that do not ask to read, nothing is said. -/
def Resents (packet : Bytes) (reply : Except TransportError Bytes) (e : Error) : Prop :=
  ∀ response reference run, reply = .ok response → AsksToRead reference run packet →
    Misfits reference run response → ∃ cause, e = .framing cause

/-- What does not ask to read has no answer that does not fit: a request of any make, whose messages
have a header and another function behind it. Its errors need not be looked at. -/
theorem converses_of_other {peer : Peer σ} {α : Type} {request : UInt16 → Except Error Bytes}
    {answer : UInt16 → Bytes → Except Error α}
    (hother : ∀ reference message, request reference = .ok message → ∃ header body,
      Pdu.Header.decode message = .ok (header, body) ∧
        body.head? ≠ some Pdu.Access.read.code) :
    Converses Accepts Resents peer α ((channel peer).ask request answer) := by
  have hnone : ∀ reference message packet, request reference = .ok message →
      Iso.wrapData message = .ok packet → ∀ reference run, ¬ AsksToRead reference run packet := by
    intro reference message packet hmessage hwrap reference' run
    obtain ⟨header, body, hdecode, hhead⟩ := hother reference message hmessage
    exact not_asksToRead hwrap hdecode hhead
  refine converses_ask ?_ ?_ ?_
  · intro reference message packet response value hmessage hwrap _ reference' run hasks
    exact absurd hasks (hnone _ _ _ hmessage hwrap reference' run)
  · rintro reference message packet e hmessage hwrap _ _ _ ⟨⟩
  · intro reference message packet response e hmessage hwrap _ _ reference' run _ hasks
    exact absurd hasks (hnone _ _ _ hmessage hwrap reference' run)

/-- What asks to read finds out answers that do not fit. -/
theorem converses_readRun (peer : Peer σ) (run : List RequestItem) :
    Converses Accepts Resents peer (List DataItem) (Batch.readRun (channel peer) run) := by
  change Converses Accepts Resents peer (List DataItem)
    ((channel peer).ask (fun reference => Pdu.encodeReadRequest reference run)
      fun reference response => Batch.checkReadResponse response reference run)
  refine converses_ask ?_ ?_ ?_
  · intro reference message packet response value hmessage hwrap hvalue reference' run' hasks hmisfits
    obtain ⟨cause, hcause⟩ :=
      (hmisfits.of_asksToRead hasks ⟨message, hmessage, hwrap⟩).checkReadResponse
    cases hcause.symm.trans hvalue
  · rintro reference message packet e hmessage hwrap _ _ _ ⟨⟩
  · intro reference message packet response e hmessage hwrap he response' reference' run' hreply hasks
      hmisfits
    cases hreply
    obtain ⟨cause, hcause⟩ :=
      (hmisfits.of_asksToRead hasks ⟨message, hmessage, hwrap⟩).checkReadResponse
    exact ⟨cause, Except.error.inj (he.symm.trans hcause)⟩

/-- Every operation finds out answers that do not fit: it goes on from answers that fit only, and one
that does not is the last, with an error of the format. By the law of operations, from the three kinds
of requests that they make. -/
theorem accepts_law (peer : Peer σ) (options : Options) :
    Client.Law (Client.ofPeer peer options) (Converses Accepts Resents peer) := by
  refine converses_law options (converses_readRun peer) (fun run => ?_) fun job => ?_
  · refine converses_of_other fun reference message hmessage => ?_
    obtain ⟨-, -, -, -, rfl⟩ := Pdu.encodeWriteRequest_eq_ok_iff.mp hmessage
    rw [Pdu.writeRequest, List.append_assoc]
    refine ⟨_, _, Pdu.decode_requestHeader _ _ _ _, ?_⟩
    change some Pdu.Access.write.code ≠ some Pdu.Access.read.code
    decide
  · refine converses_of_other fun reference message hmessage => ?_
    obtain ⟨header, body, hdecode, -, haccess⟩ :=
      Pdu.requests_control (lift_argument_eq_ok_iff.mp hmessage)
    exact ⟨header, body, hdecode, fun hread => haccess.mp ⟨.read, hread⟩⟩

/-- Whatever stands in the way of a request is no lack. -/
theorem sufficient_checkReady (peer : Peer σ) (st : Station σ) :
    Sufficient ((channel peer).checkReady st) := by
  intro e he
  change st.session.checkReady = .error e at he
  unfold Session.checkReady at he
  split at he <;> cases he
  · next fault _ _ => cases fault <;> rfl
  · rfl

/-- Nor is what goes wrong when a message is exchanged. -/
theorem ample_exchange (peer : Peer σ) (message : Bytes) : Ample (exchange peer message) := by
  intro st e after hrun
  cases hcheck : st.session.checkReady with
  | error refusal =>
    rw [exchange_of_checkReady hcheck] at hrun
    cases hrun
    exact sufficient_checkReady peer st e hcheck
  | ok =>
    unfold exchange at hrun
    rw [hcheck] at hrun
    dsimp only at hrun
    split at hrun <;> cases hrun
    rfl

/-- **Reads of values have enough bytes, or the answer is refused.** In whatever state a session is,
whatever the other end does and whatever length was agreed on, let one of the operations be performed
that read CPU memory for values of a type (`Command.isTypedRead`: a byte, bits, numbers, strings, and
times in their forms, one or several of them).

* It does not end with `.insufficientData`, and not with the error that an item has no answer,
  `.framing .noDataItem`.
* If the session is ready, and in answer to a packet that asked to read a run came a message that is
  sound but for the length of an item that was read (`Misfits`), then the operation fails because the
  format is broken, `.framing cause`, and with this error the session has been given up. -/
theorem typed_reads_suffice (peer : Peer σ) (st : Station σ) {command : Command}
    (htyped : command.isTypedRead = true) :
    let (outcome, after) := (perform peer (.command command)).outcome st
    (∀ shortage, outcome ≠ .error (.insufficientData shortage)) ∧
      outcome ≠ .error (.framing .noDataItem) ∧
      (st.session.state = .ready → ∀ packet response reference run,
        (packet, .ok response) ∈ exchanged peer st after → AsksToRead reference run packet →
        Misfits reference run response →
        ∃ cause, outcome = .error (.framing cause) ∧
          after.session.GivenUp (.framing cause)) := by
  have hample : Ample (perform peer (.command command)) := by
    intro st e after hrun
    have hheader : 1 ≤ (Client.ofPeer peer st.session.options).stringHeader :=
      st.session.options.family.stringHeaderLength_pos
    exact Client.ample_perform (sufficient_checkReady peer) (ample_exchange peer)
      (certain_exchange peer) hheader htyped st e after hrun
  have hnever : ∀ e, ((perform peer (.command command)).outcome st).1 = .error e →
      e.isShort = false := fun e he => hample st e _ (error_of_outcome (Prod.ext he rfl))
  refine ⟨?_, ?_, ?_⟩
  · intro shortage he
    cases hnever _ he
  · intro he
    cases hnever _ he
  · intro hready packet response reference run hmem hasks hmisfits
    have hlaw := (accepts_law peer st.session.options).perform command
    -- on record there is something only if there was a connection
    cases hstream : st.session.stream? with
    | none =>
      rw [exchanged, hstream] at hmem
      cases hmem
    | some stream =>
    rcases (exchanged_of_converses hlaw ⟨hready, hstream⟩).2 packet _ hmem with
      ⟨response', hresponse, haccepts⟩ | ⟨e, he, hresents⟩
    -- an answer that was gone on from fits
    · cases hresponse
      exact absurd hmisfits (haccepts reference run hasks)
    · obtain ⟨cause, rfl⟩ := hresents response reference run rfl hasks hmisfits
      refine ⟨cause, he, ?_⟩
      have hsettles : Settles peer st (perform peer (.command command) st) :=
        keeps_perform peer rfl st hready
      have hrun : perform peer (.command command) st = .error (.framing cause) _ :=
        error_of_outcome (Prod.ext he rfl)
      rw [hrun] at hsettles ⊢
      exact hsettles

/-- One byte in answer to a request for a word: the answer breaks the format, and the session is given
up. -/
theorem typed_reads_suffice_word :
    let short : Bytes := [0x32, 3, 0, 0, 0, 2, 0, 2, 0, 5, 0, 0, 4, 1, 0xFF, 4, 0, 8, 7]
    let here := greeted 240 [{ bytes := [3, 0, 0, 26, 2, 0xF0, 0x80] ++ short }]
    let command : Command := .readNumber .uint16 "DB1.DBW0"
    let (outcome, after) := (perform scripted (.command command)).outcome here
    command.isTypedRead = true ∧ here.session.state = .ready ∧
      (∃ packet reference run, (packet, .ok short) ∈ exchanged scripted here after ∧
        AsksToRead reference run packet ∧ Misfits reference run short) ∧
      ∃ cause, outcome = .error (.framing cause) ∧
        after.session.GivenUp (.framing cause) := by
  intro short here command
  have htyped : command.isTypedRead = true := rfl
  have hready : here.session.state = .ready := by decide
  let word : RequestItem := .standard
    { address := { area := .dataBlock, block := 1, byte := 0, bit := 0 }, type := .byte, count := 2 }
  let packet : Bytes := [3, 0, 0, 31, 2, 0xF0, 0x80, 0x32, 1, 0, 0, 0, 2, 0, 14, 0, 0, 4, 1, 0x12, 10,
    0x10, 2, 0, 2, 0, 1, 0x84, 0, 0, 0]
  have hexchanged : exchanged scripted here
      ((perform scripted (.command command)).outcome here).2 = [(packet, .ok short)] := by
    decide +kernel
  have hmem : (packet, .ok short) ∈ exchanged scripted here
      ((perform scripted (.command command)).outcome here).2 := by
    rw [hexchanged]
    exact List.mem_singleton_self _
  have hasks : AsksToRead 2 [word] packet := ⟨packet.drop 7, by decide, by decide⟩
  have hmisfits : Misfits 2 [word] short := by
    refine ⟨_, _, rfl, rfl, rfl, 0, word, _, 2, rfl, rfl, rfl, rfl, ?_⟩
    decide
  refine ⟨htyped, hready, ⟨packet, 2, [word], hmem, hasks, hmisfits⟩, ?_⟩
  exact (typed_reads_suffice scripted here htyped).2.2 hready packet short 2 [word] hmem hasks hmisfits

end Station

end S7Comm
