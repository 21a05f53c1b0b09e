import S7Comm.Proofs.Conversation
import S7Comm.Proofs.WrittenData
import S7Comm.Proofs.Writing

/-!
# The lengths of what is written

In front of every payload that is written stands its length, in the unit of its transport size. A
controller has nothing else to go by: only if all lengths of a request are right, it finds the
payloads in it (`Pdu.carries_of_told`).

**Where the lengths are right.** `DataItem.Told item` says that the length field declares the payload
behind it.

* For a bit, and for timers and counters, it always does.
* The length of bytes is in bits, of which a field of two bytes can tell 65535. For `n` bytes the field
  declares `n % 8192` bytes, which is right exactly if `n ≤ 8191` (`DataItem.Made.told_iff`).
* Nothing but the agreed length of messages keeps an item from being longer. Up to an agreed length of
  `8219 = 8191 + 28` no item is, and beyond that one can be: `Station.written_length_lost` writes 8192
  bytes whose length is given as zero.

**What the packets are.** `Station.asked_writeEach`: when a list is written, the packets ask for runs
of it, from the first on, and for the whole list if the writing succeeds.

**Main result** (`Station.written_lengths`): what this says of every operation that writes values, and
what the requests carry.
-/

namespace S7Comm

open Call

/-! ## Lengths that are right

An item whose length is right is an `Answered`, so that what is known of the answers of a controller
can be used for its reading of requests: the format of data items is the same in both directions.
-/

namespace DataItem

/-- The length in front of the payload is the length of the payload. -/
def Told (item : DataItem) : Prop :=
  item.size.payloadLength (item.size.lengthField item.payload.length) = item.payload.length

/-- Of what the operations write, the length is right if and only if the data are not called bytes, or
are at most 8191 of them. Of more bytes the field has `8 * n % 65536` bits, which are `n % 8192`
bytes. -/
theorem Made.told_iff {item : DataItem} (h : item.Made) :
    item.Told ↔ (item.size = .byte → item.payload.length ≤ 8191) := by
  cases h with
  | bytes bytes =>
    -- of the number of bits, the field keeps what sixteen bits hold
    have hfield : (UInt16.ofNat (bytes.length * 8)).toNat = bytes.length * 8 % 2 ^ 16 :=
      UInt16.toNat_ofNat'
    change (UInt16.ofNat (bytes.length * 8)).toNat / 8 = bytes.length ↔
      (TransportSize.byte = .byte → bytes.length ≤ 8191)
    rw [hfield, imp_iff_right rfl]
    omega
  | bit value =>
    have htold : (DataItem.ofBit value).Told :=
      TransportSize.payloadLength_lengthField (Nat.le_refl 1)
    exact iff_of_true htold fun hsize => TransportSize.noConfusion hsize
  | elements bytes hlength =>
    have htold : (DataItem.ofPayload .octets bytes).Told :=
      TransportSize.payloadLength_lengthField hlength
    exact iff_of_true htold fun hsize => TransportSize.noConfusion hsize

/-- A request leaves the return code of its data blank. -/
theorem Made.returnCode {item : DataItem} (h : item.Made) : item.returnCode = .other 0 := by
  cases h <;> rfl

/-- An item whose length is right, and whose return code has a byte of its own, is one that can be
read: there is an `Answered` of the same item, and it is encoded alike, at the end of a block and in
front of others. -/
theorem exists_answered {item : DataItem}
    (hcode : ReturnCode.ofCode item.returnCode.code = item.returnCode) (htold : item.Told) :
    ∃ a : Answered, a.item = item ∧ ∀ last, a.encode last = item.encode last := by
  have hsize := TransportSize.ofCode_code item.size
  have hdeclared : (TransportSize.ofCode item.size.code).payloadLength
      (item.size.lengthField item.payload.length) = item.payload.length := by
    rw [hsize]
    exact htold
  let a : Answered :=
    { code := item.returnCode.code, sizeCode := item.size.code,
      field := item.size.lengthField item.payload.length, payload := item.payload,
      declared := hdeclared }
  have hitem : a.item = item := by
    show DataItem.mk _ _ _ = item
    rw [hcode, hsize]
  refine ⟨a, hitem, fun last => ?_⟩
  rw [Answered.encode, hitem]
  rfl

/-- A row of such items is read as it was written, and nothing is left: the block round trip, for any
number of items. What is known of the rows of answers is used for it, as the fill bytes are the same.
-/
theorem decodeItems_encodeBlock {items : List DataItem}
    (hcode : ∀ item ∈ items, ReturnCode.ofCode item.returnCode.code = item.returnCode)
    (htold : ∀ item ∈ items, item.Told) :
    Pdu.decodeItems 0 items.length (encodeBlock items) = .ok (items, []) := by
  -- the row is one that a controller could have sent
  have hanswered : ∃ answers : List Answered, answers.map Answered.item = items ∧
      Answered.encodeBlock answers = encodeBlock items := by
    fun_induction encodeBlock items with
    | case1 => exact ⟨[], rfl, rfl⟩
    | case2 item =>
      obtain ⟨a, hitem, hencode⟩ := exists_answered (hcode item List.mem_cons_self)
        (htold item List.mem_cons_self)
      exact ⟨[a], congrArg (fun item => [item]) hitem, hencode true⟩
    | case3 item next items ih =>
      obtain ⟨a, hitem, hencode⟩ := exists_answered (hcode item List.mem_cons_self)
        (htold item List.mem_cons_self)
      obtain ⟨answers, hitems, hblock⟩ := ih
        (fun other hother => hcode other (List.mem_cons_of_mem _ hother))
        fun other hother => htold other (List.mem_cons_of_mem _ hother)
      have hmore : answers.isEmpty = false := by
        cases answers with
        | nil => cases hitems
        | cons => rfl
      refine ⟨a :: answers, ?_, ?_⟩
      · rw [List.map_cons, hitem, hitems]
      · rw [Answered.encodeBlock_cons, hmore, hencode, hblock]
  obtain ⟨answers, hitems, hblock⟩ := hanswered
  have hdecode := Answered.decodeItems_encodeBlock 0 answers
  rw [hblock, hitems] at hdecode
  have hlength : items.length = answers.length := by rw [← hitems, List.length_map]
  rw [hlength]
  exact hdecode

end DataItem

namespace Pdu

/-- Who divides a message as its header says, and then goes through its data block item by item,
finds just some data, and nothing is left. -/
def Carries (message : Bytes) (data : List DataItem) : Prop :=
  ∃ header body parameters block, Header.decode message = .ok (header, body) ∧
    header.splitBlocks body = .ok (parameters, block) ∧
    decodeItems 0 data.length block = .ok (data, [])

/-- A request to write data whose lengths are right carries the data (`Carries`): its header tells
where the data block begins and ends, and in the block are just the data. A block that is too long for
the header to tell its length is no part of any request. -/
theorem carries_of_told {reference : UInt16} {items : List RequestItem} {data : List DataItem}
    {message : Bytes} (h : encodeWriteRequest reference items data = .ok message)
    (hcode : ∀ item ∈ data, ReturnCode.ofCode item.returnCode.code = item.returnCode)
    (htold : ∀ item ∈ data, item.Told) : Carries message data := by
  obtain ⟨-, -, hcount, hdata, rfl⟩ := encodeWriteRequest_eq_ok_iff.mp h
  have hparameters := length_parameters_le .write hcount
  rw [← DataItem.length_encodeBlock] at hdata
  have hsplit : (requestHeader reference (Access.write.parameters items).length
      (DataItem.encodeBlock data).length).splitBlocks
        (Access.write.parameters items ++ DataItem.encodeBlock data) =
      .ok (Access.write.parameters items, DataItem.encodeBlock data) := by
    have hfirst : (UInt16.ofNat (Access.write.parameters items).length).toNat =
        (Access.write.parameters items).length :=
      UInt16.toNat_ofNat_of_lt' (Nat.lt_succ_of_le hparameters)
    have hsecond : (UInt16.ofNat (DataItem.encodeBlock data).length).toNat =
        (DataItem.encodeBlock data).length :=
      UInt16.toNat_ofNat_of_lt' (Nat.lt_succ_of_le hdata)
    simp only [Header.splitBlocks, requestHeader, hfirst, hsecond]
    rw [if_neg (Nat.not_lt.mpr (List.length_append ▸ Nat.le_refl _)), List.take_left,
      List.drop_left, List.take_length]
  refine ⟨_, _, _, _, ?_, hsplit, DataItem.decodeItems_encodeBlock hcode htold⟩
  rw [writeRequest, List.append_assoc]
  exact decode_requestHeader _ _ _ _

end Pdu

/-! ## What is sent -/

namespace Station

variable {σ : Type} {st : Station σ}

/-- Runs are asked for one after the other, with a packet each, from the first on; all of them, if the
call ends with a value. By induction on the runs. Which packets were sent is said, and nothing about
their answers. -/
theorem asked_mapM {α β : Type} (peer : Peer σ) (request : β → UInt16 → Except Error Bytes)
    (answer : β → UInt16 → Bytes → Except Error α) (runs : List β)
    (hready : st.session.state = .ready) :
    let result := (runs.mapM fun run => (channel peer).ask (request run) (answer run)).outcome st
    ∃ asked packets, asked <+: runs ∧ result.2.network.sent = st.network.sent ++ packets ∧
      List.Forall₂ (fun run packet => ∃ reference, request run reference = .ok (Iso.carried packet))
        asked packets ∧
      ∀ results, result.1 = .ok results → asked = runs := by
  -- the induction is on the runs, for a session that has been used already
  induction runs generalizing st with
  | nil => exact ⟨[], [], List.prefix_rfl, (List.append_nil _).symm, .nil, fun _ _ => rfl⟩
  | cons run runs ih =>
    have hpasses := passes_ask (request run) (answer run) peer hready
    generalize hfirst : (channel peer).ask (request run) (answer run) st = first at hpasses
    rw [List.mapM_cons]
    cases hpasses with
    | unexpressed _ hafter | unconnected _ _ hafter | unsent _ _ hafter =>
      rw [outcome_of_error (bind_of_error hfirst _)]
      refine ⟨[], [], List.nil_prefix, ?_, .nil, nofun⟩
      rw [hafter, List.append_nil]
    | @unanswered stream message packet e after _ hrequest hwrap _ hafter
    | @refused stream stream' message packet response e after _ hrequest hwrap _ _ hafter =>
      rw [outcome_of_error (bind_of_error hfirst _)]
      refine ⟨[run], [packet], List.prefix_append [run] runs, ?_, ?_, nofun⟩
      · rw [hafter]
        exact Peer.sent_behind peer packet (stream, st.network)
      · rw [← Iso.carried_of_wrapData hwrap] at hrequest
        exact .cons ⟨_, hrequest⟩ .nil
    | @accepted stream stream' message packet response value middle _ hrequest hwrap _ _ hmiddle =>
      have hready' : middle.session.state = .ready := by
        rw [hmiddle]
        exact hready
      have hsent : middle.network.sent = st.network.sent ++ [packet] := by
        rw [hmiddle]
        exact Peer.sent_behind peer packet (stream, st.network)
      obtain ⟨asked, packets, hasked, hafter, hpackets, hall⟩ := ih hready'
      rw [hsent, List.append_assoc] at hafter
      rw [← Iso.carried_of_wrapData hwrap] at hrequest
      rw [outcome, bind_of_ok hfirst]
      refine ⟨run :: asked, packet :: packets, (List.prefix_cons_inj run).mpr hasked, ?_,
        .cons ⟨_, hrequest⟩ hpackets, fun results hresults => ?_⟩
      · exact (congrArg (·.network.sent) (outcome_bind_pure _ (value :: ·) middle)).trans hafter
      · obtain ⟨others, hothers⟩ := exists_ok_of_bind_pure hresults
        rw [hall others hothers]

/-- When a list is written, the packets that are sent ask for runs of it, from the first on; for the
whole list, if the writing succeeds. Each item that is sent fits a message of its own. -/
theorem asked_writeEach (peer : Peer σ) (st : Station σ) (pairs : List (RequestItem × DataItem)) :
    let result :=
      (Batch.writeEach (channel peer) (pairs.map Prod.fst) (pairs.map Prod.snd)).outcome st
    ∃ parts packets, parts.flatten <+: pairs ∧
      result.2.network.sent = st.network.sent ++ packets ∧
      List.Forall₂ (fun part packet => Asks part (Iso.carried packet)) parts packets ∧
      (∀ pair ∈ parts.flatten, (Batch.writeSizes pair).1 ≤ st.session.pduLength.toNat) ∧
      ∀ codes, result.1 = .ok codes → parts.flatten = pairs := by
  by_cases hne : pairs = []
  · subst hne
    exact ⟨[], [], List.prefix_rfl, (List.append_nil _).symm, .nil, List.forall_mem_nil _,
      fun _ _ => rfl⟩
  rw [Batch.writeEach_pairs (channel peer) hne]
  by_cases hready : st.session.state = .ready
  swap
  -- a session that is not ready sends nothing
  · obtain ⟨e, -, hensure⟩ := ensureReady_of_not_ready peer hready
    rw [outcome_of_error (bind_of_error hensure _)]
    exact ⟨[], [], List.nil_prefix, (List.append_nil _).symm, .nil, List.forall_mem_nil _, nofun⟩
  have hcheck := checkReady_of_ready peer hready
  cases hplan : Batch.planWrites st.session.pduLength pairs with
  -- nor is anything sent of a list that cannot be divided
  | error e =>
    rw [outcome_of_error (Channel.undivided_eq hcheck hplan)]
    exact ⟨[], [], List.nil_prefix, (List.append_nil _).symm, .nil, List.forall_mem_nil _, nofun⟩
  | ok runs =>
    obtain ⟨halone, -⟩ := Batch.plan_eq_ok_iff.mp hplan
    have hflatten := Batch.flatten_of_plan hplan
    obtain ⟨parts, packets, hparts, hsent, hasks, hall⟩ := asked_mapM peer
      (fun run reference => Pdu.encodeWriteRequest reference (run.map Prod.fst) (run.map Prod.snd))
      (fun run reference response => Batch.checkWriteResponse response reference run.length)
      runs hready
    have hbegins : parts.flatten <+: pairs := by
      rw [← hflatten]
      exact hparts.flatten
    rw [outcome_congr (Channel.divided_eq hcheck hplan)]
    refine ⟨parts, packets, hbegins, ?_, hasks, fun pair hpair => ?_, fun codes hcodes => ?_⟩
    · rw [outcome_bind_pure]
      exact hsent
    · exact ((Batch.fits_alone_iff Batch.alone_write pair _).mp
        (halone pair (hbegins.subset hpair))).1
    · obtain ⟨results, hresults⟩ := exists_ok_of_bind_pure hcodes
      rw [hall results hresults, hflatten]

/-! ## Operations that write -/

/-- What is known of the data that operations with values send: on which their lengths depend, and
that they are right if messages are not too long. -/
theorem told_of_provided {pair : RequestItem × DataItem} (h : Batch.Provided pair) :
    (pair.2.Told ↔ (pair.2.size = .byte → pair.2.payload.length ≤ 8191)) ∧
      ((Batch.writeSizes pair).1 ≤ 8219 → pair.2.Told) := by
  obtain ⟨place, hplace, hmade⟩ := h
  have htold := hmade.told_iff
  refine ⟨htold, fun hsize => htold.mpr fun _ => ?_⟩
  have hencoded : pair.1.encodedLength = 12 := by
    rw [hplace]
    rfl
  rw [Batch.writeSizes, hencoded] at hsize
  omega

/-- **What is written can be found where its length can be told.** Whatever an operation with values
writes (`Command.Gives`), its packets ask for parts of one list, from the first on, and the payloads
of the parts are the first bytes of the values; they are all bytes of them, if the operation succeeds.
Of each item that is sent:

* the length in front of its payload is right exactly if it is not a length in bits, or the payload
  has at most 8191 bytes;
* it is right in any case if messages have at most 8219 bytes, `st.session.pduLength ≤ 8219`.

If all lengths of a request are right, then who goes through its data block item by item finds just
the data of its part (`Pdu.Carries`). -/
theorem written_lengths (peer : Peer σ) (st : Station σ) {command : Command}
    {given : Except ArgumentError Bytes}
    (h : command.Gives st.session.options.profile.byteOrder given) :
    let (outcome, after) := (perform peer (.command command)).outcome st
    ∃ parts packets, after.network.sent = st.network.sent ++ packets ∧
      List.Forall₂ (fun part packet => Asks part (Iso.carried packet) ∧
        ((∀ pair ∈ part, pair.2.Told) → Pdu.Carries (Iso.carried packet) (part.map Prod.snd)))
          parts packets ∧
      (parts ≠ [] → ∃ bytes, given = .ok bytes ∧ Batch.payloads parts.flatten <+: bytes) ∧
      (∀ answer, outcome = .ok answer → given = .ok (Batch.payloads parts.flatten)) ∧
      ∀ pair ∈ parts.flatten,
        (pair.2.Told ↔ (pair.2.size = .byte → pair.2.payload.length ≤ 8191)) ∧
          (st.session.pduLength.toNat ≤ 8219 → pair.2.Told) := by
  have hwrites := (Client.ofPeer peer st.session.options).writes_perform h st
  generalize hrun : ((perform peer (.command command)).outcome st) = result
  change ((Client.ofPeer peer st.session.options).perform command).outcome st = result at hrun
  -- the operation was refused, or it is the writing of a list
  rcases hwrites with ⟨e, he⟩ | ⟨pairs, hprovided, hgiven, hafter, hvalue⟩
  · rw [outcome_of_error he] at hrun
    subst hrun
    exact ⟨[], [], (List.append_nil _).symm, .nil, fun hne => absurd rfl hne, nofun,
      List.forall_mem_nil _⟩
  rw [hrun] at hafter hvalue
  obtain ⟨parts, packets, hparts, hsent, hasks, hsizes, hall⟩ := asked_writeEach peer st pairs
  have hmember : ∀ pair ∈ parts.flatten, Batch.Provided pair :=
    fun pair hpair => hprovided pair (hparts.subset hpair)
  refine ⟨parts, packets, (congrArg (·.network.sent) hafter).trans hsent, ?_, fun _ => ?_, ?_, ?_⟩
  · refine List.forall₂_iff_zip.mpr ⟨hasks.length_eq, fun {part packet} hzip => ?_⟩
    obtain ⟨reference, hrequest⟩ := (List.forall₂_iff_zip.mp hasks).2 hzip
    refine ⟨⟨reference, hrequest⟩, fun htold => Pdu.carries_of_told hrequest ?_ ?_⟩
    · refine List.forall_mem_map.mpr fun pair hpair => ?_
      obtain ⟨-, -, hmade⟩ := hmember pair (List.mem_flatten_of_mem (List.of_mem_zip hzip).1 hpair)
      rw [hmade.returnCode]
      rfl
    · exact List.forall_mem_map.mpr htold
  · exact ⟨_, hgiven, hparts.flatMap _⟩
  · intro answer hanswer
    obtain ⟨codes, hcodes⟩ := hvalue answer hanswer
    rw [hall codes hcodes]
    exact hgiven
  · intro pair hpair
    obtain ⟨htold, hshort⟩ := told_of_provided (hmember pair hpair)
    exact ⟨htold, fun hlength => hshort ((hsizes pair hpair).trans hlength)⟩

/-- As many bytes as one item can have when messages have at most 8219 bytes: they are sent, and can
be found. -/
theorem written_lengths_longest :
    let bytes : Bytes := List.replicate 8191 0xAA
    let acknowledged : Reply :=
      { bytes := [3, 0, 0, 22, 2, 0xF0, 0x80, 0x32, 3, 0, 0, 0, 2, 0, 2, 0, 1, 0, 0, 5, 1, 0xFF] }
    let here := greeted 8219 [acknowledged]
    let command := Command.writeBytes "DB1.DBB0" bytes
    let after := ((perform scripted (.command command)).outcome here).2
    command.Gives here.session.options.profile.byteOrder (.ok bytes) ∧
      ∃ part packet, after.network.sent = here.network.sent ++ [packet] ∧
        Pdu.Carries (Iso.carried packet) (part.map Prod.snd) ∧ Batch.payloads part = bytes := by
  intro bytes acknowledged here command after
  have hgives : command.Gives here.session.options.profile.byteOrder (.ok bytes) := .bytes _ bytes
  refine ⟨hgives, ?_⟩
  have hlength : here.session.pduLength.toNat ≤ 8219 := by decide +kernel
  obtain ⟨hsuccess, hcount⟩ :
      ((perform scripted (.command command)).outcome here).1.toBool = true ∧
        after.network.sent.length = here.network.sent.length + 1 := by
    decide +kernel
  rcases hrun : (perform scripted (.command command)).outcome here with ⟨outcome, after'⟩
  have h := written_lengths scripted here hgives
  simp only [after, hrun] at h hsuccess hcount ⊢
  obtain ⟨parts, packets, hsent, hparts, -, hgiven, hlengths⟩ := h
  rw [hsent, List.length_append] at hcount
  obtain ⟨packet, rfl⟩ := List.length_eq_one_iff.mp (Nat.add_left_cancel hcount)
  obtain ⟨part, rfl⟩ := List.length_eq_one_iff.mp hparts.length_eq
  rw [List.flatten_singleton] at hgiven hlengths
  obtain ⟨hcarries, -⟩ := List.forall₂_cons.mp hparts
  refine ⟨part, packet, hsent, hcarries.2 fun pair hpair => (hlengths pair hpair).2 hlength, ?_⟩
  cases outcome with
  | error e => cases hsuccess
  | ok answer => exact (Except.ok.inj (hgiven answer rfl)).symm

/-- One byte more, and one byte more in messages: the length in front of the bytes is zero, so that
who goes through the data block finds an item without a payload, and the bytes are left over. -/
theorem written_length_lost :
    let here := greeted 8220 []
    let command := Command.writeBytes "DB1.DBB0" (List.replicate 8192 0xAA)
    let after := ((perform scripted (.command command)).outcome here).2
    let blocks := (after.network.sent.drop here.network.sent.length).map fun packet =>
      (Iso.carried packet).drop 24
    here.session.state = .ready ∧
      blocks.map (fun block => (block.take 4, (Pdu.decodeItems 0 1 block).map fun found =>
        (found.1, found.2.length))) =
          [([0, TransportSize.byte.code, 0, 0], .ok ([.ofBytes []], 8192))] := by
  constructor <;> decide +kernel

end Station

end S7Comm
