import S7Comm.Proofs.AnswerFormat
import S7Comm.Proofs.Reassembly

/-!
# How a connection is made

To connect a session takes two packets and what arrives for them. This module says which bytes these
have to be, layer by layer, and that nothing else will do.

* `Station.Opens peer options network stream asked`: the other end takes the connection in time, the
  request for it gets through, and the first packet that arrives for it confirms the connection
  (`Iso.Confirms`). It begins with what the other end makes of the attempt, which is `Attempt.taken`
  and none of the ways in which no connection comes about.
* `Station.Negotiates peer options reference stream network setup behind asked`: the proposal of a
  setup gets through, and the message that arrives for it, in fragments or not, agrees to `setup`
  (`Pdu.Agrees`). It can arrive behind the confirmation already: whatever stands behind the one packet
  is read when the next is waited for.
* `Station.Handshake` is both. `Network.Carried` and `Network.Undertaken` say how much of the packets
  has got through, all of their bytes or a beginning of them.

**Main result** (`Station.connect_course`): a session is connected exactly by a handshake; whatever
else happens is a fault of the transport or of the negotiation.

That there is no fault of another kind needs a reason in one place, as the header of an answer that
has been accepted is decoded a second time, and what were wrong with it then would be a fault of the
framing: it cannot be wrong then, since it was decoded before (`Station.negotiation_of_acceptSetup`).

How long it takes to be too late is not said: the other end is told the two spans of time, and
decides.
-/

namespace S7Comm

open Call

/-! ## Packets on a stream

Each layer of reading is inverted: what was read is what stands in front, and what is left is what
stands behind. So the bytes of a handshake can be named from the success of connecting.
-/

namespace Iso

/-- What a header announces. -/
theorem Packet.payloadLength_eq_ok_iff {header : Bytes} {length : Nat} :
    Packet.payloadLength header = .ok length ↔
      ∃ reserved length₁ length₀, header = [Packet.version, reserved, length₁, length₀] ∧
        Packet.minLength ≤ (word length₁ length₀).toNat ∧
        Packet.headerLength + length = (word length₁ length₀).toNat := by
  constructor
  · intro h
    unfold Packet.payloadLength at h
    split at h
    · next found reserved length₁ length₀ =>
      dsimp only at h
      split at h
      · cases h
      · next hversion =>
        obtain rfl := not_not.mp hversion
        split at h
        · cases h
        · next hshort =>
          cases h
          have hmin := Nat.not_lt.mp hshort
          refine ⟨reserved, length₁, length₀, rfl, hmin, Nat.add_sub_cancel' ?_⟩
          exact Nat.le_trans (by decide : Packet.headerLength ≤ Packet.minLength) hmin
    · cases h
  · rintro ⟨reserved, length₁, length₀, rfl, hmin, hlength⟩
    rw [payloadLength_of_version, if_neg (Nat.not_lt.mpr hmin), ← hlength, Nat.add_sub_cancel_left]

/-- A payload that confirms a connection: it is as long as a confirmation is, and its second byte
says that it is one. -/
def Confirms (payload : Bytes) : Prop :=
  7 ≤ payload.length ∧ payload[1]? = some connectionConfirmCode

/-- A payload is taken for a confirmation exactly if it is one. -/
theorem checkConfirm_eq_ok_iff {payload : Bytes} :
    checkConfirm payload = .ok () ↔ Confirms payload := by
  constructor
  · intro h
    unfold checkConfirm at h
    split at h
    · cases h
    · next hlong =>
      split at h
      · split at h
        · next hconfirm => exact ⟨Nat.not_lt.mp hlong, congrArg some hconfirm⟩
        · split at h <;> cases h
      · cases h
  · rintro ⟨hlong, hsecond⟩
    match payload with
    | [] | [_] => cases hsecond
    | length :: code :: rest =>
      obtain rfl := Option.some.inj hsecond
      exact if_neg (Nat.not_lt.mpr hlong)

end Iso

namespace Stream

/-- Bytes that are read are the first ones, and the others stay, with the end behind them if there is
one. Where there are not enough, whatever the end is, nothing is read. -/
theorem read_eq_ok_iff {unread bytes : Bytes} {ending : Option IoFailure} {length : Nat} {behind : Stream} :
    read length { unread, ending } = .ok (bytes, behind) ↔
      bytes.length = length ∧ unread = bytes ++ behind.unread ∧ behind.ending = ending := by
  constructor
  · intro h
    unfold read at h
    dsimp only at h
    split at h
    · next hlength =>
      cases h
      exact ⟨hlength, (List.take_append_drop length unread).symm, rfl⟩
    · split at h <;> cases h
  · rintro ⟨hlength, rfl, rfl⟩
    exact read_append behind.ending hlength

/-- A payload is read exactly if a packet with it stands in front, of version 3 and of a length that a
packet can have, 7 to 65535 bytes with its header. The second byte of the header may be anything. -/
theorem readPacket_eq_ok_iff {unread payload : Bytes} {ending : Option IoFailure} {behind : Stream} :
    readPacket { unread, ending } = .ok (payload, behind) ↔
      ∃ reserved, unread = Iso.framed reserved payload ++ behind.unread ∧ behind.ending = ending ∧
        Iso.Packet.minLength ≤ Iso.Packet.headerLength + payload.length ∧
        Iso.Packet.headerLength + payload.length ≤ Iso.Packet.maxLength := by
  constructor
  · intro h
    simp only [readPacket, except_bind_eq_ok_iff, mapError_eq_ok_iff] at h
    obtain ⟨⟨header, middle⟩, hheader, length, hannounced, hpayload⟩ := h
    obtain ⟨-, rfl, rfl⟩ := read_eq_ok_iff.mp hheader
    obtain ⟨rfl, hunread, hending⟩ := read_eq_ok_iff.mp hpayload
    obtain ⟨reserved, length₁, length₀, rfl, hmin, hlength⟩ :=
      Iso.Packet.payloadLength_eq_ok_iff.mp hannounced
    refine ⟨reserved, ?_, hending, hlength ▸ hmin, ?_⟩
    · rw [Iso.framed_of_word reserved hlength, hunread]
      rfl
    · rw [hlength]
      exact Nat.le_of_lt_succ (word length₁ length₀).toNat_lt
  · rintro ⟨reserved, rfl, rfl, hmin, hmax⟩
    exact readPacket_framed reserved behind.unread behind.ending hmin hmax

/-- A message is read exactly if it arrives (`Iso.Arrives`): in data units of which the last is
marked, at most 64 of them. The bytes behind the last are left for the next message. -/
theorem readMessage_eq_ok_iff {unread message : Bytes} {ending : Option IoFailure} {behind : Stream} :
    readMessage Iso.maxFragments { unread, ending } = .ok (message, behind) ↔
      Iso.Arrives ending unread (.ok (message, behind.unread)) ∧ behind.ending = ending := by
  constructor
  · intro h
    obtain ⟨result, harrives⟩ := Iso.exists_arrives ending unread
    rw [readMessage_arrives harrives] at h
    cases result with
    | error e => cases h
    | ok read =>
      cases h
      exact ⟨harrives, rfl⟩
  · rintro ⟨harrives, rfl⟩
    exact readMessage_arrives harrives

end Stream

/-! ## Answers to a setup -/

namespace Pdu

/-- The parameters that hold a setup; the byte behind the function has no meaning. -/
def Setup.spell (setup : Setup) (reserved : UInt8) : Bytes :=
  [functionCode, reserved] ++ wordBytes setup.callerJobs ++ wordBytes setup.calleeJobs ++
    wordBytes setup.pduLength

/-- A setup is found in parameters exactly if they begin with it and it gives messages some length.
Whatever comes behind the eight bytes is passed over. -/
theorem Setup.decodeParameters_eq_ok_iff {parameters : Bytes} {setup : Setup} :
    decodeParameters parameters = .ok setup ↔
      setup.pduLength ≠ 0 ∧ ∃ reserved more, parameters = setup.spell reserved ++ more := by
  constructor
  · intro h
    unfold decodeParameters at h
    split at h
    · next function reserved caller₁ caller₀ callee₁ callee₀ length₁ length₀ more =>
      split at h
      · cases h
      · next hfunction =>
        obtain rfl := not_not.mp hfunction
        dsimp only at h
        split at h
        · cases h
        · next hlength =>
          cases h
          refine ⟨hlength, reserved, more, ?_⟩
          rw [spell, wordBytes_word, wordBytes_word, wordBytes_word]
          rfl
    · cases h
  · rintro ⟨hlength, reserved, more, rfl⟩
    simp only [spell, wordBytes, List.cons_append, List.nil_append, decodeParameters,
      word_wordBytes, ne_eq, not_true, if_false]
    exact if_neg hlength

/-- A message agrees to a setup, for a request with some reference: it is an acknowledgment with data
and without a report, its parameters begin with the setup, its blocks are as long as declared, and the
setup gives messages some length. -/
structure Agrees (message : Bytes) (reference : UInt16) (setup : Setup) : Prop where
  /-- The message is put together of its header and its blocks. -/
  blocks : ∃ (header : Header) (reserved₁ reserved₀ reserved : UInt8) (more data behind : Bytes),
    header.kind = .ackData ∧ header.report = ⟨0, 0⟩ ∧ header.reference = reference ∧
      message = header.spell reserved₁ reserved₀ ++
        (setup.spell reserved ++ more ++ data ++ behind) ∧
      (setup.spell reserved ++ more).length = header.parameterLength.toNat ∧
      data.length = header.dataLength.toNat
  /-- Messages can be sent. -/
  pduLength : setup.pduLength ≠ 0

/-- What agrees to a setup is as long as the shortest answer, 20 bytes: 12 of the header and 8 of the
parameters. So the length, which is looked at first, is no condition of its own. -/
theorem Agrees.length_le {message : Bytes} {reference : UInt16} {setup : Setup}
    (h : Agrees message reference setup) :
    ackHeaderLength + Setup.parameterLength ≤ message.length := by
  obtain ⟨header, reserved₁, reserved₀, reserved, more, data, behind, hkind, -, -, rfl, -, -⟩ :=
    h.blocks
  have hack : header.kind.isAck = true := Header.isAck_of_ackData hkind
  have hheader : (header.spell reserved₁ reserved₀).length = ackHeaderLength := by
    simp [Header.spell, hack, wordBytes, ackHeaderLength]
  have hsetup : (setup.spell reserved).length = Setup.parameterLength := rfl
  simp only [List.length_append, hheader, hsetup]
  omega

end Pdu

/-! ## What gets through

Sending a packet either carries all of it, or fails behind some beginning of it. A failure in the
first packet and one in the second are told together by `Undertaken`, of the packets up to the one
that failed.
-/

/-- An attempt to connect ends well exactly if there is a connection that can be used. -/
theorem Attempt.outcome_eq_ok_iff {attempt : Attempt} {address : String} :
    attempt.outcome address = .ok () ↔ attempt = .taken := by
  cases attempt <;> simp [Attempt.outcome]

namespace Passage

/-- Sending a packet ends well exactly if all of it gets through. -/
theorem outcome_eq_ok_iff {passage : Passage} : passage.outcome = .ok () ↔ passage = .whole := by
  cases passage <;> simp [outcome]

/-- What gets through of a packet is its beginning. -/
theorem through_prefix (passage : Passage) (packet : Bytes) : passage.through packet <+: packet := by
  cases passage with
  | whole => exact List.prefix_refl _
  | broken length failure => exact List.take_prefix _ _
  | stalled length => exact List.take_prefix _ _

end Passage

namespace Network

variable {σ : Type} {before middle after : Network σ} {packets later : List Bytes}

/-- Between two moments packets were sent, and got through as a whole. -/
structure Carried (before : Network σ) (packets : List Bytes) (after : Network σ) : Prop where
  /-- The packets were sent. -/
  sent : after.sent = before.sent ++ packets
  /-- Their bytes have got through. -/
  wire : after.wire = before.wire ++ packets.flatten

/-- Between two moments packets were to be sent, and nothing else has got through but a beginning of
their bytes. -/
structure Undertaken (before : Network σ) (packets : List Bytes) (after : Network σ) : Prop where
  /-- The packets were to be sent. -/
  sent : after.sent = before.sent ++ packets
  /-- No more than their bytes has got through. -/
  wire : ∃ bytes, bytes <+: packets.flatten ∧ after.wire = before.wire ++ bytes

/-- Where nothing was to be sent, nothing has got through. -/
theorem Undertaken.nil (hsent : after.sent = before.sent) (hwire : after.wire = before.wire) :
    before.Undertaken [] after :=
  ⟨hsent.trans (List.append_nil _).symm, [], List.prefix_refl _,
    hwire.trans (List.append_nil _).symm⟩

/-- Packets get through behind others: both in a row, if the former all did. -/
theorem Carried.trans (h : before.Carried packets middle) (h' : middle.Carried later after) :
    before.Carried (packets ++ later) after := by
  constructor
  · rw [h'.sent, h.sent, List.append_assoc]
  · rw [h'.wire, h.wire, List.append_assoc, List.flatten_append]

/-- Packets are to be sent behind others that have got through: all are to be sent then, and nothing
has got through but a beginning of their bytes, which has those of the former in it. -/
theorem Carried.trans_undertaken (h : before.Carried packets middle)
    (h' : middle.Undertaken later after) : before.Undertaken (packets ++ later) after := by
  obtain ⟨hsent, bytes, hbytes, hwire⟩ := h'
  refine ⟨?_, packets.flatten ++ bytes, ?_, ?_⟩
  · rw [hsent, h.sent, List.append_assoc]
  · rw [List.flatten_append]
    exact (List.prefix_append_right_inj _).mpr hbytes
  · rw [hwire, h.wire, List.append_assoc]

end Network

namespace Peer

variable {σ : Type} {peer : Peer σ} {packet : Bytes} {stream stream' : Stream}
  {network network' : Network σ}

/-- Of a packet that is sent, no more gets through than it has. -/
theorem undertaken_send (peer : Peer σ) (packet : Bytes) (stream : Stream) (network : Network σ) :
    network.Undertaken [packet] (peer.send packet stream network).2 := by
  let passage := (peer.receive packet network.peer).1.passage
  refine ⟨rfl, passage.through packet, ?_, rfl⟩
  rw [List.flatten_singleton]
  exact passage.through_prefix packet

/-- A packet that is sent without an error gets through. -/
theorem carried_of_send (h : peer.send packet stream network = (.ok stream', network')) :
    network.Carried [packet] network' := by
  obtain ⟨hsending, rfl⟩ := Prod.mk.inj h
  have hwhole : (peer.receive packet network.peer).1.passage = .whole := by
    refine Passage.outcome_eq_ok_iff.mp ?_
    cases houtcome : (peer.receive packet network.peer).1.passage.outcome with
    | ok => rfl
    | error e =>
      rw [houtcome] at hsending
      cases hsending
  refine ⟨rfl, ?_⟩
  rw [List.flatten_singleton]
  dsimp only
  rw [hwhole]
  rfl

end Peer

namespace Station

/-- A setup is accepted exactly if the answer agrees to it. The two sides differ in order: the setup
is found first, and the reference is looked at afterwards, in a header that is decoded a second time.
-/
theorem acceptSetup_eq_ok_iff {message : Bytes} {reference : UInt16} {setup : Pdu.Setup} :
    acceptSetup message reference = .ok setup ↔ Pdu.Agrees message reference setup := by
  constructor
  · intro h
    simp only [acceptSetup, except_bind_eq_ok_iff, mapError_eq_ok_iff] at h
    obtain ⟨_, hresponse, ⟨header, body⟩, hagain, _, hreference, hend⟩ := h
    cases hend
    simp only [Pdu.Setup.decodeResponse, except_bind_eq_ok_iff, mapError_eq_ok_iff,
      guard_eq_ok_iff] at hresponse
    obtain ⟨-, _, hdecode, hkind, _, hreport, ⟨parameters, data⟩, hblocks, _, hparameters, hend⟩ :=
      hresponse
    -- the header that is decoded again is the one that was decoded
    obtain rfl := Except.ok.inj (hdecode.symm.trans hagain)
    cases hend
    have hkind := not_not.mp hkind
    obtain ⟨reserved₁, reserved₀, behind, hmessage⟩ :=
      (Pdu.Header.opened_iff hkind).mp ⟨body, hdecode, hblocks⟩
    obtain ⟨hpdu, reserved, more, rfl⟩ := Pdu.Setup.decodeParameters_eq_ok_iff.mp hparameters
    exact ⟨⟨header, reserved₁, reserved₀, reserved, more, data, behind, hkind,
      Pdu.Header.requireNoReport_eq_ok_iff.mp hreport,
      Pdu.Header.requireReference_eq_ok_iff.mp hreference, hmessage⟩, hpdu⟩
  · intro h
    -- what agrees is long enough for the check that is made first
    have hlong := h.length_le
    obtain ⟨⟨header, reserved₁, reserved₀, reserved, more, data, behind, hkind, hreport, hreference,
      hmessage⟩, hpdu⟩ := h
    obtain ⟨body, hdecode, hblocks⟩ :=
      (Pdu.Header.opened_iff hkind).mpr ⟨reserved₁, reserved₀, behind, hmessage⟩
    have hsetup : Pdu.Setup.decodeParameters (setup.spell reserved ++ more) = .ok setup :=
      Pdu.Setup.decodeParameters_eq_ok_iff.mpr ⟨hpdu, reserved, more, rfl⟩
    have hresponse : Pdu.Setup.decodeResponse message = .ok (header, setup) := by
      simp only [Pdu.Setup.decodeResponse, except_bind_eq_ok_iff, mapError_eq_ok_iff,
        guard_eq_ok_iff]
      exact ⟨Nat.not_lt.mpr hlong, _, hdecode, not_not.mpr hkind, (),
        Pdu.Header.requireNoReport_eq_ok_iff.mpr hreport, _, hblocks, _, hsetup, rfl⟩
    simp only [acceptSetup, except_bind_eq_ok_iff, mapError_eq_ok_iff]
    exact ⟨_, hresponse, _, hdecode, (), Pdu.Header.requireReference_eq_ok_iff.mpr hreference, rfl⟩

/-- **What is wrong with an answer to a setup is a fault of the negotiation**, whichever of the checks
finds it. One of them would report a fault of the framing, the second decoding of the header; but it
decodes what has been decoded before, and so it does not fail. -/
theorem negotiation_of_acceptSetup (message : Bytes) (reference : UInt16) :
    FailsWith (fun fault => ∃ cause, fault = .negotiation cause) (acceptSetup message reference) := by
  have hnegotiation {ε α : Type} (lift : ε → NegotiationError) (result : Except ε α) :
      FailsWith (fun fault => ∃ cause, fault = Fault.negotiation cause)
        (result.mapError fun e => .negotiation (lift e)) :=
    FailsWith.mapError (Q := fun _ => True) (fun _ _ => trivial) fun cause _ => ⟨lift cause, rfl⟩
  unfold acceptSetup
  refine (hnegotiation id _).bind fun _ hresponse => ?_
  -- the header was decoded already
  have hdecoded : ∃ decoded, Pdu.Header.decode message = .ok decoded := by
    simp only [mapError_eq_ok_iff, Pdu.Setup.decodeResponse, except_bind_eq_ok_iff,
      guard_eq_ok_iff] at hresponse
    obtain ⟨-, decoded, hdecode, -⟩ := hresponse
    exact ⟨decoded, hdecode⟩
  obtain ⟨decoded, hdecode⟩ := hdecoded
  rw [hdecode]
  refine FailsWith.bind (.ok decoded) fun _ _ => ?_
  exact (hnegotiation .malformed _).bind fun _ _ => .ok _

/-! ## Opening and agreeing

The two halves are stated as relations and not as tests, because what arrives is split into a part
that is used and one that is left, and there is a split for each success.
-/

variable {σ : Type} {peer : Peer σ}

/-- The packet that asks for a connection. -/
def connectionPacket (options : Options) : Bytes :=
  Iso.connectionRequest options.localAccess options.remoteAccess

/-- The packet that proposes a setup. -/
def setupPacket (options : Options) (reference : UInt16) : Bytes :=
  Iso.framed 0
    ([2, Iso.dataCode, 0x80] ++ (Pdu.Setup.proposal options.pduLength).encode reference)

/-- A connection is opened: the other end takes it in time and it can be set to send packets without
delay, the request gets through, and what arrives for it begins with a packet that confirms it. -/
inductive Opens (peer : Peer σ) (options : Options) (network : Network σ) :
    Stream → Network σ → Prop where
  /-- Something may have arrived behind the confirmation. -/
  | confirmed {state : σ} {opened behind : Stream} {asked : Network σ} {reserved : UInt8}
      {confirm : Bytes} :
    peer.accept options.socketAddress options.connectTimeout options.exchangeTimeout network.peer =
      (.taken, state) →
    peer.send (connectionPacket options) .fresh { network with peer := state } =
      (.ok opened, asked) →
    opened.unread = Iso.framed reserved confirm ++ behind.unread → behind.ending = opened.ending →
    Iso.Packet.headerLength + confirm.length ≤ Iso.Packet.maxLength → Iso.Confirms confirm →
    Opens peer options network behind asked

/-- A setup is agreed on, over an open connection: the proposal gets through, and the message that
arrives for it agrees to the setup. -/
inductive Negotiates (peer : Peer σ) (options : Options) (reference : UInt16) (stream : Stream)
    (network : Network σ) : Pdu.Setup → Stream → Network σ → Prop where
  /-- Something may have arrived behind the message. -/
  | agreed {answered behind : Stream} {asked : Network σ} {message : Bytes} {setup : Pdu.Setup} :
    peer.send (setupPacket options reference) stream network = (.ok answered, asked) →
    Iso.Arrives answered.ending answered.unread (.ok (message, behind.unread)) →
    behind.ending = answered.ending → Pdu.Agrees message reference setup →
    Negotiates peer options reference stream network setup behind asked

variable {options : Options} {network asked : Network σ}

/-- Where there is no connection that can be used, nothing is sent, and the error is the outcome of
the attempt: a failure, or that the time is up, with the address. -/
theorem openStream_of_unaccepted {attempt : Attempt} {state : σ} {e : TransportError}
    (haccept : peer.accept options.socketAddress options.connectTimeout options.exchangeTimeout
      network.peer = (attempt, state))
    (h : attempt.outcome options.socketAddress = .error e) :
    openStream peer options network = (.error e, { network with peer := state }) := by
  rw [openStream, haccept]
  dsimp only
  rw [h]

/-- What is made of a connection that is taken: the request is sent, the first packet that arrives is
read, and it is looked at whether that confirms the connection. What stands behind it is left on the
connection. -/
theorem openStream_of_accept {state : σ}
    (h : peer.accept options.socketAddress options.connectTimeout options.exchangeTimeout
      network.peer = (.taken, state)) :
    let here := peer.send (connectionPacket options) .fresh { network with peer := state }
    openStream peer options network =
      (here.1 >>= fun stream => stream.readPacket >>= fun read =>
        (Iso.checkConfirm read.1).mapError .packet >>= fun _ => .ok read.2, here.2) := by
  rw [openStream, h]
  rfl

/-- A connection is opened exactly as `Opens` says, with the connection and the network that it ends
with. -/
theorem openStream_eq_ok_iff {stream : Stream} :
    openStream peer options network = (.ok stream, asked) ↔
      Opens peer options network stream asked := by
  constructor
  · intro h
    rcases haccept : peer.accept options.socketAddress options.connectTimeout
      options.exchangeTimeout network.peer with ⟨attempt, state⟩
    -- without a connection there is an error, and nothing else
    cases houtcome : attempt.outcome options.socketAddress with
    | error e =>
      rw [openStream_of_unaccepted haccept houtcome] at h
      cases h
    | ok =>
      obtain rfl := Attempt.outcome_eq_ok_iff.mp houtcome
      rw [openStream_of_accept haccept] at h
      rcases hsend : peer.send (connectionPacket options) .fresh { network with peer := state } with
        ⟨sending, asked'⟩
      rw [hsend] at h
      obtain ⟨hconfirmed, rfl⟩ := Prod.mk.inj h
      simp only [except_bind_eq_ok_iff, mapError_eq_ok_iff] at hconfirmed
      -- the request got through, a packet was read, and it confirms the connection
      obtain ⟨opened, rfl, ⟨confirm, behind⟩, hread, _, hconfirm, hend⟩ := hconfirmed
      cases hend
      obtain ⟨reserved, hunread, hending, -, hmax⟩ := Stream.readPacket_eq_ok_iff.mp hread
      exact .confirmed haccept hsend hunread hending hmax (Iso.checkConfirm_eq_ok_iff.mp hconfirm)
  · rintro ⟨haccept, hsend, hunread, hending, hmax, hconfirms⟩
    next state opened reserved confirm =>
    have hmin : Iso.Packet.minLength ≤ Iso.Packet.headerLength + confirm.length :=
      Nat.le_trans hconfirms.1 (Nat.le_add_left _ _)
    have hread : opened.readPacket = .ok (confirm, stream) :=
      Stream.readPacket_eq_ok_iff.mpr ⟨reserved, hunread, hending, hmin, hmax⟩
    rw [openStream_of_accept haccept, hsend]
    change (opened.readPacket >>= _, _) = _
    rw [hread]
    change (((Iso.checkConfirm confirm).mapError _ >>= _), _) = _
    rw [Iso.checkConfirm_eq_ok_iff.mpr hconfirms]
    rfl

/-- To open a connection takes the request for it. -/
theorem Opens.carried {stream : Stream} (h : Opens peer options network stream asked) :
    network.Carried [connectionPacket options] asked := by
  obtain ⟨-, hsend, -⟩ := h
  have hcarried := Peer.carried_of_send hsend
  exact ⟨hcarried.sent, hcarried.wire⟩

/-- Until a connection has been opened, no more than the request for it is sent, and no more of it
gets through than it has; if there is no connection, nothing is sent. -/
theorem undertaken_openStream (peer : Peer σ) (options : Options) (network : Network σ) :
    ∃ packets, packets <+: [connectionPacket options] ∧
      network.Undertaken packets (openStream peer options network).2 := by
  rcases haccept : peer.accept options.socketAddress options.connectTimeout
    options.exchangeTimeout network.peer with ⟨attempt, state⟩
  cases houtcome : attempt.outcome options.socketAddress with
  | error e =>
    refine ⟨[], List.nil_prefix, ?_⟩
    rw [openStream_of_unaccepted haccept houtcome]
    exact .nil rfl rfl
  | ok =>
    obtain rfl := Attempt.outcome_eq_ok_iff.mp houtcome
    refine ⟨_, List.prefix_refl _, ?_⟩
    have hsends := peer.undertaken_send (connectionPacket options) .fresh
      { network with peer := state }
    rw [openStream_of_accept haccept]
    exact ⟨hsends.sent, hsends.wire⟩

/-- The proposal of a setup fits a packet. -/
theorem wrapData_proposal (options : Options) (reference : UInt16) :
    Iso.wrapData ((Pdu.Setup.proposal options.pduLength).encode reference) =
      .ok (setupPacket options reference) :=
  have hlength : ((Pdu.Setup.proposal options.pduLength).encode reference).length = 18 := rfl
  Iso.wrapData_eq_ok (hlength ▸ by decide)

/-- What a session becomes when a setup is agreed on. -/
def agreed (session : Session) (setup : Pdu.Setup) (stream : Stream) : Session :=
  { session with
      stream? := some stream, state := .ready, fault? := none, pduLength := setup.pduLength
      parallelJobs := setup.calleeJobs, reference := Session.following session.reference }

section Negotiate

variable {session : Session} {stream : Stream}

/-- What is made of an open connection. The proposal has the next reference, and is sent as a packet,
which always exists; if the reply is an error, that is the fault, and if it is a message, it is
accepted as the answer or is a fault of the negotiation. The reference is used up in any case. -/
theorem negotiate_eq (peer : Peer σ) (session : Session) (stream : Stream) (network : Network σ) :
    let here := facing session stream network
    let reference := Session.following session.reference
    let packet := setupPacket session.options reference
    let asked := peer.behind packet (stream, network)
    negotiate peer here =
      match peer.reply packet (stream, network) with
      | .error e => .error (.transport e) { session := here.session.advance, network := asked }
      | .ok (response, stream) =>
        match acceptSetup response reference with
        | .error fault => .error fault
          { session := here.session.advance.hold stream, network := asked }
        | .ok setup => .ok () { session := agreed session setup stream, network := asked } := by
  intro here reference packet asked
  let advanced : Station σ := { here with session := here.session.advance }
  have hstream : advanced.session.stream? = some stream := rfl
  -- the proposal is sent by a session that is not ready yet, and so it does not go through an
  -- exchange
  have hround : peer.roundTrip ((Pdu.Setup.proposal here.session.advance.options.pduLength).encode
      here.session.advance.reference) stream advanced.network =
        (peer.reply packet (stream, network), asked) :=
    roundTrip_of_wrapData stream advanced.network (wrapData_proposal _ _)
  unfold negotiate
  dsimp only
  rw [roundTrip_of_some hstream, hround]
  cases peer.reply packet (stream, network) with
  | error e => rfl
  | ok read =>
    obtain ⟨response, behind⟩ := read
    have hreference : (advanced.session.hold behind).reference = reference := rfl
    dsimp only
    rw [hreference]
    cases acceptSetup response reference <;> rfl

/-- A setup is agreed on exactly as `Negotiates` says, and the session has it then: its length of
messages, its number of jobs, and the connection behind the answer. -/
theorem negotiate_eq_ok_iff {after : Station σ} :
    negotiate peer (facing session stream network) = .ok () after ↔
      ∃ setup behind asked,
        Negotiates peer session.options (Session.following session.reference) stream network setup
          behind asked ∧
        after = { session := agreed session setup behind, network := asked } := by
  have hnegotiate := negotiate_eq peer session stream network
  constructor
  · intro h
    rw [hnegotiate] at h
    split at h
    · cases h
    · next message behind hread =>
      split at h
      · cases h
      · next setup haccept =>
        cases h
        obtain ⟨answered, hsend, hread⟩ := except_bind_eq_ok_iff.mp hread
        obtain ⟨harrives, hending⟩ := Stream.readMessage_eq_ok_iff.mp hread
        have hagrees := acceptSetup_eq_ok_iff.mp haccept
        exact ⟨setup, behind, _, .agreed (Prod.ext hsend rfl) harrives hending hagrees, rfl⟩
  · rintro ⟨setup, behind, asked, ⟨hsend, harrives, hending, hagrees⟩, rfl⟩
    next answered message =>
    have hread : answered.readMessage Iso.maxFragments = .ok (message, behind) :=
      Stream.readMessage_eq_ok_iff.mpr ⟨harrives, hending⟩
    have hreply : peer.reply (setupPacket session.options (Session.following session.reference))
        (stream, network) = .ok (message, behind) := by
      rw [Peer.reply, hsend]
      exact hread
    rw [hnegotiate, hreply, Peer.behind, hsend]
    dsimp only
    rw [acceptSetup_eq_ok_iff.mpr hagrees]

/-- What is agreed on takes the proposal. -/
theorem Negotiates.carried {reference : UInt16} {setup : Pdu.Setup} {behind : Stream}
    (h : Negotiates peer options reference stream network setup behind asked) :
    network.Carried [setupPacket options reference] asked := by
  obtain ⟨hsend, -⟩ := h
  exact Peer.carried_of_send hsend

/-- A negotiation that fails was to send the proposal, and fails with a fault of the transport or of
the negotiation. -/
theorem of_negotiate_error {fault : Fault} {after : Station σ}
    (h : negotiate peer (facing session stream network) = .error fault after) :
    ((∃ cause, fault = .transport cause) ∨ ∃ cause, fault = .negotiation cause) ∧
      network.Undertaken [setupPacket session.options (Session.following session.reference)]
        after.network := by
  have hsends := peer.undertaken_send
    (setupPacket session.options (Session.following session.reference)) stream network
  rw [negotiate_eq] at h
  split at h
  · next cause _ =>
    cases h
    exact ⟨.inl ⟨cause, rfl⟩, hsends⟩
  · split at h
    · next haccept =>
      cases h
      exact ⟨.inr (negotiation_of_acceptSetup _ _ _ haccept), hsends⟩
    · cases h

end Negotiate

/-! ## Connecting -/

/-- The packets that it takes to connect a session. -/
def connectPackets (session : Session) : List Bytes :=
  [connectionPacket session.options,
    setupPacket session.options (Session.following session.reference)]

/-- A session and the other end go through a handshake: a connection is opened, and a setup is agreed
on over it. -/
def Handshake (peer : Peer σ) (st : Station σ) (setup : Pdu.Setup) (stream : Stream)
    (network : Network σ) : Prop :=
  ∃ opened asked, Opens peer st.session.options st.network opened asked ∧
    Negotiates peer st.session.options (Session.following st.session.reference) opened asked setup
      stream network

/-- A handshake takes its packets. -/
theorem Handshake.carried {st : Station σ} {setup : Pdu.Setup} {stream : Stream}
    {network : Network σ} (h : Handshake peer st setup stream network) :
    st.network.Carried (connectPackets st.session) network := by
  obtain ⟨opened, asked, hopens, hnegotiates⟩ := h
  exact hopens.carried.trans hnegotiates.carried

section Connect

variable {st after : Station σ}

/-- A session is connected exactly by a handshake: `connect peer st = .ok () after` if and only if
there is a `Handshake`, after which the session and the network are those of `after`. From left to
right each half is inverted, from right to left each is run. -/
theorem connect_eq_ok_iff :
    connect peer st = .ok () after ↔
      ∃ setup stream network, Handshake peer st setup stream network ∧
        after = { session := agreed st.session setup stream, network } := by
  constructor
  · intro h
    rcases hopen : openStream peer st.session.options st.network with ⟨cause | opened, asked⟩
    · rw [connect_of_unopened hopen] at h
      cases h
    · rw [connect_of_opened hopen] at h
      split at h
      · next hnegotiate =>
        cases h
        obtain ⟨setup, stream, network, hnegotiates, rfl⟩ := negotiate_eq_ok_iff.mp hnegotiate
        have hopens := openStream_eq_ok_iff.mp hopen
        exact ⟨setup, stream, network, ⟨opened, asked, hopens, hnegotiates⟩, rfl⟩
      · cases h
  · rintro ⟨setup, stream, network, ⟨opened, asked, hopens, hnegotiates⟩, rfl⟩
    have hnegotiate : negotiate peer (facing st.session opened asked) = .ok () _ :=
      negotiate_eq_ok_iff.mpr ⟨setup, stream, network, hnegotiates, rfl⟩
    rw [connect_of_opened (openStream_eq_ok_iff.mpr hopens), hnegotiate]

/-- To connect fails with a fault of the transport or of the negotiation, for which the session is
given up, and no more has been sent than what it takes to connect. -/
theorem of_connect_error {e : Error} (h : connect peer st = .error e after) :
    ∃ fault packets, e = fault.error ∧
      ((∃ cause, fault = .transport cause) ∨ ∃ cause, fault = .negotiation cause) ∧
      after.session.GivenUp fault ∧ packets <+: connectPackets st.session ∧
      st.network.Undertaken packets after.network := by
  obtain ⟨packets, hpackets, hsends⟩ := undertaken_openStream peer st.session.options st.network
  rcases hopen : openStream peer st.session.options st.network with ⟨cause | opened, asked⟩
  · rw [connect_of_unopened hopen] at h
    cases h
    rw [hopen] at hsends
    exact ⟨_, packets, rfl, .inl ⟨cause, rfl⟩, Session.givenUp_markFaulted _ _,
      hpackets.trans ⟨_, rfl⟩, hsends⟩
  · rw [connect_of_opened hopen] at h
    split at h
    · cases h
    · next fault after' hnegotiate =>
      cases h
      obtain ⟨hfault, hproposed⟩ := of_negotiate_error hnegotiate
      have hopens := openStream_eq_ok_iff.mp hopen
      exact ⟨fault, connectPackets st.session, rfl, hfault, Session.givenUp_markFaulted _ _,
        List.prefix_refl _, hopens.carried.trans_undertaken hproposed⟩

end Connect

/-- **A session is connected exactly by a handshake.** Whatever the session has been through, and
whatever the other end does, connecting succeeds exactly if there is a `Handshake`:

* the other end takes the connection in time (`Opens`), and the request for it gets through;
* the first packet that arrives is of version 3, with at least 7 bytes in it of which the second is
  that of a confirmation (`Iso.Confirms`);
* the proposal of a setup gets through, and the message that arrives for it, in up to 64 fragments,
  agrees to a setup (`Pdu.Agrees`): an acknowledgment with data, error class and code zero, the
  reference of the proposal, blocks as long as declared, and parameters that begin with function F0
  and a setup of at least 8 bytes with `pduLength ≠ 0`.

Then the session is ready, the length of messages and the number of jobs are those of the setup, and
what has been sent is the request for the connection and the proposal, as a whole. In every other
case the session is given up for the fault with which connecting has failed, and that is one of the
transport or of the negotiation; and nothing was to be sent but the two packets, or the first of them,
or none, and nothing has got through but a beginning of their bytes. -/
theorem connect_course (peer : Peer σ) (st : Station σ) :
    let (outcome, after) := (connect peer).outcome st
    (outcome = .ok () ↔ ∃ setup stream network, Handshake peer st setup stream network) ∧
      (∀ setup stream network, Handshake peer st setup stream network →
        after.session = agreed st.session setup stream ∧
          st.network.Carried (connectPackets st.session) after.network) ∧
      ((¬ ∃ setup stream network, Handshake peer st setup stream network) →
        ∃ fault packets, outcome = .error fault.error ∧
          ((∃ cause, fault = .transport cause) ∨ ∃ cause, fault = .negotiation cause) ∧
          after.session.GivenUp fault ∧ packets <+: connectPackets st.session ∧
          st.network.Undertaken packets after.network) := by
  cases hconnect : connect peer st with
  | ok value after =>
    obtain ⟨setup, stream, network, hhandshake, rfl⟩ := connect_eq_ok_iff.mp hconnect
    rw [outcome_of_ok hconnect]
    refine ⟨iff_of_true rfl ⟨setup, stream, network, hhandshake⟩, fun setup' stream' network' h => ?_,
      fun hnone => absurd ⟨setup, stream, network, hhandshake⟩ hnone⟩
    -- a handshake that is given is the one that there was, as connecting has one outcome
    have hsame := hconnect.symm.trans (connect_eq_ok_iff.mpr ⟨setup', stream', network', h, rfl⟩)
    obtain ⟨-, hafter⟩ := EStateM.Result.ok.inj hsame
    rw [hafter]
    exact ⟨rfl, h.carried⟩
  | error e after =>
    have hnone : ¬ ∃ setup stream network, Handshake peer st setup stream network := by
      rintro ⟨setup, stream, network, h⟩
      cases hconnect.symm.trans (connect_eq_ok_iff.mpr ⟨setup, stream, network, h, rfl⟩)
    rw [outcome_of_error hconnect]
    obtain ⟨fault, packets, rfl, hfault⟩ := of_connect_error hconnect
    exact ⟨iff_of_false nofun hnone,
      fun setup stream network h => absurd ⟨setup, stream, network, h⟩ hnone,
      fun _ => ⟨fault, packets, rfl, hfault⟩⟩

/-- With a controller that agrees on messages of 240 bytes there is a handshake. -/
example :
    let st : Station (List Reply) :=
      { session := { options := .ofFamily "plc" .s71500 }
        network := { peer := greeting 240, sent := [] } }
    ∃ setup stream network, Handshake scripted st setup stream network ∧ setup.pduLength = 240 := by
  intro st
  have hconnect : ∃ after, connect scripted st = .ok () after ∧ after.session.pduLength = 240 :=
    ⟨_, rfl, rfl⟩
  obtain ⟨_, hafter, hlength⟩ := hconnect
  obtain ⟨setup, stream, network, hhandshake, rfl⟩ := connect_eq_ok_iff.mp hafter
  exact ⟨setup, stream, network, hhandshake, hlength⟩

end Station

end S7Comm
