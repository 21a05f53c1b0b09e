import S7Comm.Proofs.Conversation
import S7Comm.Proofs.Fragments

/-!
# Whatever arrives

A message in fragments is put together (`Stream.readMessage_fragmented`). This module says what
becomes of everything else that can arrive in its place, so that no stream of bytes is left out.

* `Iso.Breaks ending bytes e`: bytes that do not begin with a fragment, on a connection that has come
  to an end or not, and the error they are met with. In front of every packet there are the same ways
  to go wrong: another version, a length that is too short for the headers, a payload that is no data
  unit (`Iso.Spoilt`), and an end or a stall in the header or behind it. What the header of a packet
  says is looked at before the packet is waited for; so a packet of another version, or one that
  claims to be too short for its headers, is refused even where the bytes of it are missing.
* `Iso.fragment_or_breaks`: what does not break is a fragment.
* `Iso.Arrives ending bytes result`: a message in fragments with anything behind it; or `maxFragments`
  fragments without a last one; or some fragments in front of a place at which the stream breaks. One
  of these it is (`Iso.exists_arrives`), by induction on the fragments that are read.

**Main result** (`Station.reassembly`): what has arrived decides the outcome of an exchange, and what
becomes of the session.
-/

namespace S7Comm

open Call

namespace Iso

/-! ## Places at which a stream breaks

The constructors are described by the bytes alone, so that it can be seen that they exclude each other
and what is missing among them. That nothing is missing is `fragment_or_breaks`.
-/

/-- A payload that is no data unit, and what it is met with. -/
inductive Spoilt : Bytes → PacketError → Prop where
  /-- The other end takes leave. -/
  | leave (length : UInt8) (rest : Bytes) :
    Spoilt (length :: disconnectRequestCode :: rest) .disconnected
  /-- The unit is of another kind. -/
  | foreign {code : UInt8} (length : UInt8) (rest : Bytes) :
    code ≠ disconnectRequestCode → code ≠ dataCode → Spoilt (length :: code :: rest) .badFormat
  /-- The header of the unit is too short to have a mark. -/
  | unmarked {length : UInt8} (rest : Bytes) :
    length.toNat < 2 → Spoilt (length :: dataCode :: rest) .tooShort
  /-- The unit is shorter than its header. -/
  | overlong {length : UInt8} {rest : Bytes} :
    rest.length + 1 < length.toNat → Spoilt (length :: dataCode :: rest) .tooShort

/-- What a reader is met with who waits for more than will come: the end to which the connection has
come, or the end of its own patience. -/
def starved (ending : Option IoFailure) : TransportError :=
  match ending with
  | some failure => .io failure
  | none => .timeout

/-- Bytes that do not begin with a fragment, on a connection that has come to an end or not, and what
they are met with. -/
inductive Breaks (ending : Option IoFailure) : Bytes → TransportError → Prop where
  /-- A packet of another version. -/
  | version {found : UInt8} (reserved length₁ length₀ : UInt8) (rest : Bytes) :
    found ≠ Packet.version →
    Breaks ending (found :: reserved :: length₁ :: length₀ :: rest) (.packet .badFormat)
  /-- A packet that is too short for its headers. -/
  | short {length₁ length₀ : UInt8} (reserved : UInt8) (rest : Bytes) :
    (word length₁ length₀).toNat < Packet.minLength →
    Breaks ending (Packet.version :: reserved :: length₁ :: length₀ :: rest) (.packet .tooShort)
  /-- A packet around something that is no data unit. -/
  | spoilt {payload : Bytes} {e : PacketError} (reserved : UInt8) (rest : Bytes) :
    Packet.minLength ≤ Packet.headerLength + payload.length →
    Packet.headerLength + payload.length ≤ Packet.maxLength → Spoilt payload e →
    Breaks ending (framed reserved payload ++ rest) (.packet e)
  /-- The stream ends or stalls in front of a packet, or in its header. -/
  | cutHeader {bytes : Bytes} : bytes.length < Packet.headerLength →
    Breaks ending bytes (starved ending)
  /-- The stream ends or stalls in a packet. -/
  | cutPayload {length₁ length₀ : UInt8} {part : Bytes} (reserved : UInt8) :
    Packet.minLength ≤ (word length₁ length₀).toNat →
    Packet.headerLength + part.length < (word length₁ length₀).toNat →
    Breaks ending (Packet.version :: reserved :: length₁ :: length₀ :: part) (starved ending)

/-- What is no data unit is not taken for one. -/
theorem unwrapData_spoilt {payload : Bytes} {e : PacketError} (h : Spoilt payload e) :
    unwrapData payload = .error e := by
  unfold unwrapData
  cases h with
  | leave length rest => rfl
  | foreign length rest hleave hdata =>
    dsimp only
    rw [if_neg hleave, if_pos hdata]
  | unmarked rest hshort =>
    cases rest with
    | nil => rfl
    | cons mark rest => exact if_pos (Or.inl (Nat.succ_lt_succ hshort))
  | @overlong length rest hlong =>
    cases rest with
    | nil => rfl
    | cons mark rest => exact if_pos (Or.inr (Nat.succ_lt_succ hlong))

/-- Two bytes that spell the length of a packet are those that its header has. -/
theorem framed_of_word {length₁ length₀ : UInt8} {payload : Bytes} (reserved : UInt8)
    (h : Packet.headerLength + payload.length = (word length₁ length₀).toNat) :
    framed reserved payload = Packet.version :: reserved :: length₁ :: length₀ :: payload := by
  rw [framed, h, UInt16.ofNat_toNat, wordBytes_word]
  rfl

/-- A payload is that of a fragment, or it is spoilt. -/
theorem fragment_or_spoilt {payload : Bytes} (reserved : UInt8)
    (hmin : Packet.minLength ≤ Packet.headerLength + payload.length)
    (hmax : Packet.headerLength + payload.length ≤ Packet.maxLength) :
    (∃ f : Fragment, framed reserved payload = f.encode) ∨ ∃ e, Spoilt payload e := by
  match payload with
  | [] | [_] | [_, _] => simp [Packet.minLength, Packet.headerLength] at hmin
  | length :: code :: mark :: rest =>
    by_cases hleave : code = disconnectRequestCode
    · subst hleave
      exact .inr ⟨_, .leave length (mark :: rest)⟩
    by_cases hdata : code = dataCode
    · subst hdata
      by_cases hshort : length.toNat < 2
      · exact .inr ⟨_, .unmarked (mark :: rest) hshort⟩
      by_cases hlong : (mark :: rest).length + 1 < length.toNat
      · exact .inr ⟨_, .overlong hlong⟩
      -- the header of the unit ends in what is there
      have hrest : length.toNat - 2 ≤ rest.length := by
        rw [List.length_cons] at hlong
        omega
      have hextra : 2 + (rest.take (length.toNat - 2)).length = length.toNat := by
        rw [List.length_take]
        omega
      let f : Fragment :=
        { reserved, mark
          extra := rest.take (length.toNat - 2)
          data := rest.drop (length.toNat - 2)
          declared := Nat.le_trans (Nat.le_of_eq hextra) (Nat.le_of_lt_succ length.toNat_lt)
          packed := by
            refine Nat.le_trans (Nat.le_of_eq ?_) hmax
            simp only [List.length_take, List.length_drop, List.length_cons]
            omega }
      have hpayload : f.payload = length :: dataCode :: mark :: rest := by
        show UInt8.ofNat (2 + (rest.take (length.toNat - 2)).length) :: dataCode :: mark ::
          (rest.take (length.toNat - 2) ++ rest.drop (length.toNat - 2)) = _
        rw [hextra, UInt8.ofNat_toNat, List.take_append_drop]
      exact .inl ⟨f, congrArg (framed reserved) hpayload.symm⟩
    · exact .inr ⟨_, .foreign length (mark :: rest) hleave hdata⟩

/-- Bytes begin with a fragment, or they break. -/
theorem fragment_or_breaks (ending : Option IoFailure) (bytes : Bytes) :
    (∃ (f : Fragment) (behind : Bytes), bytes = f.encode ++ behind) ∨ ∃ e, Breaks ending bytes e := by
  match bytes with
  | [] | [_] | [_, _] | [_, _, _] => exact .inr ⟨_, .cutHeader (by simp [Packet.headerLength])⟩
  | found :: reserved :: length₁ :: length₀ :: rest =>
    by_cases hversion : found = Packet.version
    · subst hversion
      by_cases hshort : (word length₁ length₀).toNat < Packet.minLength
      · exact .inr ⟨_, .short reserved rest hshort⟩
      have hmin := Nat.not_lt.mp hshort
      by_cases hcut : Packet.headerLength + rest.length < (word length₁ length₀).toNat
      · exact .inr ⟨_, .cutPayload reserved hmin hcut⟩
      -- all of the packet is there
      let length := (word length₁ length₀).toNat - Packet.headerLength
      have hlength : Packet.headerLength + (rest.take length).length =
          (word length₁ length₀).toNat := by
        simp only [length, List.length_take, Packet.headerLength, Packet.minLength] at hmin hcut ⊢
        omega
      have hmax : Packet.headerLength + (rest.take length).length ≤ Packet.maxLength :=
        Nat.le_trans (Nat.le_of_eq hlength) (Nat.le_of_lt_succ (word length₁ length₀).toNat_lt)
      have hbytes : Packet.version :: reserved :: length₁ :: length₀ :: rest =
          framed reserved (rest.take length) ++ rest.drop length := by
        rw [framed_of_word reserved hlength]
        simp only [List.cons_append, List.take_append_drop]
      rw [← hlength] at hmin
      rw [hbytes]
      rcases fragment_or_spoilt reserved hmin hmax with ⟨f, hf⟩ | ⟨e, hspoilt⟩
      · exact .inl ⟨f, _, congrArg (· ++ rest.drop length) hf⟩
      · exact .inr ⟨_, .spoilt reserved _ hmin hmax hspoilt⟩
    · exact .inr ⟨_, .version reserved length₁ length₀ rest hversion⟩

/-! ## What can arrive -/

/-- What can arrive behind a request, on a connection that has come to an end or not, and what
becomes of it: an error, or a message and the bytes behind it. -/
inductive Arrives (ending : Option IoFailure) : Bytes → Except TransportError (Bytes × Bytes) → Prop where
  /-- A message in fragments, and something behind it. -/
  | message (m : Fragmented) (behind : Bytes) :
    Arrives ending (m.bytes ++ behind) (.ok (m.message, behind))
  /-- As many fragments as are put together, none of them the last. -/
  | endless {front : List Fragment} (behind : Bytes) :
    (∀ f ∈ front, f.isLast = false) → front.length = maxFragments →
    Arrives ending (front.flatMap Fragment.encode ++ behind) (.error (.packet .tooManyFragments))
  /-- Fragments that are not the last, not too many of them, in front of a place at which the stream
  breaks. -/
  | broken {front : List Fragment} {bytes : Bytes} {e : TransportError} :
    (∀ f ∈ front, f.isLast = false) → front.length < maxFragments → Breaks ending bytes e →
    Arrives ending (front.flatMap Fragment.encode ++ bytes) (.error e)

/-- Up to some number of fragments that are not the last stand in front; and if there are fewer, then
what is behind them is the last, or breaks. -/
theorem exists_front (ending : Option IoFailure) (patience : Nat) (bytes : Bytes) :
    ∃ (front : List Fragment) (behind : Bytes), bytes = front.flatMap Fragment.encode ++ behind ∧
      (∀ f ∈ front, f.isLast = false) ∧
      (front.length = patience ∨ front.length < patience ∧
        ((∃ (f : Fragment) (rest : Bytes), f.isLast = true ∧ behind = f.encode ++ rest) ∨
          ∃ e, Breaks ending behind e)) := by
  induction patience generalizing bytes with
  | zero => exact ⟨[], bytes, rfl, List.forall_mem_nil _, .inl rfl⟩
  | succ patience ih =>
    rcases fragment_or_breaks ending bytes with ⟨f, behind, rfl⟩ | hbreaks
    · cases hlast : f.isLast with
      | true =>
        exact ⟨[], _, rfl, List.forall_mem_nil _, .inr ⟨Nat.succ_pos _, .inl ⟨f, behind, hlast, rfl⟩⟩⟩
      | false =>
        obtain ⟨front, rest, rfl, hfront, hend⟩ := ih behind
        refine ⟨f :: front, rest, (List.append_assoc _ _ _).symm,
          List.forall_mem_cons.mpr ⟨hlast, hfront⟩, ?_⟩
        exact hend.imp (congrArg Nat.succ) (And.imp_left Nat.succ_lt_succ)
    · exact ⟨[], bytes, rfl, List.forall_mem_nil _, .inr ⟨Nat.succ_pos _, .inr hbreaks⟩⟩

/-- Whatever arrives is one of these. -/
theorem exists_arrives (ending : Option IoFailure) (bytes : Bytes) : ∃ result, Arrives ending bytes result := by
  obtain ⟨front, behind, rfl, hfront, hcount | ⟨hcount, hend⟩⟩ :=
    exists_front ending maxFragments bytes
  · exact ⟨_, .endless behind hfront hcount⟩
  rcases hend with ⟨f, rest, hlast, rfl⟩ | ⟨e, hbreaks⟩
  · let m : Fragmented :=
      { front, last := f, unmarked := hfront, marked := hlast, bounded := hcount }
    refine ⟨.ok (m.message, rest), ?_⟩
    rw [← List.append_assoc]
    exact .message m rest
  · exact ⟨_, .broken hfront hcount hbreaks⟩

end Iso

/-! ## What a reader makes of it -/

namespace Stream

/-- Who waits for more bytes than there are is starved. -/
theorem read_starved {bytes : Bytes} {length : Nat} (ending : Option IoFailure) (h : bytes.length < length) :
    read length { unread := bytes, ending } = .error (Iso.starved ending) := by
  have hshort : (bytes.take length).length ≠ length := by
    rw [List.length_take]
    omega
  unfold read Iso.starved
  dsimp only
  rw [if_neg hshort]
  split <;> rfl

/-- A packet with a header that announces nothing is not waited for. -/
theorem readPacket_of_header (header behind : Bytes) {e : PacketError} (ending : Option IoFailure)
    (hlength : header.length = Iso.Packet.headerLength)
    (h : Iso.Packet.payloadLength header = .error e) :
    readPacket { unread := header ++ behind, ending } = .error (.packet e) := by
  rw [readPacket_append header behind ending hlength, h]
  rfl

theorem readMessage_of_readPacket {stream : Stream} {e : TransportError}
    (h : readPacket stream = .error e) (patience : Nat) :
    readMessage (patience + 1) stream = .error e := by
  rw [readMessage, h]
  rfl

/-- Where the stream breaks, the error is reported. -/
theorem readMessage_breaks {bytes : Bytes} {ending : Option IoFailure} {e : TransportError}
    (h : Iso.Breaks ending bytes e) (patience : Nat) :
    readMessage (patience + 1) { unread := bytes, ending } = .error e := by
  cases h with
  -- what the header says is refused before the rest of the packet is waited for
  | version reserved length₁ length₀ rest hversion =>
    refine readMessage_of_readPacket ?_ patience
    exact readPacket_of_header [_, _, _, _] rest ending rfl (if_pos hversion)
  | short reserved rest hshort =>
    refine readMessage_of_readPacket ?_ patience
    refine readPacket_of_header [_, _, _, _] rest ending rfl ?_
    exact (Iso.payloadLength_of_version _ _ _).trans (if_pos hshort)
  | spoilt reserved rest hmin hmax hspoilt =>
    rw [readMessage, readPacket_framed reserved rest ending hmin hmax]
    change ((Iso.unwrapData _).mapError _ >>= _) = _
    rw [Iso.unwrapData_spoilt hspoilt]
    rfl
  -- here the reader waits in vain, for the header or for what it announces
  | cutHeader hcut =>
    refine readMessage_of_readPacket ?_ patience
    rw [readPacket, read_starved ending hcut]
    rfl
  | @cutPayload length₁ length₀ part reserved hmin hcut =>
    have hlength : Iso.Packet.payloadLength [Iso.Packet.version, reserved, length₁, length₀] =
        .ok ((word length₁ length₀).toNat - Iso.Packet.headerLength) :=
      (Iso.payloadLength_of_version _ _ _).trans (if_neg (Nat.not_lt.mpr hmin))
    refine readMessage_of_readPacket ?_ patience
    refine (readPacket_append [_, _, _, _] part ending rfl).trans ?_
    rw [hlength]
    exact read_starved ending (Nat.lt_sub_iff_add_lt'.mpr hcut)

/-- What is made of what has arrived is what becomes of it. -/
theorem readMessage_arrives {bytes : Bytes} {ending : Option IoFailure}
    {result : Except TransportError (Bytes × Bytes)} (h : Iso.Arrives ending bytes result) :
    readMessage Iso.maxFragments { unread := bytes, ending } =
      result.map fun read => (read.1, { unread := read.2, ending }) := by
  cases h with
  | message m behind => exact readMessage_fragmented m behind ending
  | endless behind hfront hcount =>
    have hread := readMessage_front hfront 0 behind ending
    rw [Nat.add_zero, hcount] at hread
    rw [hread, readMessage]
    rfl
  | broken hfront hcount hbreaks =>
    obtain ⟨patience, hpatience⟩ := Nat.exists_eq_add_of_lt hcount
    rw [hpatience, Nat.add_assoc, readMessage_front hfront, readMessage_breaks hbreaks]
    rfl

end Stream

namespace Station

variable {σ : Type}

/-! ## Exchanges -/

/-- **What has arrived decides an exchange.** Let a request be sent on a session that is ready on a
connection.

* If it does not get through, the exchange ends with the error that it met, and the session is
  faulted.
* If it does, and a message in fragments has arrived by then (`Iso.Fragmented`: 1 to 64 packets of
  version 3 around data units, with headers of any length, of which only the last is marked), the
  exchange ends with the data of the fragments, one behind the other, and the session is ready with
  the bytes behind them unread. So it is for every message of at most 65528 bytes that is wrapped as a
  client does it, in one fragment.
* In any other case, which is that of 64 fragments without a mark (`.tooManyFragments`) or of a place
  at which the stream breaks (`Iso.Breaks`), the exchange ends with the error that belongs to it, and
  the session is faulted.

There is no further case: `Iso.Arrives ending unread result` for some `result`, whatever is unread. -/
theorem reassembly (peer : Peer σ) {st : Station σ} {stream : Stream} {request packet : Bytes}
    (hready : st.session.ReadyOn stream) (hwrap : Iso.wrapData request = .ok packet) :
    let (sending, network) := peer.send packet stream st.network
    let faulted (e : TransportError) : Station σ :=
      { session := st.session.markFaulted (.transport e), network }
    (∀ e, sending = .error e → exchange peer request st = .error (.transport e) (faulted e)) ∧
    ∀ arrived, sending = .ok arrived →
      let ready (unread : Bytes) : Station σ :=
        { session := st.session.hold { arrived with unread }, network }
      (∀ result, Iso.Arrives arrived.ending arrived.unread result →
        match result with
        | .ok (message, behind) => exchange peer request st = .ok message (ready behind)
        | .error e => exchange peer request st = .error (.transport e) (faulted e)) ∧
      (∃ result, Iso.Arrives arrived.ending arrived.unread result) ∧
      ∀ message : Bytes, message.length ≤ 65528 →
        ∃ answer, Iso.wrapData message = .ok answer ∧
          ∀ behind, arrived.unread = answer ++ behind →
            exchange peer request st = .ok message (ready behind) := by
  rcases hsend : peer.send packet stream st.network with ⟨sending, network⟩
  dsimp only
  have hreply : peer.reply packet (stream, st.network) =
      sending >>= fun stream => stream.readMessage Iso.maxFragments := by
    rw [Peer.reply, hsend]
  have hbehind : peer.behind packet (stream, st.network) = network := by
    rw [Peer.behind, hsend]
  subst hbehind
  constructor
  · rintro e rfl
    exact exchange_of_unanswered hready hwrap hreply
  rintro arrived rfl
  -- what has arrived is one of the cases, and each has one outcome
  have hends : ∀ result, Iso.Arrives arrived.ending arrived.unread result →
      match result with
      | .ok (message, behind) => exchange peer request st = .ok message
          { session := st.session.hold { arrived with unread := behind }
            network := peer.behind packet (stream, st.network) }
      | .error e => exchange peer request st = .error (.transport e)
          { session := st.session.markFaulted (.transport e)
            network := peer.behind packet (stream, st.network) } := by
    intro result harrives
    have hread := hreply.trans (Stream.readMessage_arrives harrives)
    cases result with
    | ok read => exact exchange_of_answered hready hwrap hread
    | error e => exact exchange_of_unanswered hready hwrap hread
  refine ⟨hends, Iso.exists_arrives _ _, fun message hlength => ?_⟩
  refine ⟨_, Iso.wrapData_eq_ok hlength, fun behind hunread => ?_⟩
  -- a packet as a client sends it is a message in one fragment
  refine hends (.ok (message, behind)) ?_
  rw [hunread]
  exact .message (.whole message hlength) behind

/-- Two bytes in three fragments, of which the first has further bytes in its header and the second
has no data, and the beginning of another packet behind them. -/
theorem reassembly_behind :
    let first : Bytes := [3, 7, 0, 10, 4, 0xF0, 0x05, 0xEE, 0xEE, 0x11]
    let second : Bytes := [3, 0, 0, 7, 2, 0xF0, 0x00]
    let third : Bytes := [3, 0, 0, 8, 2, 0xF0, 0xFF, 0x22]
    let here := greeted 240 [{ bytes := first ++ second ++ third ++ [3, 0] }]
    here.session.ReadyOn .fresh ∧
      ∃ after, exchange scripted [0x32] here = .ok [0x11, 0x22] after ∧
        after.session.ReadyOn { unread := [3, 0] } := by
  intro first second third here
  let m : Iso.Fragmented :=
    { front :=
        [{ reserved := 7, mark := 0x05, extra := [0xEE, 0xEE], data := [0x11]
           declared := by decide, packed := by decide },
          { reserved := 0, mark := 0x00, extra := [], data := []
            declared := by decide, packed := by decide }]
      last := { reserved := 0, mark := 0xFF, extra := [], data := [0x22]
                declared := by decide, packed := by decide }
      unmarked := by decide
      marked := by decide
      bounded := by decide }
  have hready : here.session.ReadyOn .fresh := ⟨by decide, by decide⟩
  have hwrap : Iso.wrapData [0x32] = .ok [3, 0, 0, 8, 2, 0xF0, 0x80, 0x32] := by decide
  have harrives : Iso.Arrives none (first ++ second ++ third ++ [3, 0])
      (.ok ([0x11, 0x22], [3, 0])) := by
    have hbytes : first ++ second ++ third = m.bytes := by decide
    rw [hbytes]
    exact .message m [3, 0]
  obtain ⟨hends, -⟩ := (reassembly scripted hready hwrap).2 _ rfl
  exact ⟨hready, _, hends _ harrives, hready.state, rfl⟩

end Station

end S7Comm
