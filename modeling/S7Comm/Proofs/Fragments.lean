import S7Comm.Session.Exchange
import S7Comm.Proofs.Composition

/-!
# Messages in fragments

A controller may send a message in several data units, each in a packet of its own.

* `Iso.Fragment`: one unit with the packet around it, as free as a reader lets it be. The reserved
  byte of the packet, further bytes in the header of the unit, and the lower seven bits of its mark
  may be anything; the two lengths have to be such as can be told.
* `Iso.Fragmented`: a message cut into 1 to `maxFragments` units, of which the last one and no other
  is marked as the last. `bytes` is what arrives, and `message` the data of all units.
* **Main result** (`Stream.readMessage_fragmented`): a reader of `m.bytes ++ behind` finds `m.message`
  and leaves `behind`, for every `m` and whether or not the connection has come to an end.
* `Iso.wrapData_eq_ok`: what a client sends is a message in a single fragment, if it has at most 65528
  bytes.

What becomes of bytes that are no message in fragments is the matter of `S7Comm.Proofs.Reassembly`.
-/

namespace S7Comm

open Call

namespace Iso

/-! ## Packets -/

/-- A payload in a packet whose header announces it. -/
def framed (reserved : UInt8) (payload : Bytes) : Bytes :=
  [Packet.version, reserved] ++ wordBytes (UInt16.ofNat (Packet.headerLength + payload.length)) ++
    payload

theorem payloadLength_of_version (reserved length₁ length₀ : UInt8) :
    Packet.payloadLength [Packet.version, reserved, length₁, length₀] =
      if (word length₁ length₀).toNat < Packet.minLength then .error .tooShort
      else .ok ((word length₁ length₀).toNat - Packet.headerLength) := by
  rw [Packet.payloadLength]
  exact if_neg (not_not_intro rfl)

/-- If the packet has a length that is allowed and can be told, its header announces the payload. -/
theorem payloadLength_framed {payload : Bytes} (reserved : UInt8)
    (hmin : Packet.minLength ≤ Packet.headerLength + payload.length)
    (hmax : Packet.headerLength + payload.length ≤ Packet.maxLength) :
    Packet.payloadLength ([Packet.version, reserved] ++
      wordBytes (UInt16.ofNat (Packet.headerLength + payload.length))) = .ok payload.length := by
  have hlength : (UInt16.ofNat (Packet.headerLength + payload.length)).toNat =
      Packet.headerLength + payload.length := by
    simp only [Packet.maxLength] at hmax
    simp
    omega
  refine (payloadLength_of_version reserved _ _).trans ?_
  rw [word_wordBytes, hlength, if_neg (Nat.not_lt.mpr hmin), Nat.add_sub_cancel_left]

/-! ## Fragments -/

/-- A data unit in its packet. -/
structure Fragment where
  /-- The reserved byte of the packet. -/
  reserved : UInt8
  /-- The byte with the mark of the last unit. -/
  mark : UInt8
  /-- What the header of the unit has behind the mark. -/
  extra : Bytes
  /-- The data. -/
  data : Bytes
  /-- The length of the header can be told. -/
  declared : 2 + extra.length ≤ 255
  /-- The length of the packet can be told. -/
  packed : Packet.headerLength + (3 + extra.length + data.length) ≤ Packet.maxLength

namespace Fragment

/-- Whether the unit is marked as the last of its message. -/
def isLast (f : Fragment) : Bool :=
  f.mark &&& 0x80 != 0

/-- The bytes of the unit. -/
def payload (f : Fragment) : Bytes :=
  [UInt8.ofNat (2 + f.extra.length), dataCode, f.mark] ++ f.extra ++ f.data

/-- The header of the packet. -/
def header (f : Fragment) : Bytes :=
  [Packet.version, f.reserved] ++
    wordBytes (UInt16.ofNat (Packet.headerLength + f.payload.length))

/-- The bytes of the packet. -/
def encode (f : Fragment) : Bytes :=
  f.header ++ f.payload

theorem length_payload (f : Fragment) : f.payload.length = 3 + f.extra.length + f.data.length := by
  simp only [payload, List.length_append, List.length_cons, List.length_nil]

/-- The length of the packet is allowed and can be told. -/
theorem length_packet (f : Fragment) :
    Packet.minLength ≤ Packet.headerLength + f.payload.length ∧
      Packet.headerLength + f.payload.length ≤ Packet.maxLength := by
  have hpacked := f.packed
  rw [← length_payload] at hpacked
  refine ⟨?_, hpacked⟩
  rw [length_payload]
  simp only [Packet.minLength, Packet.headerLength]
  omega

/-- The unit is unwrapped to its mark and its data. -/
theorem unwrapData_payload (f : Fragment) : unwrapData f.payload = .ok (f.isLast, f.data) := by
  have hdeclared := f.declared
  have hlength : (UInt8.ofNat (2 + f.extra.length)).toNat = 2 + f.extra.length := by
    simp
    omega
  have hbehind : f.payload.drop (2 + f.extra.length + 1) = f.data := by
    show List.drop (2 + f.extra.length + 1) (_ ++ f.data) = f.data
    rw [List.drop_append_of_le_length]
    · simp
      omega
    · simp
      omega
  have hpayload := f.length_payload
  show (if (UInt8.ofNat (2 + f.extra.length)).toNat + 1 < dataHeaderLength ∨
      f.payload.length < (UInt8.ofNat (2 + f.extra.length)).toNat + 1 then
        Except.error PacketError.tooShort
    else Except.ok (f.isLast, f.payload.drop ((UInt8.ofNat (2 + f.extra.length)).toNat + 1))) = _
  rw [hlength, hbehind, if_neg]
  simp only [dataHeaderLength]
  omega

end Fragment

/-! ## Messages -/

/-- A message in fragments: any number that a reader puts together, one of them the last. -/
structure Fragmented where
  /-- The fragments in front of the last. -/
  front : List Fragment
  /-- The last one. -/
  last : Fragment
  /-- The ones in front are not marked as the last. -/
  unmarked : ∀ f ∈ front, f.isLast = false
  /-- The last one is. -/
  marked : last.isLast = true
  /-- There are not too many. -/
  bounded : front.length < maxFragments

namespace Fragmented

/-- The bytes of all packets. -/
def bytes (m : Fragmented) : Bytes :=
  m.front.flatMap Fragment.encode ++ m.last.encode

/-- The message. -/
def message (m : Fragmented) : Bytes :=
  m.front.flatMap Fragment.data ++ m.last.data

end Fragmented

/-! ## What a client sends -/

/-- A message of at most 65528 bytes, in a single fragment. -/
def Fragment.whole (message : Bytes) (h : message.length ≤ 65528) : Fragment where
  reserved := 0
  mark := 0x80
  extra := []
  data := message
  declared := by decide
  packed := by
    simp only [Packet.headerLength, Packet.maxLength, List.length_nil]
    omega

/-- A message in one fragment is a message in fragments. -/
def Fragmented.whole (message : Bytes) (h : message.length ≤ 65528) : Fragmented where
  front := []
  last := .whole message h
  unmarked f hf := absurd hf List.not_mem_nil
  marked := by
    change ((0x80 : UInt8) &&& 0x80 != 0) = true
    decide
  bounded := by decide

/-- A client wraps a message into a single fragment. -/
theorem wrapData_eq_ok {message : Bytes} (h : message.length ≤ 65528) :
    wrapData message = .ok (Fragment.whole message h).encode := by
  have hshort : ¬ Packet.headerLength + ([2, dataCode, 0x80] ++ message).length >
      Packet.maxLength := by
    simp [Packet.headerLength, Packet.maxLength]
    omega
  unfold wrapData Packet.encode
  dsimp only
  rw [if_neg hshort]
  rfl

end Iso

/-! ## What a reader makes of it

A fragment that is not the last puts its data in front of what is read next, and leaves one fragment
fewer to be read (`readMessage_unmarked`). With that the message is an induction on the fragments in
front.
-/

namespace Stream

theorem read_append {bytes behind : Bytes} {length : Nat} (ending : Option IoFailure)
    (h : bytes.length = length) :
    read length { unread := bytes ++ behind, ending } =
      .ok (bytes, { unread := behind, ending }) := by
  subst h
  unfold read
  dsimp only
  rw [List.take_left, List.drop_left, if_pos rfl]

/-- Of a packet the header is read first, and then as much as it announces. -/
theorem readPacket_append (header behind : Bytes) (ending : Option IoFailure)
    (h : header.length = Iso.Packet.headerLength) :
    readPacket { unread := header ++ behind, ending } =
      (Iso.Packet.payloadLength header).mapError .packet >>= fun length =>
        read length { unread := behind, ending } := by
  rw [readPacket, read_append ending h]
  rfl

/-- A packet is taken from the stream as a whole. -/
theorem readPacket_framed {payload : Bytes} (reserved : UInt8) (behind : Bytes) (ending : Option IoFailure)
    (hmin : Iso.Packet.minLength ≤ Iso.Packet.headerLength + payload.length)
    (hmax : Iso.Packet.headerLength + payload.length ≤ Iso.Packet.maxLength) :
    readPacket { unread := Iso.framed reserved payload ++ behind, ending } =
      .ok (payload, { unread := behind, ending }) := by
  rw [Iso.framed, List.append_assoc, readPacket_append _ _ ending rfl,
    Iso.payloadLength_framed reserved hmin hmax]
  exact read_append ending rfl

theorem readPacket_fragment (f : Iso.Fragment) (behind : Bytes) (ending : Option IoFailure) :
    readPacket { unread := f.encode ++ behind, ending } =
      .ok (f.payload, { unread := behind, ending }) :=
  readPacket_framed f.reserved behind ending f.length_packet.1 f.length_packet.2

/-- A fragment that is not the last is put in front of the rest of its message, and takes one unit of
the reader's patience. -/
theorem readMessage_unmarked {f : Iso.Fragment} (hf : f.isLast = false) (fragments : Nat)
    (behind : Bytes) (ending : Option IoFailure) :
    readMessage (fragments + 1) { unread := f.encode ++ behind, ending } =
      (readMessage fragments { unread := behind, ending }).map
        fun result => (f.data ++ result.1, result.2) := by
  rw [readMessage, readPacket_fragment]
  change ((Iso.unwrapData f.payload).mapError _ >>= _) = _
  rw [f.unwrapData_payload]
  change (if f.isLast = true then _ else _) = _
  rw [hf, if_neg Bool.false_ne_true]
  cases readMessage fragments { unread := behind, ending } <;> rfl

/-- So are all fragments in front of the last, as long as the patience lasts. -/
theorem readMessage_front {front : List Iso.Fragment} (hfront : ∀ f ∈ front, f.isLast = false)
    (fragments : Nat) (behind : Bytes) (ending : Option IoFailure) :
    readMessage (front.length + fragments)
        { unread := front.flatMap Iso.Fragment.encode ++ behind, ending } =
      (readMessage fragments { unread := behind, ending }).map
        fun result => (front.flatMap Iso.Fragment.data ++ result.1, result.2) := by
  induction front with
  | nil =>
    rw [List.length_nil, Nat.zero_add]
    cases hread : readMessage fragments { unread := behind, ending } <;> exact hread
  | cons f front ih =>
    rw [List.length_cons, Nat.add_right_comm, List.flatMap_cons, List.append_assoc,
      readMessage_unmarked (hfront f List.mem_cons_self),
      ih fun f hf => hfront f (List.mem_cons_of_mem _ hf), List.flatMap_cons]
    cases readMessage fragments { unread := behind, ending } with
    | error e => rfl
    | ok result => exact congrArg Except.ok (Prod.ext (List.append_assoc _ _ _).symm rfl)

/-- The last fragment ends its message. -/
theorem readMessage_marked {f : Iso.Fragment} (hf : f.isLast = true) (fragments : Nat)
    (behind : Bytes) (ending : Option IoFailure) :
    readMessage (fragments + 1) { unread := f.encode ++ behind, ending } =
      .ok (f.data, { unread := behind, ending }) := by
  rw [readMessage, readPacket_fragment]
  change ((Iso.unwrapData f.payload).mapError _ >>= _) = _
  rw [f.unwrapData_payload]
  change (if f.isLast = true then _ else _) = _
  rw [if_pos hf]
  rfl

/-- A reader puts a message in fragments together, and leaves alone what has arrived behind it. -/
theorem readMessage_fragmented (m : Iso.Fragmented) (behind : Bytes) (ending : Option IoFailure) :
    readMessage Iso.maxFragments { unread := m.bytes ++ behind, ending } =
      .ok (m.message, { unread := behind, ending }) := by
  obtain ⟨patience, hpatience⟩ := Nat.exists_eq_add_of_lt m.bounded
  rw [hpatience, Nat.add_assoc, Iso.Fragmented.bytes, List.append_assoc,
    readMessage_front m.unmarked, readMessage_marked m.marked]
  rfl

end Stream

end S7Comm
