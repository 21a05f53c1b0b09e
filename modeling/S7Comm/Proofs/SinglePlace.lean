import S7Comm.Proofs.AddressGrammar
import S7Comm.Proofs.Counting
import S7Comm.Proofs.Plan

/-!
# One value, written in two ways

A value for one place (`Entry`) can be written at once, by the command for values of its kind
(`Entry.command`), or by way of a list: the list is begun, the value is added, and the list is written
(`Client.writeListed`). The payload is the same, since the list is begun with the client's order of
bytes.

**Where the two agree.** For a bit, and in areas of bytes, it is one and the same call, if the payload
fits one message: what is sent, what is made of the answer and the errors are the same
(`Client.perform_eq_writeListed`).

**Where they differ.** What is added for timers and counters is called bytes, where the direct
commands call it octets, and an odd number of bytes, which the direct commands refuse as parts of
elements, can be added. The places are the same, and of the request three bytes are not: the transport
size, and the length in its unit (`Request.message_write_singleton`).

**Main result** (`Station.listed_and_direct`). A payload that does not fit one message is left out: a
range is cut into pieces, and an item of a list is too large then. `Station.listed_timer_differs`
shows the difference in two bytes for a timer.
-/

namespace S7Comm

open Call

/-! ## Values and places -/

/-- A value for one place. -/
inductive Entry where
  /-- A bit. -/
  | bit (value : Bool)
  /-- A byte. -/
  | byte (value : UInt8)
  /-- Bytes. -/
  | bytes (value : Bytes)
  /-- A number. -/
  | number (type : NumberType) (value : type.Value)

namespace Entry

/-- Whether the value is a bit. A bit is one in every area, whereas the other values are bytes, which
timers and counters have as elements. -/
def isBit : Entry → Bool
  | .bit _ => true
  | _ => false

/-- The bytes of the value: one byte for a bit, `Numeric.encode order value` for a number, and bytes
as they are. -/
def payload (order : ByteOrder) : Entry → Bytes
  | .bit value => [if value then 1 else 0]
  | .byte value => [value]
  | .bytes value => value
  | .number _ value => Numeric.encode order value

/-- The data of a list with the value. -/
def data (order : ByteOrder) (entry : Entry) : DataItem :=
  if entry.isBit then .ofPayload .bit (entry.payload order) else .ofBytes (entry.payload order)

/-- The item for the value at an address. -/
def item (order : ByteOrder) (address : Address) (entry : Entry) : Except ArgumentError StandardItem :=
  if entry.isBit then .ok (.single address)
  else StandardItem.bytes address (UInt16.ofNat (entry.payload order).length)

/-- The command that writes the value. -/
def command (address : String) : Entry → Command
  | .bit value => .writeBit address value
  | .byte value => .writeByte address value
  | .bytes value => .writeBytes address value
  | .number type value => .writeNumber type address value

/-- Add the value to a list. -/
def add (list : WriteList) (address : String) : Entry → Except Error WriteList
  | .bit value => list.addBit address value
  | .byte value => list.addNumber address value
  | .bytes value => list.addBytes address value
  | .number _ value => list.addNumber address value

variable {entry : Entry}

theorem payload_data (order : ByteOrder) (entry : Entry) :
    (entry.data order).payload = entry.payload order := by
  unfold data
  split <;> rfl

/-- A byte is its own code. -/
theorem encode_byte (order : ByteOrder) (value : UInt8) : Numeric.encode order value = [value] := by
  have hcode : bigEndian 1 value.toNat = [value] := by
    simp [bigEndian]
  show order.arrange (bigEndian 1 value.toNat) = [value]
  rw [hcode]
  cases order <;> rfl

/-- What is not a bit is added as the bytes of its payload, in the order of bytes of the list. So all
that is to be known of adding numbers is known of adding bytes. -/
theorem add_eq_addBytes (h : entry.isBit = false) (list : WriteList) (address : String) :
    entry.add list address = list.addBytes address (entry.payload list.byteOrder) := by
  cases entry with
  | bit value => cases h
  | byte value => exact congrArg (list.addBytes address) (encode_byte list.byteOrder value)
  | bytes value => rfl
  | number type value => rfl

/-- What is not a bit is written as the bytes of its payload, in the order of bytes of the family.
Together with `add_eq_addBytes` this leaves two cases of the five kinds of values, bits and bytes. -/
theorem perform_eq_writeBytes {S : Type} (c : Client S) (h : entry.isBit = false)
    (text : String) :
    c.perform (entry.command text) =
      c.writeBytes text (entry.payload c.profile.byteOrder) >>= fun _ => pure Answer.nothing := by
  cases entry with
  | bit value => cases h
  | byte value | bytes value | number type value => rfl

/-- What has no address is not added. -/
theorem add_of_parse_error {text : String} {e : Error} (hparse : Address.parse text = .error e)
    (list : WriteList) : entry.add list text = .error e := by
  cases entry with
  | bit value =>
    rw [add, WriteList.addBit, hparse]
    rfl
  | byte value | number type value =>
    rw [add, WriteList.addNumber, WriteList.addBytes, hparse]
    rfl
  | bytes value =>
    rw [add, WriteList.addBytes, hparse]
    rfl

/-- What has no address is not written. -/
theorem perform_of_parse_error {S : Type} (c : Client S) {text : String} {e : Error}
    (hparse : Address.parse text = .error e) (s : S) :
    c.perform (entry.command text) s = .error e s := by
  cases hbit : entry.isBit with
  | true =>
    cases entry with
    | bit value =>
      show (c.writeBit text value >>= fun _ => pure Answer.nothing) s = _
      rw [Client.writeBit, hparse]
      rfl
    | byte value | bytes value | number type value => cases hbit
  | false =>
    rw [perform_eq_writeBytes c hbit, Client.writeBytes, hparse]
    rfl

/-- A bit is written with one item, in whatever area: `writeItem (.single address)`, with one byte
that is zero or one as the data. -/
theorem perform_bit {S : Type} (c : Client S) (h : entry.isBit = true) {text : String}
    {address : Address} (hparse : Address.parse text = .ok address) (s : S) :
    c.perform (entry.command text) s =
      (c.writeItem (.single address) (entry.data c.profile.byteOrder) >>= fun _ =>
        pure Answer.nothing) s := by
  cases entry with
  | bit value =>
    show (c.writeBit text value >>= fun _ => pure Answer.nothing) s = _
    rw [Client.writeBit, hparse]
    rfl
  | byte value | bytes value | number type value => cases h

end Entry

/-- For any number of bytes but none there is an item, in every area: `StandardItem.bytes` fails only
at `count = 0`. An odd number of them is rounded up to whole elements of a timer or a counter here,
and is refused, if it is, elsewhere. -/
theorem StandardItem.exists_bytes (address : Address) {count : UInt16} (h : count ≠ 0) :
    ∃ item, StandardItem.bytes address count = .ok item := by
  have hpos : 0 < count.toNat := by
    apply Nat.pos_of_ne_zero
    intro hzero
    exact h (UInt16.toNat_inj.mp hzero)
  have helements : elementsFor count ≠ 0 := by
    intro hzero
    have hlt := count.toNat_lt
    have hsmall : (count.toNat + 1) / 2 < 65536 := by omega
    have hnumber : (elementsFor count).toNat = 0 := by rw [hzero]; rfl
    rw [elementsFor, UInt16.toNat_ofNat_of_lt' hsmall] at hnumber
    omega
  have hmake : ∀ {type : ElementType} {count : UInt16}, count ≠ 0 →
      ∃ item, make { address with bit := 0 } type count = .ok item := by
    intro type count hcount
    have hbit : ¬ (0 : UInt8) > 7 := by decide
    exact ⟨_, by rw [make, if_neg hcount, if_neg hbit]⟩
  unfold StandardItem.bytes
  split
  · exact hmake helements
  · exact hmake helements
  · exact hmake h

/-- A value has an item for its place if its payload has 1 to 65535 bytes. Only bytes can have none,
or more. -/
theorem Entry.exists_item {order : ByteOrder} {entry : Entry} (hne : entry.payload order ≠ [])
    (hshort : (entry.payload order).length ≤ 65535) (address : Address) :
    ∃ item, entry.item order address = .ok item := by
  have hcount : UInt16.ofNat (entry.payload order).length ≠ 0 := by
    intro hzero
    have hnumber := congrArg UInt16.toNat hzero
    rw [UInt16.toNat_ofNat_of_lt' (Nat.lt_succ_of_le hshort)] at hnumber
    exact hne (List.length_eq_zero_iff.mp hnumber)
  unfold Entry.item
  split
  · exact ⟨_, rfl⟩
  · exact StandardItem.exists_bytes address hcount

/-! ## What the two ways do

Both ways end in the writing of one item. For the direct way this has to be shown, as it is the way of
ranges: bytes that fit one message are one piece (`pieces_of_le`), whose item is that of the whole.
-/

namespace Client

variable {S : Type} (c : Client S)

/-- Write a value by way of a list, which is begun for it. -/
def writeListed (address : String) (entry : Entry) : Call S Answer := do
  let list ← entry.add { byteOrder := c.profile.byteOrder } address
  c.perform (.writeMany list)

variable {c} {text : String} {address : Address} {entry : Entry} {item : StandardItem} {bytes : Bytes}
  {s : S}

/-- Some bytes, not more than can be told, have a length. -/
theorem itemLength_eq_ok (hne : bytes ≠ []) (hshort : bytes.length ≤ 65535) :
    itemLength bytes.length = .ok (UInt16.ofNat bytes.length) := by
  have hpos : bytes.length ≠ 0 := List.length_eq_zero_iff.not.mpr hne
  rw [itemLength, if_neg hpos, if_neg (Nat.not_lt.mpr hshort)]

/-- A list that was begun for some bytes has their item and their data. -/
theorem addBytes_eq_ok (list : WriteList) (hparse : Address.parse text = .ok address)
    (hne : bytes ≠ []) (hshort : bytes.length ≤ 65535)
    (hitem : StandardItem.bytes address (UInt16.ofNat bytes.length) = .ok item) :
    list.addBytes text bytes = .ok (list.add item (.ofBytes bytes)) := by
  rw [WriteList.addBytes, hparse]
  show ((itemLength bytes.length).mapError Error.invalidArgument >>= _) = _
  rw [itemLength_eq_ok hne hshort]
  show ((StandardItem.bytes address _).mapError Error.invalidArgument >>= _) = _
  rw [hitem]
  rfl

/-- By way of a list: if the payload has 1 to 65535 bytes, it is the item of the value that is
written, with the payload as bytes, or as a bit if it is one. The transport size is chosen by the kind
of the value here, not by the area of the place. -/
theorem writeListed_eq (hparse : Address.parse text = .ok address)
    (hne : entry.payload c.profile.byteOrder ≠ [])
    (hshort : (entry.payload c.profile.byteOrder).length ≤ 65535)
    (hitem : entry.item c.profile.byteOrder address = .ok item) :
    c.writeListed text entry s =
      (c.writeItem item (entry.data c.profile.byteOrder) >>= fun _ => pure Answer.nothing) s := by
  cases hbit : entry.isBit with
  | true =>
    cases entry with
    | bit value =>
      cases hitem
      rw [writeListed, Entry.add, WriteList.addBit, hparse]
      rfl
    | byte value | bytes value | number type value => cases hbit
  | false =>
    rw [Entry.item, hbit] at hitem
    rw [writeListed, Entry.add_eq_addBytes hbit, addBytes_eq_ok _ hparse hne hshort hitem,
      Entry.data, hbit]
    rfl

/-- From an address that can be made one can go on as far as an address can have bytes, `byte + offset
≤ maxByteOffset`. The bit is not kept, and area and block are. So the first piece of a range, at the
offset zero, is not at the very address (`advance_zero`), unless that has the bit zero. -/
theorem advance_of_inside (h : Address.make address.area address.block address.byte address.bit =
    .ok address) {offset : Nat} (hinside : address.byte.toNat + offset ≤ maxByteOffset) :
    address.advance offset =
      .ok { address with byte := UInt32.ofNat (address.byte.toNat + offset), bit := 0 } := by
  unfold Address.make at h
  split at h
  · cases h
  split at h
  · cases h
  have hblock := congrArg Address.block (Except.ok.inj h)
  have hsmall : address.byte.toNat + offset ≤ 4294967295 :=
    hinside.trans (by decide)
  have hbyte : (UInt32.ofNat (address.byte.toNat + offset)).toNat = address.byte.toNat + offset :=
    UInt32.toNat_ofNat_of_lt' (Nat.lt_succ_of_le hsmall)
  have hbit : ¬ (0 : UInt8) > 7 := by decide
  rw [Address.advance, Nat.min_eq_left hsmall, Address.make, if_neg hbit, hbyte,
    if_neg (Nat.not_lt.mpr hinside)]
  exact congrArg (fun block => Except.ok
    { address with block, byte := UInt32.ofNat (address.byte.toNat + offset), bit := 0 }) hblock

/-- The address at the offset zero is the address without its bit. -/
theorem advance_zero (h : Address.make address.area address.block address.byte address.bit =
    .ok address) : address.advance 0 = .ok { address with bit := 0 } := by
  have hinside : address.byte.toNat + 0 ≤ maxByteOffset := by
    unfold Address.make at h
    split at h
    · cases h
    split at h
    · cases h
    · next hbyte => exact Nat.not_lt.mp hbyte
  rw [advance_of_inside h hinside, Nat.add_zero, UInt32.ofNat_toNat]

/-- Bytes that are not longer than a piece are one piece. -/
theorem pieces_of_le {piece : Nat} (hne : bytes ≠ []) (hle : bytes.length ≤ piece) :
    pieces piece bytes = [bytes] := by
  obtain ⟨byte, rest, rfl⟩ := List.exists_cons_of_ne_nil hne
  have hrest : rest.length ≤ piece - 1 := by
    rw [List.length_cons] at hle
    omega
  rw [pieces, piecesFrom, List.take_of_length_le hrest, List.drop_of_length_le hrest, piecesFrom]
  rfl

/-- A range of one piece, `1 ≤ bytes.length ≤ piece`, is one item, and this is the one that
`StandardItem.bytes` makes for the address. It makes no difference that the item for a piece is made
for the address without its bit (`advance_zero`), as the item for some bytes drops it as well. -/
theorem rangeWrites_of_le {piece : Nat}
    (hmake : Address.make address.area address.block address.byte address.bit = .ok address)
    (hne : bytes ≠ []) (hle : bytes.length ≤ piece)
    (hitem : StandardItem.bytes address (UInt16.ofNat bytes.length) = .ok item) :
    rangeWrites address piece bytes = .ok [(.standard item, .ofBytes bytes)] := by
  have hfirst : StandardItem.bytes { address with bit := 0 } (UInt16.ofNat bytes.length) =
      .ok item := hitem
  have hpiece : pieceItem address (0 * piece, bytes.length) = .ok (.standard item) := by
    rw [pieceItem, Nat.zero_mul, advance_zero hmake]
    show (StandardItem.bytes { address with bit := 0 } _ >>= _) = _
    rw [hfirst]
    rfl
  rw [rangeWrites, pieces_of_le hne hle, List.zipIdx_cons, List.zipIdx_nil, List.mapM_cons]
  simp only [hpiece]
  rfl

/-- In an area of bytes, on a channel that is ready: if the bytes fit one message with the 28 in front
of them, `28 + bytes.length ≤ budget`, writing them is writing one item. For then they are not longer
than a piece, `writePiece budget = max 1 (budget - 28)`. -/
theorem writeBytesAt_of_fits (hready : c.channel.checkReady s = .ok ())
    (hmake : Address.make address.area address.block address.byte address.bit = .ok address)
    (harea : address.area.holdsElements = false) (hne : bytes ≠ [])
    (hfits : 28 + bytes.length ≤ (c.channel.budget s).toNat)
    (hitem : StandardItem.bytes address (UInt16.ofNat bytes.length) = .ok item) :
    c.writeBytesAt address bytes s = c.writeItem item (.ofBytes bytes) s := by
  have hensure : c.channel.ensureReady s = .ok () s := by
    rw [Channel.ensureReady, hready]
    rfl
  have hbudget : c.channel.pduBudget s = .ok (c.channel.budget s) s := rfl
  have hle : bytes.length ≤ writePiece (c.channel.budget s) := by
    rw [writePiece]
    omega
  have hnone : ¬ address.area.holdsElements = true := by
    rw [harea]
    exact Bool.false_ne_true
  rw [writeBytesAt, if_neg hnone, if_neg hne, bind_of_ok hensure, bind_of_ok hbudget,
    rangeWrites_of_le hmake hne hle hitem]
  rfl

/-- An odd number of bytes of timers or counters, which have two each, is refused, whatever the state
of the channel. The error says how many there were. -/
theorem writeBytesAt_partial (harea : address.area.holdsElements = true)
    (hodd : bytes.length % 2 = 1) :
    c.writeBytesAt address bytes s =
      .error (.invalidArgument (.partialElement bytes.length)) s := by
  rw [writeBytesAt, if_pos harea, elementWrite, if_pos hodd]
  rfl

/-- An even number of bytes of timers or counters, 2 to 65534, is written as one item, called octets.
Whether they fit a message is not looked at here, but where the item is written. -/
theorem writeBytesAt_elements (harea : address.area.holdsElements = true)
    (heven : bytes.length % 2 = 0) (hne : bytes ≠ []) (hshort : bytes.length ≤ 65535)
    (hitem : StandardItem.bytes address (UInt16.ofNat bytes.length) = .ok item) :
    c.writeBytesAt address bytes s = c.writeItem item (.ofPayload .octets bytes) s := by
  have hwhole : ¬ bytes.length % 2 = 1 := by omega
  have hwrite : elementWrite address bytes = .ok (item, .ofPayload .octets bytes) := by
    rw [elementWrite, if_neg hwhole, itemLength_eq_ok hne hshort]
    show (StandardItem.bytes address _ >>= _) = _
    rw [hitem]
    rfl
  rw [writeBytesAt, if_pos harea, hwrite]
  rfl

/-- What is not a bit is written as bytes from its address on. -/
theorem perform_eq_writeBytesAt (hbit : entry.isBit = false)
    (hparse : Address.parse text = .ok address) :
    c.perform (entry.command text) s =
      (c.writeBytesAt address (entry.payload c.profile.byteOrder) >>= fun _ =>
        pure Answer.nothing) s := by
  rw [entry.perform_eq_writeBytes c hbit, writeBytes, hparse]
  rfl

/-- **Where the two ways are one.** Of a bit in any area, and of any value in an area of bytes: if the
channel is ready and the payload fits one message, the command for the value and the list with the
value are the same call, with the same outcome and the same state after it. -/
theorem perform_eq_writeListed (hready : c.channel.checkReady s = .ok ())
    (hparse : Address.parse text = .ok address)
    (hne : entry.payload c.profile.byteOrder ≠ [])
    (hfits : 28 + (entry.payload c.profile.byteOrder).length ≤ (c.channel.budget s).toNat)
    (hsame : entry.isBit = true ∨ address.area.holdsElements = false) :
    c.perform (entry.command text) s = c.writeListed text entry s := by
  have hshort : (entry.payload c.profile.byteOrder).length ≤ 65535 := by
    have hlt := (c.channel.budget s).toNat_lt
    omega
  obtain ⟨item, hitem⟩ := entry.exists_item hne hshort address
  rw [writeListed_eq hparse hne hshort hitem]
  cases hbit : entry.isBit with
  | true =>
    rw [Entry.item, hbit] at hitem
    cases hitem
    exact entry.perform_bit c hbit hparse s
  | false =>
    have harea := hsame.resolve_left (by rw [hbit]; exact Bool.false_ne_true)
    rw [Entry.item, hbit] at hitem
    rw [perform_eq_writeBytesAt hbit hparse, Entry.data, hbit]
    apply bind_congr_left
    exact writeBytesAt_of_fits hready (Address.make_of_parse hparse) harea hne hfits hitem

end Client

/-! ## What is sent -/

/-- The request to write a payload with one item is the same for all transport sizes, but for three
bytes: `front`, which has the header and the item, a zero, the code of the size, the length of the
payload in the unit of the size as a word, and the payload. -/
theorem Request.message_write_singleton (item : StandardItem) {payload : Bytes}
    (hshort : 4 + payload.length ≤ 65535) (reference : UInt16) :
    ∃ front, ∀ size : TransportSize,
      (Request.write [(.standard item, .ofPayload size payload)]).message reference =
        .ok (front ++ [0, size.code] ++ wordBytes (size.lengthField payload.length) ++ payload) := by
  let parameters := Pdu.Access.write.parameters [.standard item]
  let front := (Pdu.requestHeader reference parameters.length (4 + payload.length)).encode ++ parameters
  refine ⟨front, fun size => ?_⟩
  have hlength : (DataItem.encodeBlock [.ofPayload size payload]).length = 4 + payload.length :=
    DataItem.length_encodeBlock _
  have hblock : DataItem.encodeBlock [.ofPayload size payload] =
      [0, size.code] ++ wordBytes (size.lengthField payload.length) ++ payload :=
    List.append_nil _
  have hmessage : front ++ [0, size.code] ++ wordBytes (size.lengthField payload.length) ++ payload =
      Pdu.writeRequest reference [.standard item] [.ofPayload size payload] := by
    rw [Pdu.writeRequest, hlength, hblock]
    simp only [front, parameters, List.append_assoc]
  show Pdu.encodeWriteRequest reference [.standard item] [.ofPayload size payload] = _
  exact Pdu.encodeWriteRequest_eq_ok_iff.mpr
    ⟨rfl, List.cons_ne_nil _ _, (by decide : 1 ≤ Pdu.Access.maxItems), hshort, hmessage⟩

namespace Station

variable {σ : Type} {peer : Peer σ}

/-- To write an item takes one request (`Station.Posts`), on a session that is ready, if the payload
has a byte and fits one message: 28 bytes stand in front of it, of which 10 are the header, 2 the
function and the number of items, 12 the item and 4 the head of the data. -/
theorem posts_writeItem (peer : Peer σ) (options : Options) (item : StandardItem) {data : DataItem}
    {before : Station σ} {stream : Stream} (hready : before.session.ReadyOn stream)
    (hne : data.payload ≠ [])
    (hfits : 28 + data.payload.length ≤ before.session.pduLength.toNat) :
    Posts ((Client.ofPeer peer options).writeItem item data) before
      [.write [(.standard item, data)]] := by
  let run : List (RequestItem × DataItem) := [(.standard item, data)]
  have hplan : Batch.planWrites before.session.pduLength run = .ok [run] :=
    Batch.planWrites_singleton item hne hfits
  have heach : Posts (Batch.writeEach (channel peer) [.standard item] [data]) before
      [.write run] := by
    have hwrite : Batch.writeEach (channel peer) [.standard item] [data] before =
        ([run].mapM (Batch.writeRun (channel peer)) >>= fun results => pure results.flatten)
          before := by
      show Batch.writeEach (channel peer) (run.map Prod.fst) (run.map Prod.snd) before = _
      rw [Batch.writeEach_pairs _ (List.cons_ne_nil _ _)]
      exact Channel.divided_eq (checkReady_of_ready peer hready.state) hplan
    rw [Posts, outcome_congr hwrite, List.mapM_cons, List.mapM_nil]
    simp only [pure_bind]
    exact ((posts_writeRun peer run before hready).form fun codes => [codes]).form List.flatten
  exact (heach.checked Batch.checkCodes).form fun _ => ()

/-- **A value is written in two ways**, at once or by way of a list. On a session that is ready on a
connection, whatever the text of the address and whatever the value, if its payload has a byte and
fits one message, `28 + payload.length ≤ pduLength`:

* Where the text is no address, both end with the error that says so, and nothing else happens.
* By way of a list, one request is made, for the place and the data of the value.
* Of a bit, and in an area of bytes, the command for the value does the very same.
* Of timers and counters, the command refuses what is not whole elements, and for whole elements makes
  one request for the same place with the same payload, called octets.
* This is the same request but for the transport size and the length, which counts bytes there and
  bits by way of a list. -/
theorem listed_and_direct (peer : Peer σ) (options : Options) (text : String) (entry : Entry)
    {st : Station σ} {stream : Stream} (hready : st.session.ReadyOn stream)
    (hne : entry.payload options.profile.byteOrder ≠ [])
    (hfits : 28 + (entry.payload options.profile.byteOrder).length ≤
      st.session.pduLength.toNat) :
    let c := Client.ofPeer peer options
    let payload := entry.payload c.profile.byteOrder
    let listed := c.writeListed text entry
    let direct := c.perform (entry.command text)
    (∀ e, Address.parse text = .error e → listed st = .error e st ∧ direct st = .error e st) ∧
    ∀ address, Address.parse text = .ok address → ∃ item,
      entry.item c.profile.byteOrder address = .ok item ∧
      Posts listed st [.write [(.standard item, entry.data c.profile.byteOrder)]] ∧
      (entry.isBit = true ∨ address.area.holdsElements = false → direct st = listed st) ∧
      (entry.isBit = false → address.area.holdsElements = true →
        (payload.length % 2 = 1 →
          direct st = .error (.invalidArgument (.partialElement payload.length)) st) ∧
        (payload.length % 2 = 0 →
          Posts direct st [.write [(.standard item, .ofPayload .octets payload)]])) ∧
      ∀ reference, ∃ front,
        (Request.write [(.standard item, .ofBytes payload)]).message reference =
          .ok (front ++ [0, 4] ++ wordBytes (UInt16.ofNat (payload.length * 8)) ++ payload) ∧
        (Request.write [(.standard item, .ofPayload .octets payload)]).message reference =
          .ok (front ++ [0, 9] ++ wordBytes (UInt16.ofNat payload.length) ++ payload) := by
  intro c payload listed direct
  have hlt := st.session.pduLength.toNat_lt
  have hshort : (entry.payload c.profile.byteOrder).length ≤ 65535 := by
    show (entry.payload options.profile.byteOrder).length ≤ 65535
    omega
  refine ⟨fun e hparse => ⟨?_, entry.perform_of_parse_error c hparse st⟩, fun address hparse => ?_⟩
  · show c.writeListed text entry st = _
    rw [Client.writeListed, Entry.add_of_parse_error hparse]
    rfl
  -- the item is the same for both ways; what is left are the data
  obtain ⟨item, hitem⟩ := Entry.exists_item hne hshort address
  refine ⟨item, hitem, ?_, ?_, fun hbit harea => ⟨fun hodd => ?_, fun heven => ?_⟩, ?_⟩
  · rw [Posts, outcome_congr (Client.writeListed_eq hparse hne hshort hitem)]
    rw [← Entry.payload_data] at hne hfits
    exact (posts_writeItem peer options item hready hne hfits).form fun _ => Answer.nothing
  · exact Client.perform_eq_writeListed (checkReady_of_ready peer hready.state) hparse hne hfits
  · rw [show direct st = _ from Client.perform_eq_writeBytesAt hbit hparse]
    exact bind_of_error (Client.writeBytesAt_partial harea hodd) _
  · rw [Entry.item, hbit] at hitem
    have hwrite : c.writeBytesAt address payload st =
        c.writeItem item (.ofPayload .octets payload) st :=
      Client.writeBytesAt_elements harea heven hne hshort hitem
    have hdirect : direct st = (c.writeItem item (.ofPayload .octets payload) >>= fun _ =>
        pure Answer.nothing) st :=
      (Client.perform_eq_writeBytesAt hbit hparse).trans (bind_congr_left hwrite _)
    rw [Posts, outcome_congr hdirect]
    exact (posts_writeItem peer options item hready hne hfits).form fun _ => Answer.nothing
  · intro reference
    have hblock : 4 + payload.length ≤ 65535 := by
      show 4 + (entry.payload options.profile.byteOrder).length ≤ 65535
      omega
    obtain ⟨front, hfront⟩ := Request.message_write_singleton item hblock reference
    exact ⟨front, hfront .byte, hfront .octets⟩

/-- A number is written to a data block: the list of one place does what the command does. -/
theorem listed_and_direct_number :
    let here := greeted 240 []
    let c := Client.ofPeer scripted here.session.options
    let entry := Entry.number .int16 (-5)
    here.session.state = .ready ∧ entry.payload c.profile.byteOrder = [0xFF, 0xFB] ∧
      c.perform (entry.command "DB1.DBW4") here = c.writeListed "DB1.DBW4" entry here := by
  intro here c entry
  have hready : here.session.ReadyOn .fresh := ⟨by decide, by decide⟩
  have hpayload : entry.payload c.profile.byteOrder = [0xFF, 0xFB] := by decide +kernel
  have hne : entry.payload c.profile.byteOrder ≠ [] := by decide +kernel
  have hfits : 28 + (entry.payload c.profile.byteOrder).length ≤
      here.session.pduLength.toNat := by
    decide +kernel
  have hparse : Address.parse "DB1.DBW4" =
      .ok { area := .dataBlock, block := 1, byte := 4, bit := 0 } := by
    decide +kernel
  obtain ⟨item, -, -, hsame, -⟩ :=
    (listed_and_direct scripted here.session.options "DB1.DBW4" entry hready hne hfits).2 _ hparse
  exact ⟨hready.state, hpayload, hsame (.inr rfl)⟩

/-- Two bytes are written to a timer: the two requests are not the same. And the list takes a single
byte, where the command refuses it. -/
theorem listed_timer_differs :
    let here := greeted 240 []
    let c := Client.ofPeer scripted here.session.options
    let sent (call : Call (Station (List Reply)) Answer) : List Bytes :=
      (call.outcome here).2.network.messages.drop here.network.messages.length
    let front : Bytes := [0x32, 1, 0, 0, 0, 2, 0, 14, 0, 6, 5, 1, 0x12, 10, 0x10, 0x1D, 0, 1, 0, 0, 0x1D,
      0, 0, 5]
    sent (c.writeListed "T5" (.bytes [1, 2])) = [front ++ [0, 4, 0, 16, 1, 2]] ∧
      sent (c.perform (.writeBytes "T5" [1, 2])) = [front ++ [0, 9, 0, 2, 1, 2]] ∧
      sent (c.writeListed "T5" (.bytes [1])) ≠ [] ∧
      c.perform (.writeBytes "T5" [1]) here = .error (.invalidArgument (.partialElement 1)) here := by
  intro here c sent front
  refine ⟨by decide +kernel, by decide +kernel, by decide +kernel, rfl⟩

end Station

end S7Comm
