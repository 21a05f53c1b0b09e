import S7Comm.Proofs.Answer
import S7Comm.Proofs.NumbersAndTexts
import S7Comm.Proofs.Received

/-!
# What a request to read means

A request to read is a header, the function and the number of items, and the items one behind the
other. This module takes it apart as a controller does (`Pdu.decodeReadRequest`): how an item is
addressed, and so what it is and how long, stands in its third byte.

**From an item to its bytes and back.** The place of an item is a number of three bytes, eight times
the byte plus the bit, or the number of a timer or counter; area and unit of a numerical control share
one byte. Both are put together by shifting, and taken apart by division
(`StandardItem.toNat_place_of_bits`, `NckItem.toNat_areaUnit`).

* `RequestItem.Built item`: the item can be made, of an address that exists or of a unit that has a
  code.
* `RequestItem.meant item`: what it means, the item with bit 0 where places are numbers, and else the
  item itself. That is what is read back (`RequestItem.decode_encode`): nothing is lost but the bit of
  a timer or counter, which is not sent.
* `StandardItem.eq_encode_of_decode`, `NckItem.eq_encode_of_decode`: in the other direction nothing is
  lost at all; whatever is read as an item is the bytes of that item.

**Main result** (`Pdu.requests_mean`): this for lists of items of both kinds, and with it, that two
requests have the same bytes exactly if they mean the same (`Pdu.readRequest_eq_iff`).
-/

namespace S7Comm

open Call

/-! ## Places of the memory -/

/-- An address whose byte and bit exist, `byte ≤ maxByteOffset` and `bit ≤ 7`. -/
structure Address.Exists (address : Address) : Prop where
  /-- The byte can be told. -/
  byte : address.byte.toNat ≤ maxByteOffset
  /-- The bit is one of a byte. -/
  bit : address.bit ≤ 7

namespace StandardItem

/-- What an item means: where places are numbers, a bit means nothing. -/
def meant (item : StandardItem) : StandardItem :=
  if item.type.isNumbered then { item with address := { item.address with bit := 0 } } else item

variable {item : StandardItem}

/-- The place of a timer or counter is its number. -/
theorem place_of_numbered (h : item.type.isNumbered = true) : item.place = item.address.byte :=
  if_pos h

/-- Any other place is the number of a bit, eight times the byte and the bit: `place = byte * 8 + bit
% 8`, for a byte that an address can have, so that it has three bytes. -/
theorem toNat_place_of_bits (h : item.type.isNumbered = false)
    (hbyte : item.address.byte.toNat ≤ maxByteOffset) :
    item.place.toNat = item.address.byte.toNat * 8 + item.address.bit.toNat % 8 := by
  have hupper : (item.address.byte <<< 3).toNat = item.address.byte.toNat <<< 3 := by
    rw [UInt32.toNat_shiftLeft]
    change item.address.byte.toNat <<< 3 % 2 ^ 32 = _
    rw [Nat.shiftLeft_eq]
    simp only [maxByteOffset] at hbyte
    omega
  have hlower : (item.address.bit &&& 7).toUInt32.toNat = item.address.bit.toNat % 8 := by
    rw [UInt8.toNat_toUInt32, UInt8.toNat_and]
    exact Nat.and_two_pow_sub_one_eq_mod _ 3
  have hbit : item.address.bit.toNat % 8 < 2 ^ 3 := Nat.mod_lt _ (by decide)
  rw [place, h, if_neg Bool.false_ne_true, UInt32.toNat_or, hupper, hlower,
    ← Nat.shiftLeft_add_eq_or_of_lt hbit, Nat.shiftLeft_eq]

/-- A place that exists is read back from the three lowest bytes of its number, with the bit 0 for
timers and counters. The place of a bit is below `2 ^ 24`, and the number of a timer or counter below
`2 ^ 21`, so the three bytes are all of it. -/
theorem offsetOf_place (h : item.address.Exists) :
    offsetOf item.type (item.place.toNat % capacity 3) =
      (item.address.byte, if item.type.isNumbered then 0 else item.address.bit) := by
  have hcapacity : capacity 3 = 16777216 := rfl
  have hbyte := h.byte
  simp only [maxByteOffset] at hbyte
  unfold offsetOf
  cases hnumbered : item.type.isNumbered with
  | true =>
    rw [place_of_numbered hnumbered, Nat.mod_eq_of_lt (by omega), UInt32.ofNat_toNat]
    rfl
  | false =>
    have hbit : item.address.bit.toNat ≤ 7 := UInt8.le_iff_toNat_le.mp h.bit
    have hplace : item.place.toNat % capacity 3 =
        item.address.byte.toNat * 8 + item.address.bit.toNat := by
      rw [toNat_place_of_bits hnumbered h.byte, hcapacity]
      omega
    have hupper : item.place.toNat % capacity 3 / 8 = item.address.byte.toNat := by omega
    have hlower : item.place.toNat % capacity 3 % 8 = item.address.bit.toNat := by omega
    rw [hupper, hlower, UInt32.ofNat_toNat, UInt8.ofNat_toNat]
    rfl

/-- Of an item whose place exists, what is read back is what it means. -/
theorem sent_eq_meant (h : item.address.Exists) : item.sent = item.meant := by
  rw [sent, offsetOf_place h, meant]
  split <;> rfl

/-- What an item means has the bytes of the item. -/
theorem encode_meant (item : StandardItem) : item.meant.encode = item.encode := by
  unfold meant
  split
  · next hnumbered => simp only [encode, place, hnumbered, if_true]
  · rfl

/-- The place that is read from a number of three bytes has that number, whichever of the two ways it
is read. -/
theorem toNat_place_of_offset {number : Nat} (h : number < capacity 3)
    (hbyte : item.address.byte = (offsetOf item.type number).1)
    (hbit : item.address.bit = (offsetOf item.type number).2) : item.place.toNat = number := by
  have hcapacity : capacity 3 = 16777216 := rfl
  have hword {n : Nat} (hn : n < capacity 3) : (UInt32.ofNat n).toNat = n :=
    UInt32.toNat_ofNat_of_lt' (Nat.lt_trans hn (by decide : capacity 3 < UInt32.size))
  unfold offsetOf at hbyte hbit
  cases hnumbered : item.type.isNumbered with
  | true =>
    rw [hnumbered] at hbyte
    rw [place_of_numbered hnumbered, hbyte]
    exact hword h
  | false =>
    rw [hnumbered] at hbyte hbit
    -- the number is divided into a byte and a bit, and is the byte eight times and the bit
    have hupper : item.address.byte.toNat = number / 8 := by
      rw [hbyte]
      exact hword (Nat.lt_of_le_of_lt (Nat.div_le_self number 8) h)
    have hlower : item.address.bit.toNat = number % 8 := by
      rw [hbit]
      have hsmall : number % 8 < 8 := Nat.mod_lt _ (by decide)
      exact UInt8.toNat_ofNat_of_lt' (Nat.lt_trans hsmall (by decide : 8 < UInt8.size))
    have hexists : item.address.byte.toNat ≤ maxByteOffset := by
      simp only [maxByteOffset]
      omega
    rw [toNat_place_of_bits hnumbered hexists, hupper, hlower]
    omega

/-- What is read as an item are its type, count, block and area, and three bytes for its place. -/
theorem exists_of_decode {bytes rest : Bytes} (h : decode bytes = .ok (item, rest)) :
    ∃ place : Bytes, place.length = 3 ∧
      bytes = [0x12, 10, 0x10, item.type.code] ++ wordBytes item.count ++
        wordBytes item.address.block ++ [item.address.area.code] ++ place ++ rest ∧
      item.address.byte = (offsetOf item.type (spelled place)).1 ∧
      item.address.bit = (offsetOf item.type (spelled place)).2 := by
  unfold decode at h
  split at h
  · next start length addressing typeCode count₁ count₀ block₁ block₀ areaCode place₂ place₁ place₀
      behind =>
    split at h
    · cases h
    · next hstart =>
      simp only [ne_eq, not_or, not_not] at hstart
      obtain ⟨rfl, rfl, rfl⟩ := hstart
      split at h
      · cases h
      · next type htype =>
        obtain rfl := ElementType.ofCode?_eq_some_iff.mp htype
        split at h
        · cases h
        · next area harea =>
          obtain rfl := Area.ofCode?_eq_some_iff.mp harea
          obtain ⟨rfl, rfl⟩ := Prod.mk.inj (Except.ok.inj h)
          refine ⟨[place₂, place₁, place₀], rfl, ?_, rfl, rfl⟩
          rw [wordBytes_word, wordBytes_word]
          rfl
  · cases h

/-- Whatever is read as an item is the bytes of that item. -/
theorem eq_encode_of_decode {bytes rest : Bytes} (h : decode bytes = .ok (item, rest)) :
    bytes = item.encode ++ rest := by
  obtain ⟨place, hlength, rfl, hbyte, hbit⟩ := exists_of_decode h
  have hspelled := spelled_lt place
  have hplace := bigEndian_spelled place
  rw [hlength] at hspelled hplace
  rw [encode, toNat_place_of_offset hspelled hbyte hbit, hplace]

end StandardItem

/-! ## Units of a numerical control -/

namespace NckItem

variable {item : NckItem}

/-- The upper three bits of a byte are its number divided by 32. -/
theorem toNat_upper (byte : UInt8) : (byte >>> 5).toNat = byte.toNat / 32 := by
  rw [UInt8.toNat_shiftRight]
  exact Nat.shiftRight_eq_div_pow _ 5

/-- The lower five bits of a byte are what is left of its number behind 32s. -/
theorem toNat_lower (byte : UInt8) : (byte &&& 31).toNat = byte.toNat % 32 := by
  rw [UInt8.toNat_and]
  exact Nat.and_two_pow_sub_one_eq_mod _ 5

/-- Area and unit share a byte, the area in its upper three bits and the unit in the lower five:
`area.code * 32 + unit % 32`. -/
theorem toNat_areaUnit (item : NckItem) :
    item.areaUnit.toNat = item.area.code.toNat * 32 + item.unit.toNat % 32 := by
  have harea : item.area.code.toNat ≤ 7 := by cases item.area <;> decide
  have hupper : (item.area.code <<< 5).toNat = item.area.code.toNat <<< 5 := by
    rw [UInt8.toNat_shiftLeft]
    change item.area.code.toNat <<< 5 % 2 ^ 8 = _
    rw [Nat.shiftLeft_eq]
    omega
  have hunit : item.unit.toNat % 32 < 2 ^ 5 := Nat.mod_lt _ (by decide)
  rw [areaUnit, UInt8.toNat_or, hupper, toNat_lower, ← Nat.shiftLeft_add_eq_or_of_lt hunit,
    Nat.shiftLeft_eq]

/-- Area and unit that were read from a byte share that byte: to put together what was taken apart is
to have it back. -/
theorem areaUnit_of_bits {byte : UInt8} (harea : byte >>> 5 = item.area.code)
    (hunit : item.unit = byte &&& 31) : item.areaUnit = byte := by
  rw [← UInt8.toNat_inj, toNat_areaUnit, ← harea, hunit, toNat_upper, toNat_lower]
  omega

/-- An item whose unit has a code is read back as it was sent, and what stands behind it is left. -/
theorem decode_encode (h : item.unit ≤ 31) (rest : Bytes) :
    decode (item.encode ++ rest) = .ok (item, rest) := by
  have hbyte := item.toNat_areaUnit
  have hunit : item.unit.toNat ≤ 31 := UInt8.le_iff_toNat_le.mp h
  have harea : item.areaUnit >>> 5 = item.area.code := by
    rw [← UInt8.toNat_inj, toNat_upper]
    omega
  have hlower : item.areaUnit &&& 31 = item.unit := by
    rw [← UInt8.toNat_inj, toNat_lower]
    omega
  have hof : NckArea.ofCode? item.area.code = some item.area :=
    NckArea.ofCode?_eq_some_iff.mpr rfl
  have hmodule : NckModule.ofCode? item.module.code = some item.module :=
    NckModule.ofCode?_eq_some_iff.mpr rfl
  simp only [encode, wordBytes, List.cons_append, List.nil_append, decode, harea, hlower, hof,
    hmodule, word_wordBytes]
  rfl

/-- What is read as an item are its column, line, module and number of lines, and a byte for its area
and unit. -/
theorem exists_of_decode {bytes rest : Bytes} (h : decode bytes = .ok (item, rest)) :
    ∃ shared : UInt8, bytes = [0x12, 8, 0x82, shared] ++ wordBytes item.column ++
        wordBytes item.line ++ [item.module.code, item.lineCount] ++ rest ∧
      shared >>> 5 = item.area.code ∧ item.unit = shared &&& 31 := by
  unfold decode at h
  split at h
  · next start length addressing shared column₁ column₀ line₁ line₀ moduleCode lineCount behind =>
    split at h
    · cases h
    · next hstart =>
      simp only [ne_eq, not_or, not_not] at hstart
      obtain ⟨rfl, rfl, rfl⟩ := hstart
      split at h
      · cases h
      · next area harea =>
        split at h
        · cases h
        · next module hmodule =>
          obtain rfl := NckModule.ofCode?_eq_some_iff.mp hmodule
          obtain ⟨rfl, rfl⟩ := Prod.mk.inj (Except.ok.inj h)
          refine ⟨shared, ?_, NckArea.ofCode?_eq_some_iff.mp harea, rfl⟩
          rw [wordBytes_word, wordBytes_word]
          rfl
  · cases h

/-- Whatever is read as an item is the bytes of that item. -/
theorem eq_encode_of_decode {bytes rest : Bytes} (h : decode bytes = .ok (item, rest)) :
    bytes = item.encode ++ rest := by
  obtain ⟨shared, rfl, harea, hunit⟩ := exists_of_decode h
  rw [encode, areaUnit_of_bits harea hunit]

end NckItem

/-! ## Lists of items

A row has no marks between its items. That it is taken apart where it was put together follows from
the bytes of an item being read whatever stands behind them.
-/

namespace RequestItem

/-- What an item means. -/
def meant : RequestItem → RequestItem
  | .standard item => .standard item.meant
  | .nck item => .nck item

/-- An item whose place exists, or whose unit has a code, which is one up to 31. Nothing more is
needed for an item to be read back. -/
def Placed : RequestItem → Prop
  | .standard item => item.address.Exists
  | .nck item => item.unit ≤ 31

/-- An item as it can be made: elements from a place that exists on, or the bit there, or bytes, or
lines of a unit that has a code. -/
inductive Built : RequestItem → Prop where
  /-- Elements of a type. -/
  | elements {address : Address} {type : ElementType} {count : UInt16} {item : StandardItem} :
    address.Exists → StandardItem.make address type count = .ok item → Built (.standard item)
  /-- A single bit. -/
  | single {address : Address} : address.Exists → Built (.standard (.single address))
  /-- Bytes, or the timers or counters that hold them. -/
  | bytes {address : Address} {count : UInt16} {item : StandardItem} :
    address.Exists → StandardItem.bytes address count = .ok item → Built (.standard item)
  /-- Lines of a module of a numerical control. -/
  | lines {item : NckItem} : item.unit ≤ 31 → Built (.nck item)

/-- What is made of a place has that place. -/
theorem address_of_make {address : Address} {type : ElementType} {count : UInt16}
    {item : StandardItem} (h : StandardItem.make address type count = .ok item) :
    item.address = address := by
  unfold StandardItem.make at h
  split at h
  · cases h
  · split at h
    · cases h
    · cases h
      rfl

/-- What asks for bytes begins with the first bit of theirs. -/
theorem address_of_bytes {address : Address} {count : UInt16} {item : StandardItem}
    (h : StandardItem.bytes address count = .ok item) :
    item.address = { address with bit := 0 } := by
  unfold StandardItem.bytes at h
  split at h <;> exact address_of_make h

/-- What can be made has its place. -/
theorem Built.placed {item : RequestItem} (h : item.Built) : item.Placed := by
  cases h with
  | elements haddress hmake =>
    rw [Placed, address_of_make hmake]
    exact haddress
  | single haddress => exact haddress
  | bytes haddress hbytes =>
    rw [Placed, address_of_bytes hbytes]
    exact ⟨haddress.byte, (by decide : (0 : UInt8) ≤ 7)⟩
  | lines hunit => exact hunit

/-- What an item means has the bytes of the item. -/
theorem encode_meant (item : RequestItem) : item.meant.encode = item.encode := by
  cases item with
  | standard item => exact item.encode_meant
  | nck item => rfl

/-- The item at the front of some bytes, and the bytes behind it: the third byte tells how it is
addressed. -/
def decode (bytes : Bytes) : Except FramingError (RequestItem × Bytes) :=
  if bytes[2]? = some 0x82 then (NckItem.decode bytes).map fun (item, rest) => (.nck item, rest)
  else (StandardItem.decode bytes).map fun (item, rest) => (.standard item, rest)

/-- Some items at the front of some bytes, and the bytes behind them. -/
def decodeRow : (count : Nat) → Bytes → Except FramingError (List RequestItem × Bytes)
  | 0, bytes => .ok ([], bytes)
  | count + 1, bytes => do
    let (item, rest) ← decode bytes
    let (items, rest) ← decodeRow count rest
    return (item :: items, rest)

/-- What is read back of an item is what it means, and what stands behind it is left. -/
theorem decode_encode {item : RequestItem} (h : item.Placed) (rest : Bytes) :
    decode (item.encode ++ rest) = .ok (item.meant, rest) := by
  cases item with
  | standard item =>
    have hthird : (item.encode ++ rest)[2]? = some 0x10 := rfl
    rw [encode, decode, if_neg (by rw [hthird]; decide), StandardItem.decode_encode,
      StandardItem.sent_eq_meant h]
    rfl
  | nck item =>
    have hthird : (item.encode ++ rest)[2]? = some 0x82 := rfl
    rw [encode, decode, if_pos hthird, NckItem.decode_encode h]
    rfl

/-- What is read back of items is what they mean, in their order, and what stands behind the last is
left. By induction on the items. -/
theorem decodeRow_encode {items : List RequestItem} (h : ∀ item ∈ items, item.Placed)
    (rest : Bytes) :
    decodeRow items.length (items.flatMap encode ++ rest) = .ok (items.map meant, rest) := by
  induction items with
  | nil => rfl
  | cons item items ih =>
    have hitem := decode_encode (h item List.mem_cons_self) (items.flatMap encode ++ rest)
    have hitems := ih fun other hother => h other (List.mem_cons_of_mem _ hother)
    rw [List.flatMap_cons, List.append_assoc, List.length_cons, decodeRow, except_bind_eq_ok_iff]
    refine ⟨_, hitem, ?_⟩
    rw [except_bind_eq_ok_iff]
    exact ⟨_, hitems, rfl⟩

end RequestItem

/-! ## Requests -/

namespace Pdu

/-- A request to read, taken apart: its header, its items, and the bytes behind them. -/
def decodeReadRequest (bytes : Bytes) : Except FramingError (Header × List RequestItem × Bytes) := do
  let (header, body) ← Header.decode bytes
  let count ← Access.read.decodeCount body
  let (items, rest) ← RequestItem.decodeRow count.toNat (body.drop Access.countLength)
  return (header, items, rest)

variable {reference reference' : UInt16} {items items' : List RequestItem}

/-- What is read of a request is what was asked for: its header, its items as they are meant,
`items.map RequestItem.meant`, and nothing behind them. -/
theorem decodeReadRequest_readRequest (hcount : items.length ≤ Access.maxItems)
    (hplaced : ∀ item ∈ items, item.Placed) :
    decodeReadRequest (readRequest reference items) =
      .ok (requestHeader reference (Access.read.parameters items).length 0,
        items.map RequestItem.meant, []) := by
  have hrow := RequestItem.decodeRow_encode hplaced []
  rw [List.append_nil] at hrow
  have htold : (UInt8.ofNat items.length).toNat = items.length := Access.toNat_count hcount
  have hnumber : Access.read.decodeCount (Access.read.parameters items) =
      .ok (UInt8.ofNat items.length) :=
    Access.decodeCount_eq_ok_iff.mpr ⟨_, rfl⟩
  rw [decodeReadRequest, readRequest, decode_requestHeader, except_bind_eq_ok_iff]
  refine ⟨_, rfl, ?_⟩
  rw [except_bind_eq_ok_iff]
  refine ⟨_, hnumber, ?_⟩
  rw [except_bind_eq_ok_iff, htold]
  exact ⟨_, hrow, rfl⟩

/-- Two requests have the same bytes exactly if they have the same reference, and their items mean the
same. From left to right both are read back; from right to left, what an item means has the bytes of
the item. -/
theorem readRequest_eq_iff (hcount : items.length ≤ Access.maxItems)
    (hplaced : ∀ item ∈ items, item.Placed) (hcount' : items'.length ≤ Access.maxItems)
    (hplaced' : ∀ item ∈ items', item.Placed) :
    readRequest reference items = readRequest reference' items' ↔
      reference = reference' ∧ items.map RequestItem.meant = items'.map RequestItem.meant := by
  constructor
  · intro h
    have hread : decodeReadRequest (readRequest reference items) = _ :=
      decodeReadRequest_readRequest hcount hplaced
    rw [h, decodeReadRequest_readRequest hcount' hplaced'] at hread
    obtain ⟨hheader, hitems⟩ := Prod.mk.inj (Except.ok.inj hread)
    exact ⟨(congrArg Header.reference hheader).symm, (Prod.mk.inj hitems).1.symm⟩
  · rintro ⟨rfl, h⟩
    have hbytes (items : List RequestItem) :
        (items.map RequestItem.meant).flatMap RequestItem.encode =
          items.flatMap RequestItem.encode := by
      rw [List.flatMap_map]
      exact congrArg (items.flatMap ·) (funext RequestItem.encode_meant)
    have hlength : items.length = items'.length := by
      have hmapped := congrArg List.length h
      rwa [List.length_map, List.length_map] at hmapped
    have hparameters : Access.read.parameters items = Access.read.parameters items' := by
      rw [Access.parameters, Access.parameters, hlength, ← hbytes items, h, hbytes items']
    rw [readRequest, readRequest, hparameters]

/-- The header of a request declares as many bytes of parameters as there are. -/
theorem toNat_parameterLength (hcount : items.length ≤ Access.maxItems) :
    (requestHeader reference (Access.read.parameters items).length 0).parameterLength.toNat =
      (Access.read.parameters items).length :=
  UInt16.toNat_ofNat_of_lt' (Nat.lt_succ_of_le (length_parameters_le .read hcount))

/-- **A request means what was asked for.** Whatever up to 255 items are to be read, of the memory and
of a numerical control in any mix, whose places exist and whose units have codes
(`RequestItem.Built`): there is a request for them, `encodeReadRequest reference items = .ok message`.

* Taken apart, it is a job with the given reference and just the blocks that its header declares, and
  has the items in their order, `items.map RequestItem.meant`, with nothing behind them. They are
  equal to those that were asked for in everything but the bit of a timer or counter, which is 0.
* Another request has the same bytes exactly if it has the same reference, and items that mean the
  same.
* In the other direction, whatever is read as an item, of the one kind or the other, is the bytes of
  that item, `bytes = item.encode ++ rest`. -/
theorem requests_mean (reference : UInt16) {items : List RequestItem} (hne : items ≠ [])
    (hcount : items.length ≤ Access.maxItems) (hbuilt : ∀ item ∈ items, item.Built) :
    (∃ message header, encodeReadRequest reference items = .ok message ∧
      decodeReadRequest message = .ok (header, items.map RequestItem.meant, []) ∧ header.kind = .job ∧
      header.reference = reference ∧
      jobHeaderLength + header.parameterLength.toNat = message.length ∧ header.dataLength = 0 ∧
      ∀ reference' items', (∀ item ∈ items', item.Built) →
        (encodeReadRequest reference' items' = .ok message ↔
          reference' = reference ∧ items'.map RequestItem.meant = items.map RequestItem.meant)) ∧
      (∀ bytes item rest, StandardItem.decode bytes = .ok (item, rest) →
        bytes = item.encode ++ rest) ∧
      ∀ bytes item rest, NckItem.decode bytes = .ok (item, rest) → bytes = item.encode ++ rest := by
  have hplaced : ∀ item ∈ items, item.Placed := fun item hitem => (hbuilt item hitem).placed
  refine ⟨⟨_, _, encodeReadRequest_eq_ok_iff.mpr ⟨hne, hcount, rfl⟩,
    decodeReadRequest_readRequest hcount hplaced, rfl, rfl, ?_, rfl, ?_⟩,
    fun _ _ _ => StandardItem.eq_encode_of_decode, fun _ _ _ => NckItem.eq_encode_of_decode⟩
  · rw [toNat_parameterLength hcount, length_parameters, length_readRequest, Nat.add_assoc]
  · intro reference' items' hbuilt'
    have hplaced' : ∀ item ∈ items', item.Placed := fun item hitem => (hbuilt' item hitem).placed
    rw [encodeReadRequest_eq_ok_iff]
    constructor
    · rintro ⟨-, hcount', hsame⟩
      obtain ⟨hreference, hitems⟩ :=
        (readRequest_eq_iff hcount hplaced hcount' hplaced').mp hsame
      exact ⟨hreference.symm, hitems.symm⟩
    · rintro ⟨hreference, hitems⟩
      have hlength := congrArg List.length hitems
      rw [List.length_map, List.length_map] at hlength
      have hcount' : items'.length ≤ Access.maxItems := hlength ▸ hcount
      refine ⟨?_, hcount', (readRequest_eq_iff hcount hplaced hcount' hplaced').mpr
        ⟨hreference.symm, hitems.symm⟩⟩
      -- there are as many items as were asked for, and so there is one
      rintro rfl
      exact hne (List.eq_nil_of_length_eq_zero hlength.symm)

/-- A timer with a bit, lines of the last unit, and the last bit that there is: the bit in front of
which the timer stands is not sent. -/
theorem requests_mean_mixed :
    let timer (bit : UInt8) : RequestItem :=
      .standard { address := { area := .timer, block := 0, byte := 5, bit }, type := .timer,
                  count := 2 }
    let lines : RequestItem := .nck
      { area := .axis, unit := 31, column := 2, line := 1, module := .sma, lineCount := 1 }
    let last : RequestItem := .standard
      (.single { area := .dataBlock, block := 7, byte := 2097151, bit := 7 })
    let items := [timer 3, lines, last]
    items ≠ [] ∧ items.length ≤ Access.maxItems ∧ (∀ item ∈ items, item.Built) ∧
      ∃ message header, encodeReadRequest 9 items = .ok message ∧
        decodeReadRequest message = .ok (header, [timer 0, lines, last], []) ∧
        encodeReadRequest 9 [timer 0, lines, last] = .ok message := by
  intro timer lines last items
  have hmade (bit : UInt8) (hbit : bit ≤ 7) (h : StandardItem.make
      { area := .timer, block := 0, byte := 5, bit } .timer 2 = .ok _) : (timer bit).Built :=
    .elements ⟨(by decide : (5 : UInt32).toNat ≤ maxByteOffset), hbit⟩ h
  have hlines : lines.Built := .lines (by decide)
  have hlast : last.Built := .single ⟨by decide, by decide⟩
  have hbuilt (bit : UInt8) (htimer : (timer bit).Built) :
      ∀ item ∈ [timer bit, lines, last], item.Built := by
    simp only [List.forall_mem_cons]
    exact ⟨htimer, hlines, hlast, fun _ h => nomatch h⟩
  have hne : items ≠ [] := List.cons_ne_nil _ _
  have hitems := hbuilt 3 (hmade 3 (by decide) rfl)
  obtain ⟨message, header, hencode, hdecode, -, -, -, -, hsame⟩ :=
    (requests_mean 9 hne (by decide) hitems).1
  exact ⟨hne, by decide, hitems, message, header, hencode, hdecode,
    (hsame 9 _ (hbuilt 0 (hmade 0 (by decide) rfl))).mpr ⟨rfl, rfl⟩⟩

end Pdu

end S7Comm
