import S7Comm.Proofs.FewestRuns
import S7Comm.Proofs.Ranges

/-!
# How many requests a range takes

A piece of a range is as long as a message has room for, and so two neighbouring pieces never go into
one message: a range takes as many requests as it has pieces. Whether fewer could do is another
question. Pieces need not be of one length, nor come in order, nor be apart; so the question is about
all messages that together cover the range.

* `CoversRange address total messages`: all items are of bytes, and each byte of the range is asked
  for by one of them. `ReadsRange` and `WritesRange` are the numbers of messages with which a range
  can be read or written, each of them one that can be exchanged at once.
* `bytesOf_le_of_readAtOnce`, `bytesOf_le_of_writeAtOnce`: a message that can be exchanged has room
  for 18 bytes less than agreed, if it reads, and for 28 less, if it writes, however many items it
  has.
* `pieceCount_le_of_covers`: every byte of the range has to be in one of them, so there are not fewer
  than pieces of that length, `(total + room - 1) / room`; and these are enough
  (`Client.isLeast_readsRange`, `Client.isLeast_writesRange`).
* `Station.Sends request k before after`: `k` requests of the make were sent in between.

**Main result** (`Station.requests_of_ranges`). Writing takes the fewest. Reading does so where the
agreed length is even. Where it is odd, a piece is one byte shorter than it could be, for it has to be
even; and this can make a request more (`Station.one_request_more`), although the fill byte that is
avoided would not have been there: behind a full piece there is no other item.
-/

namespace S7Comm

open Call

/-! ## Items that go alone -/

namespace Batch

/-- If no two neighbours can be exchanged at once, the runs are the items, each alone. That each of
them can be exchanged at all is not asked here: a run is made of every item that comes first, even of
one that is too large. -/
theorem runs_of_isChain {α : Type} {demand : α → Demand} {limit : Nat} {items : List α}
    (h : items.IsChain fun item next => ¬ AtOnce demand limit [item, next]) :
    runs demand limit items = items.map fun item => [item] := by
  induction items with
  | nil => exact runs_nil demand limit
  | cons item items ih =>
    have hfirst : firstRun demand limit item items = ([item], items) := by
      cases items with
      | nil => rfl
      | cons next items =>
        have hlarge : ¬ ((Frame.empty.add (demand item)).add (demand next)).fits limit := by
          intro hfits
          exact (List.isChain_cons_cons.mp h).1 ⟨(by decide : 2 ≤ Pdu.Access.maxItems), hfits⟩
        have hroom : Pdu.Access.maxItems - 1 = 253 + 1 := rfl
        rw [firstRun, hroom, extend, if_neg hlarge]
    rw [runs_cons, hfirst, List.map_cons, ih h.tail]

/-- A row of payloads, with a header of four bytes each and a fill byte behind those that are odd, is
at least as long as the payloads and the headers. Fill bytes are neglected here; the bound that
follows is met all the same, as a message with a single item has none. -/
theorem sum_le_rowLength (odd : Bool) (lengths : List Nat) :
    lengths.sum + 4 * lengths.length ≤ rowLength odd lengths := by
  induction lengths generalizing odd with
  | nil => exact Nat.le_refl _
  | cons length lengths ih =>
    have hrest := ih (length % 2 == 1)
    simp only [rowLength, List.sum_cons, List.length_cons, DataItem.headerLength]
    omega

end Batch

/-! ## Covering a range

The bytes of a range are counted as a finite set, and each item takes at most as many of them as it
asks for. Overlaps make the bound no worse, as a byte that is asked for twice is counted once.
-/

/-- An item asks for a byte in the area and the block of an address: it is one of `count` bytes from
its own address on, and the byte is among them, `place.byte ≤ byte < place.byte + count`. -/
def AsksFor (address : Address) (byte : Nat) (item : RequestItem) : Prop :=
  ∃ place, item = .standard place ∧ place.type = .byte ∧ place.address.area = address.area ∧
    place.address.block = address.block ∧ place.address.byte.toNat ≤ byte ∧
    byte < place.address.byte.toNat + place.count.toNat

/-- An item asks for bytes, and begins at one that an address can have. It may reach out of the area;
a range that does so as well could be read only with such items. -/
def IsBytes (item : RequestItem) : Prop :=
  ∃ place, item = .standard place ∧ place.type = .byte ∧ place.address.byte.toNat ≤ maxByteOffset

/-- Some messages with items of bytes cover a range: each of its bytes is asked for. -/
structure CoversRange (address : Address) (total : Nat) (messages : List (List RequestItem)) : Prop where
  /-- All items ask for bytes. -/
  bytes : ∀ message ∈ messages, ∀ item ∈ message, IsBytes item
  /-- Every byte is asked for. -/
  covered : ∀ byte, address.byte.toNat ≤ byte → byte < address.byte.toNat + total →
    ∃ message ∈ messages, ∃ item ∈ message, AsksFor address byte item

/-- The number of bytes that some items ask for. Items of a numerical control, of which it is not
known beforehand, count nothing. -/
def bytesOf (items : List RequestItem) : Nat :=
  (items.filterMap RequestItem.dataLength?).sum

/-- The numbers of messages with which a range of `total` bytes from an address on can be read: of `k`
messages if there are some that cover the range, each of which keeps to the agreed length with its
request and with the complete answer to it (`Batch.ReadAtOnce`). -/
def ReadsRange (budget : UInt16) (address : Address) (total : Nat) : Set Nat :=
  {k | ∃ messages : List (List RequestItem), messages.length = k ∧
    CoversRange address total messages ∧ ∀ message ∈ messages, Batch.ReadAtOnce budget message}

/-- The numbers of messages with which a range can be written: of `k` messages if there are some whose
items cover the range, each of which keeps to the agreed length (`Batch.WriteAtOnce`) and has as much
data for every item as that asks for (`Filled`). Which bytes are written does not matter to their
number. -/
def WritesRange (budget : UInt16) (address : Address) (total : Nat) : Set Nat :=
  {k | ∃ messages : List (List (RequestItem × DataItem)), messages.length = k ∧
    CoversRange address total (messages.map (List.map Prod.fst)) ∧
    ∀ message ∈ messages, Batch.WriteAtOnce budget message ∧
      Filled (message.map Prod.fst) (message.map Prod.snd)}

/-- Bytes of which each is asked for by some item are not more than all items ask for: `bytes.card ≤
bytesOf items`. Bytes that several items ask for are counted once on the left and more often on the
right. -/
theorem card_le_bytesOf {address : Address} (bytes : Finset Nat) {items : List RequestItem}
    (h : ∀ byte ∈ bytes, ∃ item ∈ items, AsksFor address byte item) :
    bytes.card ≤ bytesOf items := by
  induction items generalizing bytes with
  | nil =>
    have hnone : bytes = ∅ := by
      refine Finset.eq_empty_of_forall_notMem fun byte hbyte => ?_
      obtain ⟨item, hitem, -⟩ := h byte hbyte
      cases hitem
    rw [hnone]
    exact Nat.zero_le _
  | cons item items ih =>
    classical
    -- those that the first item asks for, and the others
    have hsplit := Finset.card_filter_add_card_filter_not (s := bytes) (AsksFor address · item)
    have hothers := ih (bytes.filter fun byte => ¬ AsksFor address byte item) (by
      intro byte hbyte
      obtain ⟨hbyte, hnot⟩ := Finset.mem_filter.mp hbyte
      obtain ⟨other, hother, hasks⟩ := h byte hbyte
      rcases List.mem_cons.mp hother with rfl | hother
      · exact absurd hasks hnot
      · exact ⟨other, hother, hasks⟩)
    have hfirst : (bytes.filter fun byte => AsksFor address byte item).card ≤ bytesOf [item] := by
      rcases Finset.eq_empty_or_nonempty (bytes.filter fun byte => AsksFor address byte item)
        with hnone | ⟨byte, hbyte⟩
      · rw [hnone]
        exact Nat.zero_le _
      · obtain ⟨place, rfl, htype, -⟩ := (Finset.mem_filter.mp hbyte).2
        have hwithin : (bytes.filter fun byte => AsksFor address byte (.standard place)) ⊆
            Finset.Ico place.address.byte.toNat (place.address.byte.toNat + place.count.toNat) := by
          intro byte hbyte
          obtain ⟨_, hplace, -, -, -, hle, hlt⟩ := (Finset.mem_filter.mp hbyte).2
          cases hplace
          exact Finset.mem_Ico.mpr ⟨hle, hlt⟩
        have hcard := Finset.card_le_card hwithin
        have hlength : bytesOf [.standard place] = place.count.toNat := by
          show place.count.toNat * place.type.byteSize + 0 = _
          rw [htype]
          exact Nat.mul_one _
        rw [Nat.card_Ico, Nat.add_sub_cancel_left] at hcard
        rw [hlength]
        exact hcard
    have hsum : bytesOf (item :: items) = bytesOf [item] + bytesOf items := by
      simp only [bytesOf, ← List.sum_append, ← List.filterMap_append, List.singleton_append]
    omega

/-- **Messages that cover a range are not fewer than its bytes take**: if each of them asks for at
most `room` bytes, there are at least `(total + room - 1) / room`. The messages may ask for other
bytes too, for some twice, and in any order. -/
theorem pieceCount_le_of_covers {address : Address} {total room : Nat} (hroom : 0 < room)
    {messages : List (List RequestItem)} (hcovers : CoversRange address total messages)
    (hmessages : ∀ message ∈ messages, bytesOf message ≤ room) :
    Client.pieceCount room total ≤ messages.length := by
  -- every byte of the range is among those that are asked for
  have hbytes : total ≤ bytesOf messages.flatten := by
    have hcard : _ ≤ bytesOf messages.flatten := card_le_bytesOf
      (Finset.Ico address.byte.toNat (address.byte.toNat + total)) (by
        intro byte hbyte
        obtain ⟨hle, hlt⟩ := Finset.mem_Ico.mp hbyte
        obtain ⟨message, hmessage, item, hitem, hasks⟩ := hcovers.covered byte hle hlt
        exact ⟨item, List.mem_flatten.mpr ⟨message, hmessage, hitem⟩, hasks⟩)
    rw [Nat.card_Ico, Nat.add_sub_cancel_left] at hcard
    exact hcard
  -- and of these there are at most as many as there is room for
  have hsum : bytesOf messages.flatten ≤ messages.length * room := by
    have hflatten : bytesOf messages.flatten = (messages.map bytesOf).sum := by
      rw [bytesOf, List.filterMap_flatten, List.sum_flatten, List.map_map]
      rfl
    have hle := List.sum_le_card_nsmul (messages.map bytesOf) room (by
      intro length hlength
      obtain ⟨message, hmessage, rfl⟩ := List.mem_map.mp hlength
      exact hmessages message hmessage)
    rw [List.length_map, smul_eq_mul] at hle
    exact hflatten.trans_le hle
  exact Nat.not_lt.mp fun hfew =>
    absurd ((Client.lt_pieceCount_iff hroom total _).mp hfew) (by omega)

/-! ## What a message has room for -/

/-- A complete answer has 14 bytes, and 4 in front of the bytes for each item. -/
theorem room_of_readAtOnce {budget : UInt16} {message : List RequestItem}
    (h : Batch.ReadAtOnce budget message) :
    14 + 4 * (message.filterMap RequestItem.dataLength?).length + bytesOf message ≤ budget.toNat := by
  obtain ⟨-, hfits⟩ := Batch.readAtOnce_iff.mp h
  have hanswer := (Batch.fits_iff.mp hfits).2
  rw [Batch.response_total_reads] at hanswer
  have hrow := Batch.sum_le_rowLength false (message.filterMap RequestItem.dataLength?)
  simp only [Pdu.ackHeaderLength, Pdu.Access.countLength] at hanswer
  rw [bytesOf]
  omega

/-- A message that reads asks for at most `length - 18` bytes: the answer has 14 bytes and 4 more for
each item, and there is an item. -/
theorem bytesOf_le_of_readAtOnce {budget : UInt16} {message : List RequestItem}
    (h : Batch.ReadAtOnce budget message) : bytesOf message ≤ budget.toNat - 18 := by
  have hroom := room_of_readAtOnce h
  rcases eq_or_ne (message.filterMap RequestItem.dataLength?) [] with hnone | hsome
  · rw [bytesOf, hnone]
    exact Nat.zero_le _
  · have hpos := List.length_pos_of_ne_nil hsome
    omega

/-- The lengths of some items and of what they ask for, where their data are known. -/
theorem lengths_of_filled {items : List RequestItem} {data : List DataItem} (h : Filled items data) :
    bytesOf items = (data.map fun item => item.payload.length).sum ∧
      itemsLength items = 12 * data.length := by
  induction h with
  | nil => exact ⟨rfl, rfl⟩
  | @cons item filling items data hfirst _ ih =>
    obtain ⟨place, rfl⟩ : ∃ place, item = .standard place := by
      cases item with
      | standard place => exact ⟨place, rfl⟩
      | nck item => cases hfirst
    have hbytes : bytesOf (.standard place :: items) = place.dataLength + bytesOf items := by
      simp [bytesOf, RequestItem.dataLength?]
    have hlength : place.dataLength = filling.payload.length := Option.some.inj hfirst
    refine ⟨?_, ?_⟩
    · rw [hbytes, ih.1, hlength, List.map_cons, List.sum_cons]
    · show 12 + itemsLength items = _
      rw [ih.2, List.length_cons, Nat.mul_succ, Nat.add_comm]

/-- A request that writes has 12 bytes, and 16 in front of the bytes for each item. -/
theorem room_of_writeAtOnce {budget : UInt16} {message : List (RequestItem × DataItem)}
    (h : Batch.WriteAtOnce budget message)
    (hfilled : Filled (message.map Prod.fst) (message.map Prod.snd)) :
    12 + 16 * message.length + bytesOf (message.map Prod.fst) ≤ budget.toNat := by
  obtain ⟨-, hfits⟩ := Batch.writeAtOnce_iff.mp h
  have hrequest := (Batch.fits_iff.mp hfits).1
  obtain ⟨hbytes, hitems⟩ := lengths_of_filled hfilled
  have hrow := Batch.sum_le_rowLength false
    ((message.map Prod.snd).map fun item => item.payload.length)
  rw [Batch.request_total_writes, hitems, Batch.blockLength_eq] at hrequest
  simp only [List.length_map, Pdu.jobHeaderLength, Pdu.Access.countLength] at hrequest hrow
  rw [hbytes]
  omega

/-- A message that writes has at most `length - 28` bytes of data: the request has 12 bytes and 16
more for each item, and there is an item. -/
theorem bytesOf_le_of_writeAtOnce {budget : UInt16} {message : List (RequestItem × DataItem)}
    (h : Batch.WriteAtOnce budget message)
    (hfilled : Filled (message.map Prod.fst) (message.map Prod.snd)) :
    bytesOf (message.map Prod.fst) ≤ budget.toNat - 28 := by
  have hroom := room_of_writeAtOnce h hfilled
  rcases eq_or_ne message [] with rfl | hsome
  · exact Nat.zero_le _
  · have hpos := List.length_pos_of_ne_nil hsome
    omega

/-! ## The fewest messages

That there are not fewer is `pieceCount_le_of_covers`; that there are so many is shown by the pieces
of that length themselves, which need not be those that the program makes.
-/

namespace Client

variable {address : Address} {piece total : Nat} {bytes : Bytes} {budget : UInt16}

/-- The pieces of a range cover it, of whatever length they are, 1 to 65535 bytes, if the range lies
within what an address can have, `byte + total ≤ maxByteOffset + 1`. A byte at a distance of `d` from
the beginning is in the piece of the number `d / piece`. -/
theorem covers_spans (hpiece : 0 < piece) (hshort : piece ≤ 65535)
    (hrange : address.byte.toNat + total ≤ maxByteOffset + 1) :
    CoversRange address total ((spans piece total).map fun part => [itemAt address part]) := by
  have hplace : ∀ part ∈ spans piece total,
      (UInt32.ofNat (address.byte.toNat + part.1)).toNat = address.byte.toNat + part.1 ∧
        (UInt16.ofNat part.2).toNat = part.2 := by
    intro part hpart
    obtain ⟨hbegin, -, hle⟩ := mem_spans hpiece hpart
    have hbyte : address.byte.toNat + part.1 < 2 ^ 32 := by
      rw [maxByteOffset] at hrange
      omega
    exact ⟨UInt32.toNat_ofNat_of_lt' hbyte,
      UInt16.toNat_ofNat_of_lt' (Nat.lt_succ_of_le (hle.trans hshort))⟩
  constructor
  · intro message hmessage item hitem
    obtain ⟨part, hpart, rfl⟩ := List.mem_map.mp hmessage
    obtain rfl := List.mem_singleton.mp hitem
    have hbegin := (mem_spans hpiece hpart).1
    refine ⟨_, rfl, rfl, ?_⟩
    dsimp only
    rw [(hplace part hpart).1]
    omega
  · intro byte hle hlt
    -- the piece that the byte is in
    let i := (byte - address.byte.toNat) / piece
    have hdivide := Nat.div_add_mod (byte - address.byte.toNat) piece
    have hrest := Nat.mod_lt (byte - address.byte.toNat) hpiece
    have hbegin : i * piece + (byte - address.byte.toNat) % piece = byte - address.byte.toNat := by
      rw [Nat.mul_comm]
      exact hdivide
    have hnumber : i < pieceCount piece total := by
      rw [lt_pieceCount_iff hpiece]
      omega
    have hmem : span piece total i ∈ spans piece total :=
      List.mem_map.mpr ⟨i, List.mem_range.mpr hnumber, rfl⟩
    refine ⟨_, List.mem_map.mpr ⟨_, hmem, rfl⟩, _, List.mem_singleton_self _, _, rfl, rfl, rfl, rfl, ?_⟩
    dsimp only
    rw [(hplace _ hmem).1, (hplace _ hmem).2, span]
    dsimp only
    omega

/-- Where anything can be written, a piece to be written has 28 bytes less than agreed. -/
theorem writePiece_eq (hbudget : 29 ≤ budget.toNat) : writePiece budget = budget.toNat - 28 := by
  rw [writePiece]
  omega

/-- A piece to be read has 18 bytes less than agreed, or 19, as it is even. -/
theorem readPiece_eq (hbudget : 20 ≤ budget.toNat) :
    readPiece budget = 2 * ((budget.toNat - 18) / 2) := by
  rw [readPiece]
  omega

/-- **The fewest messages with which a range can be read**: `(total + room - 1) / room` for `room =
length - 18`, at an agreed length of at least 24 and within what an address can have. There are not
fewer by `pieceCount_le_of_covers`, and so many by pieces of that length, which may be odd. -/
theorem isLeast_readsRange (hbudget : 24 ≤ budget.toNat)
    (hrange : address.byte.toNat + total ≤ maxByteOffset + 1) :
    IsLeast (ReadsRange budget address total) (pieceCount (budget.toNat - 18) total) := by
  have hlt := budget.toNat_lt
  have hpiece : 0 < budget.toNat - 18 := by omega
  constructor
  · refine ⟨_, ?_, covers_spans hpiece (by omega) hrange, ?_⟩
    · rw [List.length_map, spans, List.length_map, List.length_range]
    · intro message hmessage
      obtain ⟨part, hpart, rfl⟩ := List.mem_map.mp hmessage
      have hle := (mem_spans hpiece hpart).2.2
      exact Batch.readAtOnce_iff.mpr
        ⟨(by decide : 1 ≤ Pdu.Access.maxItems), fits_read hbudget address (by omega)⟩
  · rintro k ⟨messages, rfl, hcovers, hmessages⟩
    exact pieceCount_le_of_covers hpiece hcovers fun message hmessage =>
      bytesOf_le_of_readAtOnce (hmessages message hmessage)

/-- **The fewest messages with which a range can be written**: `(total + room - 1) / room` for `room =
length - 28`, at an agreed length of at least 29. The pieces of that length are those that the program
makes. -/
theorem isLeast_writesRange (hbudget : 29 ≤ budget.toNat)
    (hrange : address.byte.toNat + total ≤ maxByteOffset + 1) :
    IsLeast (WritesRange budget address total) (pieceCount (budget.toNat - 28) total) := by
  have hpiece := writePiece_pos budget
  have hshort := writePiece_le budget
  rw [← writePiece_eq hbudget]
  constructor
  -- the pieces of a range of zeros, each with a message of its own
  · let pairs := writesAt address (writePiece budget) (List.replicate total 0)
    have hplaces : pairs.map Prod.fst = (spans (writePiece budget) total).map (itemAt address) := by
      rw [map_fst_writesAt _ _ hpiece, List.length_replicate]
    have hcovers : (pairs.map fun pair => [pair]).map (List.map Prod.fst) =
        (spans (writePiece budget) total).map fun part => [itemAt address part] := by
      rw [List.map_map]
      show pairs.map ((fun item => [item]) ∘ Prod.fst) = _
      rw [← List.map_map, hplaces, List.map_map]
      rfl
    refine ⟨pairs.map fun pair => [pair], ?_, hcovers ▸ covers_spans hpiece hshort hrange, ?_⟩
    · rw [List.length_map, ← List.length_map (f := Prod.fst), hplaces, List.length_map, spans,
        List.length_map, List.length_range]
    · intro message hmessage
      obtain ⟨pair, hpair, rfl⟩ := List.mem_map.mp hmessage
      refine ⟨Batch.writeAtOnce_iff.mpr
        ⟨(by decide : 1 ≤ Pdu.Access.maxItems), fits_write hbudget hpair⟩, ?_⟩
      exact .cons (mem_writesAt hpiece hshort hpair).2.1 .nil
  -- any messages that cover the range are as many at least
  · rintro k ⟨messages, rfl, hcovers, hmessages⟩
    rw [writePiece_eq hbudget] at hpiece ⊢
    rw [← List.length_map (f := List.map Prod.fst)]
    refine pieceCount_le_of_covers hpiece hcovers fun message hmessage => ?_
    obtain ⟨pairs, hpairs, rfl⟩ := List.mem_map.mp hmessage
    obtain ⟨hatOnce, hfilled⟩ := hmessages pairs hpairs
    exact bytesOf_le_of_writeAtOnce hatOnce hfilled

/-! ## The messages that are sent -/

/-- Every piece but the last has the full length, and none is empty. So two neighbours are longer than
a piece. -/
theorem isChain_spans (hpiece : 0 < piece) (total : Nat) :
    (spans piece total).IsChain fun part next => part.2 = piece ∧ 0 < next.2 := by
  refine List.isChain_iff_getElem.mpr fun i hi => ?_
  obtain ⟨hpart, -⟩ := getElem?_spans (List.getElem?_eq_getElem (Nat.lt_of_succ_lt hi))
  obtain ⟨hnext, hnumber⟩ := getElem?_spans (List.getElem?_eq_getElem hi)
  have hbegin := (lt_pieceCount_iff hpiece total (i + 1)).mp hnumber
  rw [Nat.succ_mul] at hbegin
  rw [hpart, hnext, span, span, Nat.succ_mul]
  dsimp only
  omega

/-- The pieces of a range are read one by one. -/
theorem length_runs_of_reads (hbudget : 24 ≤ budget.toNat) {runs : List (List RequestItem)}
    (hplan : Batch.planReads budget ((spans (readPiece budget) total).map (itemAt address)) =
      .ok runs) : runs.length = pieceCount (readPiece budget) total := by
  have hpiece := readPiece_pos budget
  have hshort := readPiece_le budget
  have hlong : budget.toNat ≤ readPiece budget + 19 := by
    rw [readPiece]
    omega
  -- two pieces with their headers are longer than a message, so each item has a run of its own
  have hchain : ((spans (readPiece budget) total).map (itemAt address)).IsChain
      fun item next => ¬ Batch.AtOnce Batch.readDemand budget.toNat [item, next] := by
    rw [List.isChain_map]
    refine (isChain_spans hpiece total).imp_of_mem_imp fun part next _ hnext h hatOnce => ?_
    have hroom := room_of_readAtOnce (Batch.readAtOnce_iff.mpr hatOnce)
    have hlengths : [itemAt address part, itemAt address next].filterMap RequestItem.dataLength? =
        [part.2, next.2] := by
      have hfirst := dataLength_itemAt address (h.1.trans_le hshort)
      have hsecond := dataLength_itemAt address ((mem_spans hpiece hnext).2.2.trans hshort)
      rw [List.filterMap_cons_some hfirst, List.filterMap_cons_some hsecond, List.filterMap_nil]
    simp only [bytesOf, hlengths, List.sum_cons, List.sum_nil, List.length_cons, List.length_nil]
      at hroom
    omega
  obtain ⟨-, rfl⟩ := Batch.plan_eq_ok_iff.mp hplan
  rw [Batch.runs_of_isChain hchain, List.length_map, List.length_map, spans, List.length_map,
    List.length_range]

/-- The pieces of some bytes are written one by one. -/
theorem length_runs_of_writes (hbudget : 29 ≤ budget.toNat)
    {runs : List (List (RequestItem × DataItem))}
    (hplan : Batch.planWrites budget (writesAt address (writePiece budget) bytes) = .ok runs) :
    runs.length = pieceCount (writePiece budget) bytes.length := by
  have hpiece := writePiece_pos budget
  have hshort := writePiece_le budget
  have hlong := writePiece_eq hbudget
  have hplaces := map_fst_writesAt address bytes hpiece
  have hneighbours : (writesAt address (writePiece budget) bytes).IsChain fun pair next =>
      writePiece budget < bytesOf [pair.1, next.1] := by
    rw [← List.isChain_map (f := Prod.fst)
      (R := fun item next => writePiece budget < bytesOf [item, next]), hplaces, List.isChain_map]
    refine (isChain_spans hpiece bytes.length).imp_of_mem_imp fun part next _ hnext h => ?_
    have hfirst := dataLength_itemAt address (h.1.trans_le hshort)
    have hsecond := dataLength_itemAt address ((mem_spans hpiece hnext).2.2.trans hshort)
    rw [bytesOf, List.filterMap_cons_some hfirst, List.filterMap_cons_some hsecond,
      List.filterMap_nil, List.sum_cons, List.sum_singleton]
    omega
  have hchain : (writesAt address (writePiece budget) bytes).IsChain
      fun pair next => ¬ Batch.AtOnce Batch.writeDemand budget.toNat [pair, next] := by
    refine hneighbours.imp_of_mem_imp fun pair next hpair hnext hmore hatOnce => ?_
    have hle := bytesOf_le_of_writeAtOnce (Batch.writeAtOnce_iff.mpr hatOnce)
      (.cons (mem_writesAt hpiece hshort hpair).2.1 (.cons (mem_writesAt hpiece hshort hnext).2.1 .nil))
    rw [← hlong] at hle
    exact absurd hmore (Nat.not_lt.mpr hle)
  obtain ⟨-, rfl⟩ := Batch.plan_eq_ok_iff.mp hplan
  rw [Batch.runs_of_isChain hchain, List.length_map, ← List.length_map (f := Prod.fst), hplaces,
    List.length_map, spans, List.length_map, List.length_range]

end Client

/-! ## Sessions -/

namespace Station

variable {σ : Type} {peer : Peer σ}

/-- Between two moments `count` requests of a kind have been sent, and no other messages; their
references are those that follow on the reference of the session before. -/
def Sends {γ : Type} (request : γ → Request) (count : Nat) (before after : Station σ) : Prop :=
  ∃ runs : List γ, runs.length = count ∧
    (Request.pdus before.session.reference (runs.map request)).length = count ∧
    after.network.messages =
      before.network.messages ++ Request.pdus before.session.reference (runs.map request)

/-- A list that was done with success has sent a request for each of its runs. -/
theorem sends_of_postsRuns {α γ : Type} {call : Call (Station σ) α} {request : γ → Request}
    {runs : List γ} {value : α} {before after : Station σ} (h : PostsRuns call before request runs)
    (hcall : call before = .ok value after) : Sends request runs.length before after := by
  obtain ⟨count, hcount, hposts⟩ := h
  rw [Posts, outcome_of_ok hcall] at hposts
  rw [outcome_of_ok hcall] at hcount
  rw [hcount value rfl, List.take_length] at hposts
  refine ⟨runs, rfl, ?_, hposts.messages⟩
  rcases hposts.sent with hall | ⟨e, _, hend, -⟩
  · rw [hall, List.length_map]
  · cases hend

variable {options : Options} {address : Address} {st after : Station σ} {stream : Stream}

/-- Reading a range with success has sent a request for each piece. -/
theorem sends_readBytesAt (hready : st.session.ReadyOn stream)
    (hmake : Address.make address.area address.block address.byte address.bit = .ok address)
    (harea : address.area.holdsElements = false) (hbudget : 24 ≤ st.session.pduLength.toNat)
    {count : Nat} (hcount : 1 ≤ count) {value : Bytes}
    (hcall : (Client.ofPeer peer options).readBytesAt address count st = .ok value after) :
    Sends Request.read (Client.pieceCount (Client.readPiece st.session.pduLength) count) st after := by
  have hcheck : (Client.ofPeer peer options).channel.checkReady st = .ok () :=
    checkReady_of_ready peer hready.state
  have hpiece := Client.readPiece_pos st.session.pduLength
  have hwithin : ¬ Client.Overruns address (Client.readPiece st.session.pduLength) count := by
    intro hover
    obtain ⟨cause, hcause⟩ := Client.readBytesAt_of_overruns hcheck harea hcount hover
    cases hcause.symm.trans hcall
  let items := (Client.spans (Client.readPiece st.session.pduLength) count).map (Client.itemAt address)
  rw [Client.readBytesAt_of_inside hcheck hmake harea hcount hwithin] at hcall
  obtain ⟨results, middle, hall, hvalue⟩ := ok_of_bind hcall
  cases hvalue
  have hread : Batch.readEach (channel peer) items st = .ok results after := ok_of_bind_check hall
  have hne : items ≠ [] := List.map_eq_nil_iff.not.mpr (Client.spans_ne_nil hpiece hcount)
  obtain ⟨-, runs, hplan⟩ := Batch.planned_of_readEach hne hread
  have hsends := sends_of_postsRuns (postsRuns_readEach hne hready hplan) hread
  rw [Client.length_runs_of_reads hbudget hplan] at hsends
  exact hsends

/-- Writing bytes with success has sent a request for each piece. -/
theorem sends_writeBytesAt (hready : st.session.ReadyOn stream)
    (hmake : Address.make address.area address.block address.byte address.bit = .ok address)
    (harea : address.area.holdsElements = false) (hbudget : 29 ≤ st.session.pduLength.toNat)
    {bytes : Bytes} (hbytes : bytes ≠ [])
    (hcall : (Client.ofPeer peer options).writeBytesAt address bytes st = .ok () after) :
    Sends Request.write (Client.pieceCount (Client.writePiece st.session.pduLength) bytes.length) st
      after := by
  have hcheck : (Client.ofPeer peer options).channel.checkReady st = .ok () :=
    checkReady_of_ready peer hready.state
  have hpiece := Client.writePiece_pos st.session.pduLength
  -- writing has succeeded, so the range lies within the area
  have hwithin : ¬ Client.Overruns address (Client.writePiece st.session.pduLength) bytes.length := by
    intro hover
    obtain ⟨cause, hcause⟩ := Client.writeBytesAt_of_overruns hcheck harea hbytes hover
    cases hcause.symm.trans hcall
  let pairs := Client.writesAt address (Client.writePiece st.session.pduLength) bytes
  rw [Client.writeBytesAt_of_inside hcheck hmake harea hbytes hwithin] at hcall
  obtain ⟨codes, middle, hall, hvalue⟩ := ok_of_bind hcall
  cases hvalue
  have hwrite : Batch.writeEach (channel peer) (pairs.map Prod.fst) (pairs.map Prod.snd) st =
      .ok codes after := ok_of_bind_check hall
  have hfits : ∀ pair ∈ pairs, (Batch.alone Batch.writeDemand pair).fits st.session.pduLength.toNat :=
    fun _ => Client.fits_write hbudget
  have hplan := Batch.plan_eq_ok_iff.mpr ⟨hfits, rfl⟩
  have hsends := sends_of_postsRuns
    (postsRuns_writeEach (Client.writesAt_ne_nil hpiece hbytes) hready hplan) hwrite
  rw [Client.length_runs_of_writes hbudget hplan] at hsends
  exact hsends

/-- **How many requests a range takes.** On a session that is ready on a connection, in an area of
bytes, where the agreed length is at least 29; with `pieces room total = (total + room - 1) / room`:

* A range of `count` bytes that has been read has taken one request for each piece of the largest even
  number of bytes that is at least 18 less than the length, `pieces (2 * ((length - 18) / 2)) count`
  of them.
* The fewest requests that could have read it, if it lies within what addresses can have, are `pieces
  (length - 18) count`; and these it has taken, if the length is even.
* Bytes that have been written have taken `pieces (length - 28) count` requests, which are the fewest
  that could have written them. -/
theorem requests_of_ranges (peer : Peer σ) (options : Options) {text : String} {address : Address}
    {st : Station σ} {stream : Stream} (hready : st.session.ReadyOn stream)
    (hparse : Address.parse text = .ok address) (harea : address.area.holdsElements = false)
    (hbudget : 29 ≤ st.session.pduLength.toNat) :
    let c := Client.ofPeer peer options
    let budget := st.session.pduLength
    (∀ count, 1 ≤ count →
      (∀ value after, c.readBytes text count st = .ok value after →
        Sends .read (Client.pieceCount (2 * ((budget.toNat - 18) / 2)) count) st after ∧
          (budget.toNat % 2 = 0 → Sends .read (Client.pieceCount (budget.toNat - 18) count) st after)) ∧
      (address.byte.toNat + count ≤ maxByteOffset + 1 →
        IsLeast (ReadsRange budget address count) (Client.pieceCount (budget.toNat - 18) count))) ∧
    ∀ bytes, bytes ≠ [] →
      (∀ value after, c.writeBytes text bytes st = .ok value after →
        Sends .write (Client.pieceCount (budget.toNat - 28) bytes.length) st after) ∧
      (address.byte.toNat + bytes.length ≤ maxByteOffset + 1 →
        IsLeast (WritesRange budget address bytes.length)
          (Client.pieceCount (budget.toNat - 28) bytes.length)) := by
  intro c budget
  have hmake := Address.make_of_parse hparse
  refine ⟨fun count hcount => ⟨fun value after hcall => ?_, fun hrange => ?_⟩,
    fun bytes hbytes => ⟨fun value after hcall => ?_, fun hrange => ?_⟩⟩
  · rw [c.readBytes_of_parse hparse] at hcall
    have hsends := sends_readBytesAt hready hmake harea (by omega) hcount hcall
    rw [Client.readPiece_eq (by omega)] at hsends
    refine ⟨hsends, fun heven => ?_⟩
    have hsame : 2 * ((budget.toNat - 18) / 2) = budget.toNat - 18 := by omega
    rw [hsame] at hsends
    exact hsends
  · exact Client.isLeast_readsRange (le_trans (by decide) hbudget) hrange
  · rw [c.writeBytes_of_parse hparse] at hcall
    have hsends := sends_writeBytesAt hready hmake harea hbudget hbytes hcall
    rw [Client.writePiece_eq hbudget] at hsends
    exact hsends
  · exact Client.isLeast_writesRange hbudget hrange

/-- The answer to a request to read, with one item of bytes. -/
def bytesReply (reference : UInt8) (bytes : Bytes) : Reply :=
  { bytes := [3, 0] ++ wordBytes (UInt16.ofNat (25 + bytes.length)) ++ [2, 0xF0, 0x80, 0x32, 3, 0, 0, 0,
      reference, 0, 2] ++ wordBytes (UInt16.ofNat (4 + bytes.length)) ++ [0, 0, 4, 1, 0xFF, 4] ++
      wordBytes (UInt16.ofNat (8 * bytes.length)) ++ bytes }

/-- 13 bytes are read with messages of 30 bytes: this takes two, and cannot be done with one. -/
theorem requests_of_ranges_even :
    let here := greeted 30 [bytesReply 2 (List.replicate 12 7), bytesReply 3 [9]]
    let c := Client.ofPeer scripted here.session.options
    let address : Address := { area := .dataBlock, block := 1, byte := 0, bit := 0 }
    ∃ after, c.readBytes "DB1.DBB0" 13 here = .ok (List.replicate 12 7 ++ [9]) after ∧
      Sends .read 2 here after ∧ IsLeast (ReadsRange 30 address 13) 2 := by
  intro here c address
  have hready : here.session.ReadyOn { unread := [] } := ⟨by decide, by decide⟩
  have hlength : here.session.pduLength = 30 := by decide
  have hparse : Address.parse "DB1.DBB0" = .ok address := by
    decide +kernel
  obtain ⟨after, hcall⟩ : ∃ after, c.readBytes "DB1.DBB0" 13 here =
      .ok (List.replicate 12 7 ++ [9]) after := by
    have hvalue : ((c.readBytes "DB1.DBB0" 13).outcome here).1 =
        .ok (List.replicate 12 7 ++ [9]) := by
      decide +kernel
    exact ⟨_, ok_of_outcome (Prod.ext hvalue rfl)⟩
  have hrequests := (requests_of_ranges scripted here.session.options hready hparse rfl
    (by rw [hlength]; decide)).1 13 (by decide)
  rw [hlength] at hrequests
  exact ⟨after, hcall, (hrequests.1 _ _ hcall).1, hrequests.2 (by decide)⟩

/-- 11 bytes are read with messages of 29 bytes: it takes two, where one would do. -/
theorem one_request_more :
    let here := greeted 29 [bytesReply 2 (List.replicate 10 7), bytesReply 3 [9]]
    let c := Client.ofPeer scripted here.session.options
    let address : Address := { area := .dataBlock, block := 1, byte := 0, bit := 0 }
    let (outcome, after) := (c.readBytes "DB1.DBB0" 11).outcome here
    here.session.state = .ready ∧ outcome = .ok (List.replicate 10 7 ++ [9]) ∧
      after.network.messages.length = here.network.messages.length + 2 ∧
      1 ∈ ReadsRange here.session.pduLength address 11 := by
  intro here c address
  have hlength : here.session.pduLength = 29 := by decide
  refine ⟨by decide, by decide +kernel, by decide +kernel, ?_⟩
  rw [hlength]
  exact (Client.isLeast_readsRange (by decide) (by decide)).1

end Station

end S7Comm
