import S7Comm.Proofs.SinglePlace

/-!
# Tilings of a range

A range of bytes is divided into pieces. What has to be right about them is that they are the range:
the first begins where it begins, each of the others where the one before it ends, the last ends where
the range ends, and none of the numbers that say so is cut off on its way into an item.

* `Tiles address piece offset items stop`: the items ask for the bytes from `offset` behind the
  address on up to `stop`, one behind the other, each for 1 to `piece` bytes, in the area and block of
  the address and with bit 0.
* `Filled items data`: the data have just the bytes that the items are about.
* `Client.Overruns address piece total`: a piece begins behind the last byte that an address can have,
  `maxByteOffset < address.byte + offset`.

**Main results.**

* `Client.tiles_spans`: the items of a range are a tiling of it, whether they are to be read or to be
  written, as bytes are cut where a range of as many bytes is divided (`Client.spans_of_pieces`).
* `Client.rangeItems_of_inside`, `Client.rangeItems_of_overruns`, and the same for `rangeWrites`:
  there are items exactly if no piece overruns.
* `Client.numbers_of_spans`: up to the first piece that overruns, the numbers of offsets and lengths
  fit the words for them.

It is not asked where the last piece ends: a range may end behind the last byte that an address can
have, and a controller will refuse it.
-/

namespace S7Comm

open Call

/-! ## Tilings -/

/-- Some items ask for bytes, one behind the other: from an offset behind an address on, up to
another, and none for more than a piece. -/
inductive Tiles (address : Address) (piece : Nat) : Nat → List RequestItem → Nat → Prop where
  /-- Nothing is left. -/
  | done (offset : Nat) : Tiles address piece offset [] offset
  /-- The first item begins at the offset, and the others where it ends. -/
  | next {offset stop : Nat} {byte : UInt32} {count : UInt16} {items : List RequestItem} :
    byte.toNat = address.byte.toNat + offset → 1 ≤ count.toNat → count.toNat ≤ piece →
    Tiles address piece (offset + count.toNat) items stop →
    Tiles address piece offset
      (.standard { address := { address with byte, bit := 0 }, type := .byte, count } :: items) stop

/-- There is a payload for each item of a list, with just the bytes that the item is about. -/
def Filled (items : List RequestItem) (data : List DataItem) : Prop :=
  List.Forall₂ (fun item filling => item.dataLength? = some filling.payload.length) items data

/-- The payloads of a tiling are as long as what is tiled, `stop - offset` bytes in all. By induction
on the tiling. -/
theorem Tiles.length_payloads {address : Address} {piece offset stop : Nat}
    {items : List RequestItem} {data : List DataItem} (h : Tiles address piece offset items stop)
    (hdata : Filled items data) : offset + (data.flatMap DataItem.payload).length = stop := by
  induction h generalizing data with
  | done offset =>
    cases hdata
    rfl
  | @next offset stop byte count items _ _ _ _ ih =>
    cases hdata with
    | @cons _ filling _ data hfirst hrest =>
      have hlength : count.toNat * 1 = filling.payload.length := Option.some.inj hfirst
      have htail := ih hrest
      rw [List.flatMap_cons, List.length_append]
      omega

namespace Client

/-! ## Pieces and their items

Piece `i` of a range is the one from `i * piece` on, and has what is left, but not more than `piece`
bytes (`getElem?_spans`). Its item is one of bytes, if it begins within the area.
-/

/-- The item for a piece, which is given by its offset and its length. -/
def itemAt (address : Address) (part : Nat × Nat) : RequestItem :=
  .standard
    { address := { address with byte := UInt32.ofNat (address.byte.toNat + part.1), bit := 0 }
      type := .byte
      count := UInt16.ofNat part.2 }

/-- The item asks for as many bytes as the piece has, if these are a number of 16 bits. -/
theorem dataLength_itemAt (address : Address) {part : Nat × Nat} (h : part.2 ≤ 65535) :
    (itemAt address part).dataLength? = some part.2 := by
  have hcount : (UInt16.ofNat part.2).toNat = part.2 :=
    UInt16.toNat_ofNat_of_lt' (Nat.lt_succ_of_le h)
  show some ((UInt16.ofNat part.2).toNat * 1) = some part.2
  rw [hcount, Nat.mul_one]

/-- A piece of a range begins behind the last byte that an address can have. -/
def Overruns (address : Address) (piece total : Nat) : Prop :=
  ∃ part ∈ spans piece total, maxByteOffset < address.byte.toNat + part.1

variable {address : Address} {piece total : Nat} {bytes : Bytes}

/-- A piece begins within its range, has a byte, and is not longer than a piece. -/
theorem mem_spans (hpiece : 0 < piece) {part : Nat × Nat} (h : part ∈ spans piece total) :
    part.1 < total ∧ 0 < part.2 ∧ part.2 ≤ piece := by
  obtain ⟨i, hi, rfl⟩ := List.mem_map.mp h
  have hbegin := (lt_pieceCount_iff hpiece total i).mp (List.mem_range.mp hi)
  simp only [span]
  omega

/-- The pieces of a range stand in the order of their numbers: the one in position `i` is `span piece
total i`, from `i * piece` on. -/
theorem getElem?_spans {i : Nat} {part : Nat × Nat} (h : (spans piece total)[i]? = some part) :
    part = span piece total i ∧ i < pieceCount piece total := by
  rw [spans, List.getElem?_map, Option.map_eq_some_iff] at h
  obtain ⟨j, hj, rfl⟩ := h
  obtain ⟨hi, rfl⟩ := List.getElem?_eq_some_iff.mp hj
  rw [List.getElem_range]
  exact ⟨rfl, hi.trans_eq List.length_range⟩

/-- A range that has a byte has a piece. -/
theorem spans_ne_nil (hpiece : 0 < piece) (htotal : 0 < total) : spans piece total ≠ [] := by
  have hfirst : 0 < pieceCount piece total := by
    rw [lt_pieceCount_iff hpiece, Nat.zero_mul]
    exact htotal
  rw [spans, ← List.length_pos_iff_ne_nil, List.length_map, List.length_range]
  exact hfirst

/-- A piece of 1 to 65535 bytes that begins within an area of bytes has an item, and this is `itemAt
address part`. That the piece ends there too is not asked for. -/
theorem pieceItem_of_inside
    (hmake : Address.make address.area address.block address.byte address.bit = .ok address)
    (harea : address.area.holdsElements = false) {part : Nat × Nat}
    (hinside : address.byte.toNat + part.1 ≤ maxByteOffset) (hpos : 0 < part.2)
    (hshort : part.2 ≤ 65535) : pieceItem address part = .ok (itemAt address part) := by
  have hcount : UInt16.ofNat part.2 ≠ 0 := by
    intro hzero
    have hnumber := congrArg UInt16.toNat hzero
    rw [UInt16.toNat_ofNat_of_lt' (Nat.lt_succ_of_le hshort)] at hnumber
    exact hpos.ne' hnumber
  have hbit : ¬ (0 : UInt8) > 7 := by decide
  have hbytes : ∀ byte, StandardItem.bytes { address with byte, bit := 0 } (UInt16.ofNat part.2) =
      .ok { address := { address with byte, bit := 0 }, type := .byte, count := UInt16.ofNat part.2 } := by
    intro byte
    unfold StandardItem.bytes
    split
    · next htimer => rw [show address.area = .timer from htimer] at harea; cases harea
    · next hcounter => rw [show address.area = .counter from hcounter] at harea; cases harea
    · dsimp only
      rw [StandardItem.make, if_neg hcount, if_neg hbit]
  rw [pieceItem, advance_of_inside hmake hinside]
  show (StandardItem.bytes _ _ >>= _) = _
  rw [hbytes]
  rfl

/-- A piece that begins behind an area has none. -/
theorem pieceItem_of_outside {part : Nat × Nat}
    (hout : maxByteOffset < address.byte.toNat + part.1) :
    ∃ cause, pieceItem address part = .error cause := by
  have hbit : ¬ (0 : UInt8) > 7 := by decide
  have hsmall : min (address.byte.toNat + part.1) 4294967295 < 2 ^ 32 := by omega
  have hbyte : (UInt32.ofNat (min (address.byte.toNat + part.1) 4294967295)).toNat > maxByteOffset := by
    rw [UInt32.toNat_ofNat_of_lt' hsmall]
    rw [maxByteOffset] at hout ⊢
    omega
  rw [pieceItem, Address.advance, Address.make, if_neg hbit, if_pos hbyte]
  exact ⟨_, rfl⟩

/-! ## The items of a range

Reading and writing make their items in two ways, from numbers and from bytes that have been cut. That
the two agree is the longer part of this section; afterwards each is looked at through `itemAt`.
-/

/-- **The pieces of a range are a tiling of it**, from the offset zero to `total`, if all of them
begin within the area and are 1 to 65535 bytes long. By induction on the pieces that are left: piece
`i` ends at `(i + 1) * piece`, where the next begins, or at `total`, and then there is no next. -/
theorem tiles_spans (hpiece : 0 < piece) (hshort : piece ≤ 65535)
    (hinside : ∀ part ∈ spans piece total, address.byte.toNat + part.1 ≤ maxByteOffset) :
    Tiles address piece 0 ((spans piece total).map (itemAt address)) total := by
  -- the induction is on the pieces that are left
  have hrest : ∀ n i, i + n = pieceCount piece total →
      Tiles address piece (min (i * piece) total)
        ((List.range' i n).map fun i => itemAt address (span piece total i)) total := by
    intro n
    induction n with
    | zero =>
      intro i hi
      have hend : ¬ i * piece < total := by
        rw [← lt_pieceCount_iff hpiece, ← hi]
        exact Nat.lt_irrefl i
      rw [Nat.min_eq_right (Nat.not_lt.mp hend)]
      exact .done total
    | succ n ih =>
      intro i hi
      have hnumber : i < pieceCount piece total := by omega
      have hbegin := (lt_pieceCount_iff hpiece total i).mp hnumber
      have hmem : span piece total i ∈ spans piece total :=
        List.mem_map.mpr ⟨i, List.mem_range.mpr hnumber, rfl⟩
      obtain ⟨-, hpos, hle⟩ := mem_spans hpiece hmem
      have hbyte : (UInt32.ofNat (address.byte.toNat + (span piece total i).1)).toNat =
          address.byte.toNat + i * piece :=
        UInt32.toNat_ofNat_of_lt' (Nat.lt_of_le_of_lt (hinside _ hmem) (by decide))
      have hcount : (UInt16.ofNat (span piece total i).2).toNat = (span piece total i).2 :=
        UInt16.toNat_ofNat_of_lt' (Nat.lt_succ_of_le (hle.trans hshort))
      have hnext : i * piece + (span piece total i).2 = min ((i + 1) * piece) total := by
        rw [span, Nat.succ_mul]
        dsimp only
        omega
      rw [List.range'_succ, List.map_cons, Nat.min_eq_left hbegin.le]
      refine .next hbyte (hpos.trans_eq hcount.symm) (hcount.trans_le hle) ?_
      rw [hcount, hnext]
      exact ih (i + 1) (by omega)
  have hall := hrest (pieceCount piece total) 0 (Nat.zero_add _)
  rw [Nat.zero_mul, Nat.zero_min, ← List.range_eq_range'] at hall
  rw [spans, List.map_map]
  exact hall

/-- The items of a range of which all pieces begin within the area are those of its pieces, in their
order; so the range is not refused. -/
theorem rangeItems_of_inside
    (hmake : Address.make address.area address.block address.byte address.bit = .ok address)
    (harea : address.area.holdsElements = false) (hpiece : 0 < piece) (hshort : piece ≤ 65535)
    (hinside : ¬ Overruns address piece total) :
    rangeItems address piece total = .ok ((spans piece total).map (itemAt address)) := by
  rw [rangeItems_eq_mapM]
  refine mapM_eq_ok fun part hpart => ?_
  obtain ⟨-, hpos, hle⟩ := mem_spans hpiece hpart
  have hlast : address.byte.toNat + part.1 ≤ maxByteOffset :=
    Nat.not_lt.mp fun hout => hinside ⟨part, hpart, hout⟩
  exact pieceItem_of_inside hmake harea hlast hpos (hle.trans hshort)

/-- A range of which a piece begins behind the area has no items: it is refused at the first such
piece, whichever come after it. -/
theorem rangeItems_of_overruns (h : Overruns address piece total) :
    ∃ cause, rangeItems address piece total = .error cause := by
  obtain ⟨part, hpart, hout⟩ := h
  obtain ⟨cause, hcause⟩ := pieceItem_of_outside hout
  rw [rangeItems_eq_mapM]
  exact exists_error_of_mapM hpart hcause

/-- Pieces that have been cut off before stay in front. -/
theorem piecesFrom_eq (piece : Nat) (done : List Bytes) (bytes : Bytes) :
    piecesFrom piece done bytes = done.reverse ++ pieces piece bytes := by
  have hfront : ∀ front done, piecesFrom piece (done ++ front) bytes =
      front.reverse ++ piecesFrom piece done bytes := by
    intro front done
    fun_induction piecesFrom piece done bytes with
    | case1 done => rw [piecesFrom, List.reverse_append]
    | case2 done byte rest ih => rw [piecesFrom, ← ih, List.cons_append]
  exact hfront done []

/-- The first piece of some bytes, and the pieces of the others. This is the form in which pieces are
reasoned about below; they are computed with those cut off before in an accumulator (`piecesFrom_eq`).
-/
theorem pieces_cons (hpiece : 0 < piece) (byte : UInt8) (rest : Bytes) :
    pieces piece (byte :: rest) =
      (byte :: rest).take piece :: pieces piece ((byte :: rest).drop piece) := by
  obtain ⟨less, rfl⟩ : ∃ less, piece = less + 1 := Nat.exists_eq_succ_of_ne_zero hpiece.ne'
  rw [pieces, piecesFrom, piecesFrom_eq]
  rfl

/-- Bytes are cut where a range of as many bytes is divided: the pieces of `bytes`, each with its
number times `piece` as its offset, and with its length, are `spans piece bytes.length`. By induction
on the bytes that are left, behind some pieces that have been cut off. -/
theorem spans_of_pieces (hpiece : 0 < piece) (bytes : Bytes) :
    ((pieces piece bytes).zipIdx.map fun part => (part.2 * piece, part.1.length)) =
      spans piece bytes.length := by
  -- the induction is on the bytes that are left, behind some pieces that have been cut off
  have hrest : ∀ length i (bytes : Bytes), bytes.length = length →
      (((pieces piece bytes).zipIdx i).map fun part => (part.2 * piece, part.1.length)) =
        (List.range' i (pieceCount piece length)).map (span piece (i * piece + length)) := by
    intro length
    induction length using Nat.strong_induction_on with
    | _ length ih =>
      intro i bytes hlength
      cases bytes with
      | nil =>
        have hnone : pieceCount piece length = 0 := by
          rw [← hlength, pieceCount, List.length_nil]
          exact Nat.div_eq_of_lt (by omega)
        rw [hnone, pieces, piecesFrom]
        rfl
      | cons byte rest =>
        have hpos : 0 < length := by
          rw [← hlength]
          exact Nat.succ_pos _
        have hleft : ((byte :: rest).drop piece).length = length - piece := by
          rw [List.length_drop, hlength]
        have hcount : pieceCount piece length = pieceCount piece (length - piece) + 1 := by
          rcases Nat.lt_or_ge piece length with hmore | hlast
          · rw [pieceCount, pieceCount, ← Nat.add_div_right _ hpiece]
            congr 1
            omega
          · rw [pieceCount, pieceCount, Nat.sub_eq_zero_of_le hlast,
              Nat.div_eq_of_lt (by omega : 0 + piece - 1 < piece)]
            exact Nat.div_eq_of_lt_le (by omega) (by omega)
        have hbehind := ih (length - piece) (by omega) (i + 1) _ hleft
        rw [pieces_cons hpiece, List.zipIdx_cons, List.map_cons, hbehind, hcount, List.range'_succ,
          List.map_cons]
        have hfirst : (i * piece, ((byte :: rest).take piece).length) =
            span piece (i * piece + length) i := by
          rw [span, List.length_take, hlength, Nat.add_sub_cancel_left]
        refine congrArg₂ List.cons hfirst ?_
        rcases Nat.lt_or_ge piece length with hmore | hlast
        · rw [Nat.succ_mul, Nat.add_assoc, Nat.add_sub_cancel' hmore.le]
        · have hnone : pieceCount piece (length - piece) = 0 := by
            rw [pieceCount, Nat.sub_eq_zero_of_le hlast]
            exact Nat.div_eq_of_lt (by omega)
          rw [hnone]
          rfl
  have hall := hrest bytes.length 0 bytes rfl
  rw [Nat.zero_mul, Nat.zero_add, ← List.range_eq_range'] at hall
  exact hall

/-- The items of the pieces of some bytes, with their data. -/
def writesAt (address : Address) (piece : Nat) (bytes : Bytes) : List (RequestItem × DataItem) :=
  (pieces piece bytes).zipIdx.map fun part =>
    (itemAt address (part.2 * piece, part.1.length), .ofBytes part.1)

/-- They are the items of a range of as many bytes. -/
theorem map_fst_writesAt (address : Address) (bytes : Bytes) (hpiece : 0 < piece) :
    (writesAt address piece bytes).map Prod.fst = (spans piece bytes.length).map (itemAt address) := by
  rw [writesAt, ← spans_of_pieces hpiece, List.map_map, List.map_map]
  rfl

/-- Each item takes 12 bytes, is for just the bytes that it has, and these are not more than a piece.
-/
theorem mem_writesAt (hpiece : 0 < piece) (hshort : piece ≤ 65535) {pair : RequestItem × DataItem}
    (h : pair ∈ writesAt address piece bytes) :
    pair.1.encodedLength = 12 ∧ pair.1.dataLength? = some pair.2.payload.length ∧
      pair.2.payload.length ≤ piece := by
  obtain ⟨part, hpart, rfl⟩ := List.mem_map.mp h
  have hspan : (part.2 * piece, part.1.length) ∈ spans piece bytes.length := by
    rw [← spans_of_pieces hpiece]
    exact List.mem_map.mpr ⟨part, hpart, rfl⟩
  obtain ⟨-, -, hle⟩ := mem_spans hpiece hspan
  exact ⟨rfl, dataLength_itemAt address (hle.trans hshort), hle⟩

/-- Some bytes have a piece. -/
theorem writesAt_ne_nil (hpiece : 0 < piece) (hbytes : bytes ≠ []) :
    writesAt address piece bytes ≠ [] := by
  intro hnil
  have hspans := map_fst_writesAt address bytes hpiece
  rw [hnil, List.map_nil] at hspans
  exact spans_ne_nil hpiece (List.length_pos_of_ne_nil hbytes) (List.map_eq_nil_iff.mp hspans.symm)

/-- The items and the data of a range of which all pieces begin within the area. -/
theorem rangeWrites_of_inside
    (hmake : Address.make address.area address.block address.byte address.bit = .ok address)
    (harea : address.area.holdsElements = false) (hpiece : 0 < piece) (hshort : piece ≤ 65535)
    (hinside : ¬ Overruns address piece bytes.length) :
    rangeWrites address piece bytes = .ok (writesAt address piece bytes) := by
  refine mapM_eq_ok fun part hpart => ?_
  have hspan : (part.2 * piece, part.1.length) ∈ spans piece bytes.length := by
    rw [← spans_of_pieces hpiece]
    exact List.mem_map.mpr ⟨part, hpart, rfl⟩
  obtain ⟨-, hpos, hle⟩ := mem_spans hpiece hspan
  have hlast : address.byte.toNat + part.2 * piece ≤ maxByteOffset :=
    Nat.not_lt.mp fun hout => hinside ⟨_, hspan, hout⟩
  show (pieceItem address (part.2 * piece, part.1.length) >>= _) = _
  rw [pieceItem_of_inside hmake harea hlast hpos (hle.trans hshort)]
  rfl

/-- A range that reaches further has none. -/
theorem rangeWrites_of_overruns (hpiece : 0 < piece) (h : Overruns address piece bytes.length) :
    ∃ cause, rangeWrites address piece bytes = .error cause := by
  obtain ⟨span, hspan, hout⟩ := h
  rw [← spans_of_pieces hpiece] at hspan
  obtain ⟨part, hpart, rfl⟩ := List.mem_map.mp hspan
  obtain ⟨cause, hcause⟩ := pieceItem_of_outside hout
  refine exists_error_of_mapM hpart (e := cause) ?_
  show (pieceItem address (part.2 * piece, part.1.length) >>= _) = _
  rw [hcause]
  rfl

/-- As long as all pieces before it begin within the area, the offset of a piece is a number of 32
bits, and its length one of 16: `(UInt32.ofNat offset).toNat = offset`, and so for the length. For the
piece before it begins below `2 ^ 21`, and is not longer than 65535 bytes; so nothing is cut off of
the offset at which a piece is refused, either. -/
theorem numbers_of_spans (hpiece : 0 < piece) (hshort : piece ≤ 65535)
    {front behind : List (Nat × Nat)} {part : Nat × Nat}
    (h : spans piece total = front ++ part :: behind)
    (hinside : ∀ before ∈ front, address.byte.toNat + before.1 ≤ maxByteOffset) :
    (UInt32.ofNat part.1).toNat = part.1 ∧ (UInt16.ofNat part.2).toNat = part.2 := by
  have hpart : part = span piece total front.length := by
    refine (getElem?_spans ?_).1
    rw [h, List.getElem?_append_right (Nat.le_refl _), Nat.sub_self]
    rfl
  have hmem : part ∈ spans piece total := by
    rw [h]
    exact List.mem_append_right _ List.mem_cons_self
  obtain ⟨-, -, hle⟩ := mem_spans hpiece hmem
  refine ⟨?_, UInt16.toNat_ofNat_of_lt' (Nat.lt_succ_of_le (hle.trans hshort))⟩
  have hoffset : part.1 < 4294967296 := by
    rcases List.eq_nil_or_concat front with rfl | ⟨front, before, rfl⟩
    · rw [hpart, span, List.length_nil, Nat.zero_mul]
      exact Nat.two_pow_pos 32
    · -- the piece in front of it begins within the area, and is not long
      have hbefore : before = span piece total front.length := by
        refine (getElem?_spans ?_).1
        rw [h, List.concat_eq_append, List.append_assoc,
          List.getElem?_append_right (Nat.le_refl _), Nat.sub_self]
        rfl
      have hlast := hinside before (by simp)
      rw [hbefore, span, maxByteOffset] at hlast
      rw [hpart, span, List.concat_eq_append, List.length_append, List.length_singleton, Nat.succ_mul]
      dsimp only at hlast ⊢
      omega
  exact UInt32.toNat_ofNat_of_lt' hoffset

end Client

end S7Comm
