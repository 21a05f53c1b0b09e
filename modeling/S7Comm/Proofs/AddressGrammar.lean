import Mathlib.Data.List.TakeWhile
import S7Comm.Address.Parser
import S7Comm.Proofs.Composition

/-!
# The grammar of addresses

Which texts are addresses, and what they denote, said without a parser.

* `Address.Numeral cs n`: a numeral is a run of digits, at least one, and denotes a number; leading
  zeros are allowed.
* `Address.Offset`, `Address.Place`: a place has the numeral of a byte, at most `maxByteOffset`, and
  may have that of a bit, at most 7, behind a point. In front of it may stand the letter of its size,
  X, B, W or D, and with one of the last three there is no bit.
* `Address.Written cs a`: an address is a letter and a place, a letter and a number (`placeLetters`,
  `elementLetters`), or the letters of a data block, its number, a point and a place, in front of
  which the letters may stand again (`Address.BlockPlace`).

There is one lemma for each function of the parser, with an equivalence: `parseOffset_eq_ok_iff`,
`parsePlace_eq_ok_iff`, `parseElement_eq_ok_iff`, `parseBlock_eq_ok_iff`, `parseUpper_eq_ok_iff`.

**Main result** (`Address.parse_course`): the parser takes every address of the grammar, for what it
denotes. It takes no other text but those in which a plus stands in front of the number of a data
block, and it passes over that plus. Which of its errors a text is refused with is not said, but that
the error repeats the text.
-/

namespace S7Comm

open Call

/-! ## Numerals -/

/-- A text is a run of digits, at least one, and denotes a number. -/
structure Address.Numeral (cs : List Char) (n : Nat) : Prop where
  /-- There is a digit. -/
  nonempty : cs ≠ []
  /-- There is nothing else. -/
  digits : ∀ c ∈ cs, c.isDigit = true
  /-- The number that they denote. -/
  value : Decimal.value cs = n

/-- The reader of numbers takes exactly the numerals, each for its number, however long it is. -/
theorem Decimal.parse?_eq_some_iff {cs : List Char} {n : Nat} :
    parse? cs = some n ↔ Address.Numeral cs n := by
  unfold parse?
  constructor
  · intro h
    split at h
    · next hdigits =>
      exact ⟨hdigits.1, List.all_eq_true.mp hdigits.2, Option.some.inj h⟩
    · cases h
  · intro h
    rw [if_pos ⟨h.nonempty, List.all_eq_true.mpr h.digits⟩, h.value]

namespace Address

/-- There is no point in a numeral. -/
theorem Numeral.point_not_mem {cs : List Char} {n : Nat} (h : Numeral cs n) : '.' ∉ cs := by
  intro hpoint
  exact absurd (h.digits '.' hpoint) (by decide)

/-- What is not a digit does not begin a numeral. -/
theorem not_numeral_cons {c : Char} (hc : c.isDigit = false) {cs : List Char} {n : Nat} :
    ¬ Numeral (c :: cs) n := by
  intro h
  rw [h.digits c List.mem_cons_self] at hc
  cases hc

/-! ## Points -/

/-- Where there is no point, each character is another one. -/
theorem ne_point_of_not_mem {cs : List Char} (h : '.' ∉ cs) : ∀ c ∈ cs, (c != '.') = true := by
  intro c hc
  simp only [bne_iff_ne]
  rintro rfl
  exact h hc

/-- Where there is no point, everything stands in front of it. -/
theorem splitPoint_of_not_mem {cs : List Char} (h : '.' ∉ cs) : splitPoint cs = (cs, none) := by
  have hall := ne_point_of_not_mem h
  have hdrop : cs.dropWhile (· != '.') = [] := List.dropWhile_eq_nil_iff.mpr hall
  rw [splitPoint, List.takeWhile_eq_self_iff.mpr hall, hdrop]
  rfl

/-- What stands in front of the first point, and what behind it. There may be more points behind; only
the first divides. -/
theorem splitPoint_append {front : List Char} (h : '.' ∉ front) (behind : List Char) :
    splitPoint (front ++ '.' :: behind) = (front, some behind) := by
  have hall := ne_point_of_not_mem h
  simp [splitPoint, List.takeWhile_append_of_pos hall, List.dropWhile_append_of_pos hall]

/-- A text has no point, or it has a first one. -/
theorem splitPoint_cases (cs : List Char) :
    ('.' ∉ cs ∧ splitPoint cs = (cs, none)) ∨
      ∃ front behind, cs = front ++ '.' :: behind ∧ '.' ∉ front ∧
        splitPoint cs = (front, some behind) := by
  by_cases hpoint : '.' ∈ cs
  · obtain ⟨front, behind, rfl, hfront⟩ := List.eq_append_cons_of_mem hpoint
    exact .inr ⟨front, behind, rfl, hfront, splitPoint_append hfront behind⟩
  · exact .inl ⟨hpoint, splitPoint_of_not_mem hpoint⟩

/-! ## Places

Only the first point of a text matters: what stands in front of it has to be a numeral, and a second
point would have to be part of the numeral behind it, which it cannot be.
-/

/-- The numeral of a byte, behind which that of a bit may follow. -/
inductive Offset : List Char → UInt32 → Option UInt8 → Prop where
  /-- There is only a byte. -/
  | byte {cs : List Char} {byte : UInt32} :
    Numeral cs byte.toNat → byte.toNat ≤ maxByteOffset → Offset cs byte none
  /-- There is a bit, too. -/
  | bit {cs ds : List Char} {byte : UInt32} {bit : UInt8} :
    Numeral cs byte.toNat → byte.toNat ≤ maxByteOffset → Numeral ds bit.toNat → bit.toNat ≤ 7 →
    Offset (cs ++ '.' :: ds) byte (some bit)

/-- A byte and perhaps a bit, with a letter in front or without one. -/
inductive Place : List Char → UInt32 → Option UInt8 → Prop where
  /-- Without a letter. -/
  | plain {cs : List Char} {byte : UInt32} {bit? : Option UInt8} :
    Offset cs byte bit? → Place cs byte bit?
  /-- With the letter of a bit. -/
  | bit {cs : List Char} {byte : UInt32} {bit? : Option UInt8} :
    Offset cs byte bit? → Place ('X' :: cs) byte bit?
  /-- With the letter of whole bytes, and without a bit. -/
  | whole {c : Char} {cs : List Char} {byte : UInt32} :
    c = 'B' ∨ c = 'W' ∨ c = 'D' → Offset cs byte none → Place (c :: cs) byte none

/-- The byte and the bit of a text are those of the grammar: `parseOffset cs = .ok (byte, bit?)`
exactly if `Offset cs byte bit?`. Without a point the text is a numeral of at most `maxByteOffset`,
and there is no bit; with one it is such a numeral in front of the point, and behind it a numeral of
at most 7. -/
theorem parseOffset_eq_ok_iff {cs : List Char} {byte : UInt32} {bit? : Option UInt8} :
    parseOffset cs = .ok (byte, bit?) ↔ Offset cs byte bit? := by
  constructor
  -- the parser has taken a number in front of the first point, and perhaps one behind it
  · intro h
    unfold parseOffset at h
    dsimp only at h
    split at h
    · cases h
    · next number hnumber =>
      split at h
      · cases h
      · next hrange =>
        have hnumeral := Decimal.parse?_eq_some_iff.mp hnumber
        have hmax : number ≤ maxByteOffset := Nat.not_lt.mp hrange
        have hbyte : (UInt32.ofNat number).toNat = number :=
          UInt32.toNat_ofNat_of_lt' (Nat.lt_of_le_of_lt hmax (by decide))
        -- the number is small, so that it is that of its word
        rw [← hbyte] at hnumeral hmax
        rcases splitPoint_cases cs with ⟨-, hsplit⟩ | ⟨front, behind, rfl, -, hsplit⟩
        · rw [hsplit] at h hnumeral
          cases h
          exact .byte hnumeral hmax
        · rw [hsplit] at h hnumeral
          dsimp only at h
          split at h
          · cases h
          · next bit hbit =>
            split at h
            · cases h
            · next hseven =>
              have hbitNumeral := Decimal.parse?_eq_some_iff.mp hbit
              have hle : bit ≤ 7 := Nat.not_lt.mp hseven
              have hvalue : (UInt8.ofNat bit).toNat = bit :=
                UInt8.toNat_ofNat_of_lt' (Nat.lt_of_le_of_lt hle (by decide))
              rw [← hvalue] at hbitNumeral hle
              cases h
              exact .bit hnumeral hmax hbitNumeral hle
  · intro h
    -- a numeral has no point, so the first point is the one in front of the bit
    cases h with
    | byte hnumeral hmax =>
      rw [parseOffset, splitPoint_of_not_mem hnumeral.point_not_mem]
      dsimp only
      rw [Decimal.parse?_eq_some_iff.mpr hnumeral]
      dsimp only
      rw [if_neg (Nat.not_lt.mpr hmax), UInt32.ofNat_toNat]
    | bit hnumeral hmax hbit hle =>
      rw [parseOffset, splitPoint_append hnumeral.point_not_mem]
      dsimp only
      rw [Decimal.parse?_eq_some_iff.mpr hnumeral, Decimal.parse?_eq_some_iff.mpr hbit]
      dsimp only
      rw [if_neg (Nat.not_lt.mpr hmax), if_neg (Nat.not_lt.mpr hle), UInt32.ofNat_toNat,
        UInt8.ofNat_toNat]

/-- The numeral of a byte begins with a digit. -/
theorem Offset.exists_digit {cs : List Char} {byte : UInt32} {bit? : Option UInt8}
    (h : Offset cs byte bit?) : ∃ c rest, cs = c :: rest ∧ c.isDigit = true := by
  have hnumeral : ∀ {ds : List Char} {n : Nat}, Numeral ds n →
      ∃ c rest, ds = c :: rest ∧ c.isDigit = true := by
    intro ds n hds
    obtain ⟨c, rest, rfl⟩ := List.exists_cons_of_ne_nil hds.nonempty
    exact ⟨c, rest, rfl, hds.digits c List.mem_cons_self⟩
  cases h with
  | byte hbyte _ => exact hnumeral hbyte
  | bit hbyte _ _ _ =>
    obtain ⟨c, rest, rfl, hc⟩ := hnumeral hbyte
    exact ⟨c, _, rfl, hc⟩

/-- What is not a digit does not begin the numeral of a byte. -/
theorem not_offset_cons {c : Char} (hc : c.isDigit = false) {cs : List Char} {byte : UInt32}
    {bit? : Option UInt8} : ¬ Offset (c :: cs) byte bit? := by
  intro h
  obtain ⟨d, rest, heq, hd⟩ := h.exists_digit
  cases heq
  rw [hc] at hd
  cases hd

/-- Two letters do not begin a place, as the first could only be that of the size, behind which a
digit has to stand. So the letters of a data block are not taken for a place. -/
theorem not_place_of_letters {c d : Char} (hc : c.isDigit = false) (hd : d.isDigit = false)
    {cs : List Char} {byte : UInt32} {bit? : Option UInt8} : ¬ Place (c :: d :: cs) byte bit? := by
  intro h
  cases h with
  | plain hoffset => exact not_offset_cons hc hoffset
  | bit hoffset => exact not_offset_cons hd hoffset
  | whole _ hoffset => exact not_offset_cons hd hoffset

/-- A letter for the size of the access stands in front, X, B, W or D, and is split off, or there is
none, and nothing is. -/
theorem splitSize_cases (cs : List Char) :
    (∃ c rest, cs = c :: rest ∧ (c = 'X' ∨ c = 'B' ∨ c = 'W' ∨ c = 'D') ∧
      splitSize cs = (some c, rest)) ∨ splitSize cs = (none, cs) := by
  cases cs with
  | nil => exact .inr rfl
  | cons c rest =>
    by_cases hletter : c = 'X' ∨ c = 'B' ∨ c = 'W' ∨ c = 'D'
    · exact .inl ⟨c, rest, rfl, hletter, if_pos hletter⟩
    · exact .inr (if_neg hletter)

/-- What is made of the letter and of what stands behind it: an address with the byte and the bit, or
with the bit 0 where none is written, unless there is a bit behind the letter of whole bytes. -/
theorem parsePlace_of_splitSize {area : Area} {block : UInt16} {cs offset : List Char}
    {size? : Option Char} (hsplit : splitSize cs = (size?, offset)) {a : Address} :
    parsePlace area block cs = .ok a ↔
      ∃ byte bit?, Offset offset byte bit? ∧
        ¬ (bit?.isSome = true ∧ (size? = some 'B' ∨ size? = some 'W' ∨ size? = some 'D')) ∧
        a = { area, block, byte, bit := bit?.getD 0 } := by
  unfold parsePlace
  rw [hsplit]
  simp only [except_bind_eq_ok_iff, guard_eq_ok_iff]
  constructor
  · rintro ⟨⟨byte, bit?⟩, hoffset, hguard, hend⟩
    cases hend
    exact ⟨byte, bit?, parseOffset_eq_ok_iff.mp hoffset, hguard, rfl⟩
  · rintro ⟨byte, bit?, hoffset, hguard, rfl⟩
    exact ⟨(byte, bit?), parseOffset_eq_ok_iff.mpr hoffset, hguard, rfl⟩

/-- Behind a letter stands a byte, and with the letter of whole bytes no bit. -/
theorem place_cons_iff {c : Char} (hletter : c = 'X' ∨ c = 'B' ∨ c = 'W' ∨ c = 'D')
    {rest : List Char} {byte : UInt32} {bit? : Option UInt8} :
    Place (c :: rest) byte bit? ↔ Offset rest byte bit? ∧
      ¬ (bit?.isSome = true ∧ (c = 'B' ∨ c = 'W' ∨ c = 'D')) := by
  constructor
  · intro h
    cases h with
    | plain hoffset =>
      have hc : c.isDigit = false := by rcases hletter with rfl | rfl | rfl | rfl <;> decide
      exact absurd hoffset (not_offset_cons hc)
    | bit hoffset => exact ⟨hoffset, by simp⟩
    | whole _ hoffset => exact ⟨hoffset, by simp⟩
  · rintro ⟨hoffset, hguard⟩
    by_cases hwhole : c = 'B' ∨ c = 'W' ∨ c = 'D'
    · have hnone : bit? = none := by
        rw [← Option.not_isSome_iff_eq_none]
        intro hsome
        exact hguard ⟨hsome, hwhole⟩
      subst hnone
      exact .whole hwhole hoffset
    · obtain rfl := hletter.resolve_right hwhole
      exact .bit hoffset

/-- Without a letter there is only the byte, with or without a bit. -/
theorem place_iff_of_splitSize {cs : List Char} (hsplit : splitSize cs = (none, cs)) {byte : UInt32}
    {bit? : Option UInt8} : Place cs byte bit? ↔ Offset cs byte bit? := by
  constructor
  · intro h
    cases h with
    | plain hoffset => exact hoffset
    | bit _ => simp [splitSize] at hsplit
    | whole hc _ => rcases hc with rfl | rfl | rfl <;> simp [splitSize] at hsplit
  · exact .plain

/-- A place in an area of bytes is that of the grammar: `parsePlace area block cs = .ok a` exactly if
`Place cs byte bit?` for the byte and the bit of `a`, whose area and block are those given. -/
theorem parsePlace_eq_ok_iff {area : Area} {block : UInt16} {cs : List Char} {a : Address} :
    parsePlace area block cs = .ok a ↔
      ∃ byte bit?, Place cs byte bit? ∧ a = { area, block, byte, bit := bit?.getD 0 } := by
  rcases splitSize_cases cs with ⟨c, rest, rfl, hletter, hsplit⟩ | hsplit
  · rw [parsePlace_of_splitSize hsplit]
    simp only [place_cons_iff hletter, Option.some.injEq, and_assoc]
  · rw [parsePlace_of_splitSize hsplit]
    simp only [place_iff_of_splitSize hsplit, reduceCtorEq, or_self, and_false, not_false_eq_true,
      true_and]

/-- The number of a timer or counter is a numeral of at most `maxByteOffset`; it has no bit, and there
is no block. -/
theorem parseElement_eq_ok_iff {area : Area} {cs : List Char} {a : Address} :
    parseElement area cs = .ok a ↔
      ∃ byte : UInt32, Numeral cs byte.toNat ∧ byte.toNat ≤ maxByteOffset ∧
        a = { area, block := 0, byte, bit := 0 } := by
  unfold parseElement
  simp only [except_bind_eq_ok_iff, guard_eq_ok_iff]
  constructor
  · rintro ⟨hpoint, ⟨byte, bit?⟩, hoffset, hend⟩
    cases hend
    cases parseOffset_eq_ok_iff.mp hoffset with
    | byte hnumeral hmax => exact ⟨byte, hnumeral, hmax, rfl⟩
    | bit _ _ _ _ => exact absurd (List.mem_append_right _ List.mem_cons_self) hpoint
  · rintro ⟨byte, hnumeral, hmax, rfl⟩
    exact ⟨hnumeral.point_not_mem, (byte, none), parseOffset_eq_ok_iff.mpr (.byte hnumeral hmax),
      rfl⟩

/-! ## Data blocks

The number of a data block is the one numeral that is read by other rules than the rest, and so it has
a lemma of its own.
-/

/-- The number of a block is a numeral of at most 65535, or one with a plus in front. This is the one
place at which a text can be an address that is not in the grammar. -/
theorem blockNumber?_eq_some_iff {cs : List Char} {block : UInt16} :
    blockNumber? cs = some block ↔
      Numeral cs block.toNat ∨ ∃ ds, cs = '+' :: ds ∧ Numeral ds block.toNat := by
  constructor
  · intro h
    unfold blockNumber? at h
    dsimp only at h
    split at h
    · next number hnumber =>
      split at h
      · next hle =>
        have hvalue : (UInt16.ofNat number).toNat = number :=
          UInt16.toNat_ofNat_of_lt' (Nat.lt_succ_of_le hle)
        cases h
        rw [hvalue]
        split at hnumber
        · next ds => exact .inr ⟨ds, rfl, Decimal.parse?_eq_some_iff.mp hnumber⟩
        · exact .inl (Decimal.parse?_eq_some_iff.mp hnumber)
      · cases h
    · cases h
  -- a numeral does not begin with a plus, so the two ways exclude each other
  · have hrange : (if block.toNat ≤ 65535 then some (UInt16.ofNat block.toNat) else none) =
        some block := by
      rw [if_pos (Nat.le_of_lt_succ block.toNat_lt), UInt16.ofNat_toNat]
    rintro (hnumeral | ⟨ds, rfl, hnumeral⟩)
    · have hplus : ∀ ds, cs ≠ '+' :: ds := by
        rintro ds rfl
        exact not_numeral_cons (by decide) hnumeral
      have hparse := Decimal.parse?_eq_some_iff.mpr hnumeral
      unfold blockNumber?
      dsimp only
      split
      · next number hnumber =>
        split at hnumber
        · exact absurd rfl (hplus _)
        · cases hparse.symm.trans hnumber
          exact hrange
      · next hnone =>
        split at hnone
        · exact absurd rfl (hplus _)
        · cases hparse.symm.trans hnone
    · simp only [blockNumber?, Decimal.parse?_eq_some_iff.mpr hnumeral]
      exact hrange

/-- The number of a block has no point. -/
theorem point_not_mem_of_blockNumber {cs : List Char} {block : UInt16}
    (h : blockNumber? cs = some block) : '.' ∉ cs := by
  rcases blockNumber?_eq_some_iff.mp h with hnumeral | ⟨ds, rfl, hnumeral⟩
  · exact hnumeral.point_not_mem
  · intro hpoint
    rcases List.mem_cons.mp hpoint with heq | hpoint
    · cases heq
    · exact hnumeral.point_not_mem hpoint

/-- What stands behind the point of a data block: a place, in front of which its letters may stand
again. -/
def BlockPlace (cs : List Char) (byte : UInt32) (bit? : Option UInt8) : Prop :=
  Place cs byte bit? ∨ ∃ rest, cs = 'D' :: 'B' :: rest ∧ Place rest byte bit?

/-- There is no place in nothing. -/
theorem not_place_nil {byte : UInt32} {bit? : Option UInt8} : ¬ Place [] byte bit? := by
  intro h
  cases h with
  | plain hoffset =>
    obtain ⟨c, rest, heq, -⟩ := hoffset.exists_digit
    cases heq

/-- What follows the letters of a data block: its number up to the first point, and behind the point a
place, in front of which its letters may stand again. -/
theorem parseBlock_eq_ok_iff {cs : List Char} {a : Address} :
    parseBlock cs = .ok a ↔
      ∃ number place block byte bit?, cs = number ++ '.' :: place ∧
        blockNumber? number = some block ∧ BlockPlace place byte bit? ∧
        a = { area := .dataBlock, block, byte, bit := bit?.getD 0 } := by
  unfold parseBlock
  simp only [guard_eq_ok_iff]
  constructor
  · rintro ⟨-, -, h⟩
    split at h
    · cases h
    · next block hnumber =>
      rcases splitPoint_cases cs with ⟨-, hsplit⟩ | ⟨front, behind, rfl, -, hsplit⟩
      · rw [hsplit] at h
        -- without a point there is nothing behind it, and nothing is no place
        obtain ⟨byte, bit?, hplace, -⟩ := parsePlace_eq_ok_iff.mp h
        exact absurd hplace not_place_nil
      · rw [hsplit] at h hnumber
        dsimp only [Option.getD_some] at h
        -- the letters of the block may stand again behind the point
        split at h
        · next rest =>
          obtain ⟨byte, bit?, hplace, rfl⟩ := parsePlace_eq_ok_iff.mp h
          exact ⟨front, _, block, byte, bit?, rfl, hnumber, .inr ⟨rest, rfl, hplace⟩, rfl⟩
        · obtain ⟨byte, bit?, hplace, rfl⟩ := parsePlace_eq_ok_iff.mp h
          exact ⟨front, behind, block, byte, bit?, rfl, hnumber, .inl hplace, rfl⟩
  · rintro ⟨number, place, block, byte, bit?, rfl, hnumber, hplace, rfl⟩
    have hne : number ≠ [] := by
      rintro rfl
      cases hnumber
    rw [splitPoint_append (point_not_mem_of_blockNumber hnumber)]
    dsimp only [Option.getD_some]
    rw [hnumber]
    refine ⟨by simp, hne, ?_⟩
    dsimp only
    -- a place does not begin with two letters, so it is clear which of the two ways it was written
    split
    · next rest =>
      rcases hplace with hplace | ⟨rest, heq, hplace⟩
      · exact absurd hplace (not_place_of_letters (by decide) (by decide))
      · cases heq
        exact parsePlace_eq_ok_iff.mpr ⟨byte, bit?, hplace, rfl⟩
    · next hplain =>
      rcases hplace with hplace | ⟨rest, rfl, hplace⟩
      · exact parsePlace_eq_ok_iff.mpr ⟨byte, bit?, hplace, rfl⟩
      · exact absurd rfl (hplain rest)

/-! ## Addresses -/

/-- The letters of areas of bytes, with the block that each stands for; zero where the area has no
blocks. -/
def placeLetters : List (Char × Area × UInt16) :=
  [('I', .input, 0), ('E', .input, 0), ('Q', .output, 0), ('A', .output, 0), ('M', .marker, 0),
    ('F', .marker, 0), ('V', .dataBlock, 1)]

/-- The letters of timers and counters. -/
def elementLetters : List (Char × Area) :=
  [('T', .timer), ('C', .counter), ('Z', .counter)]

/-- A text, in upper case and without blanks around it, is written for an address. -/
inductive Written : List Char → Address → Prop where
  /-- A place in a data block. -/
  | block {number place : List Char} {block : UInt16} {byte : UInt32} {bit? : Option UInt8} :
    Numeral number block.toNat → BlockPlace place byte bit? →
    Written ('D' :: 'B' :: (number ++ '.' :: place))
      { area := .dataBlock, block, byte, bit := bit?.getD 0 }
  /-- A place in another area of bytes, or in the first data block. -/
  | place {letter : Char} {area : Area} {block : UInt16} {place : List Char} {byte : UInt32}
      {bit? : Option UInt8} :
    (letter, area, block) ∈ placeLetters → Place place byte bit? →
    Written (letter :: place) { area, block, byte, bit := bit?.getD 0 }
  /-- A timer or counter. -/
  | element {letter : Char} {area : Area} {number : List Char} {byte : UInt32} :
    (letter, area) ∈ elementLetters → Numeral number byte.toNat → byte.toNat ≤ maxByteOffset →
    Written (letter :: number) { area, block := 0, byte, bit := 0 }

/-- The letter of an area of bytes is followed by a place, for each of the letters in the table. -/
theorem parseUpper_of_placeLetter {letter : Char} {area : Area} {block : UInt16}
    (h : (letter, area, block) ∈ placeLetters) (cs : List Char) :
    parseUpper (letter :: cs) = parsePlace area block cs := by
  simp only [placeLetters, List.mem_cons, Prod.mk.injEq, List.not_mem_nil, or_false] at h
  rcases h with ⟨rfl, rfl, rfl⟩ | ⟨rfl, rfl, rfl⟩ | ⟨rfl, rfl, rfl⟩ | ⟨rfl, rfl, rfl⟩ |
    ⟨rfl, rfl, rfl⟩ | ⟨rfl, rfl, rfl⟩ | ⟨rfl, rfl, rfl⟩ <;> rfl

/-- The letter of timers or counters is followed by a number. -/
theorem parseUpper_of_elementLetter {letter : Char} {area : Area}
    (h : (letter, area) ∈ elementLetters) (cs : List Char) :
    parseUpper (letter :: cs) = parseElement area cs := by
  simp only [elementLetters, List.mem_cons, Prod.mk.injEq, List.not_mem_nil, or_false] at h
  rcases h with ⟨rfl, rfl⟩ | ⟨rfl, rfl⟩ | ⟨rfl, rfl⟩ <;> rfl

/-- How a text can begin, if it is an address: with the letters of a data block, with the letter of an
area of bytes, or with that of timers or counters. All other texts are refused at once. -/
theorem parseUpper_cases {cs : List Char} {a : Address} (h : parseUpper cs = .ok a) :
    (∃ rest, cs = 'D' :: 'B' :: rest) ∨
      (∃ letter area block rest, (letter, area, block) ∈ placeLetters ∧ cs = letter :: rest) ∨
      ∃ letter area rest, (letter, area) ∈ elementLetters ∧ cs = letter :: rest := by
  unfold parseUpper at h
  split at h
  · cases h
  · next rest => exact .inl ⟨rest, rfl⟩
  · exact .inr (.inl ⟨'I', .input, 0, _, by decide, rfl⟩)
  · exact .inr (.inl ⟨'E', .input, 0, _, by decide, rfl⟩)
  · exact .inr (.inl ⟨'Q', .output, 0, _, by decide, rfl⟩)
  · exact .inr (.inl ⟨'A', .output, 0, _, by decide, rfl⟩)
  · exact .inr (.inl ⟨'M', .marker, 0, _, by decide, rfl⟩)
  · exact .inr (.inl ⟨'F', .marker, 0, _, by decide, rfl⟩)
  · exact .inr (.inl ⟨'V', .dataBlock, 1, _, by decide, rfl⟩)
  · exact .inr (.inr ⟨'T', .timer, _, by decide, rfl⟩)
  · exact .inr (.inr ⟨'C', .counter, _, by decide, rfl⟩)
  · exact .inr (.inr ⟨'Z', .counter, _, by decide, rfl⟩)
  · cases h

/-- What follows the letters of a data block is not the rest of an address of another area. -/
theorem written_block_iff {rest : List Char} {a : Address} :
    Written ('D' :: 'B' :: rest) a ↔
      ∃ number place block byte bit?, rest = number ++ '.' :: place ∧
        Numeral number block.toNat ∧ BlockPlace place byte bit? ∧
        a = { area := .dataBlock, block, byte, bit := bit?.getD 0 } := by
  constructor
  · intro h
    generalize hcs : 'D' :: 'B' :: rest = cs at h
    cases h with
    | @block number place block byte bit? hnumber hplace =>
      cases hcs
      exact ⟨number, place, block, byte, bit?, rfl, hnumber, hplace, rfl⟩
    | place hletter _ =>
      cases hcs
      simp [placeLetters] at hletter
    | element hletter _ _ =>
      cases hcs
      simp [elementLetters] at hletter
  · rintro ⟨number, place, block, byte, bit?, rfl, hnumber, hplace, rfl⟩
    exact .block hnumber hplace

/-- A plus in front of the number of a block is not in the grammar. -/
theorem not_written_signed {rest : List Char} {a : Address} :
    ¬ Written ('D' :: 'B' :: '+' :: rest) a := by
  intro h
  obtain ⟨number, place, block, byte, bit?, hrest, hnumber, -⟩ := written_block_iff.mp h
  obtain ⟨c, behind, rfl⟩ := List.exists_cons_of_ne_nil hnumber.nonempty
  cases hrest
  exact not_numeral_cons (by decide) hnumber

/-- The byte and the bit of a place exist: they are at most `maxByteOffset` and 7. -/
theorem Place.bounds {cs : List Char} {byte : UInt32} {bit? : Option UInt8}
    (h : Place cs byte bit?) : byte.toNat ≤ maxByteOffset ∧ (bit?.getD 0).toNat ≤ 7 := by
  have hoffset : ∀ {ds : List Char} {bit? : Option UInt8}, Offset ds byte bit? →
      byte.toNat ≤ maxByteOffset ∧ (bit?.getD 0).toNat ≤ 7 := by
    intro ds bit? hoffset
    cases hoffset with
    | byte _ hmax => exact ⟨hmax, Nat.zero_le 7⟩
    | bit _ hmax _ hle => exact ⟨hmax, hle⟩
  cases h with
  | plain h | bit h | whole _ h => exact hoffset h

/-- What is written for an address is written for one that can be made, and the fields of this make it
again. -/
theorem Written.make {cs : List Char} {a : Address} (h : Written cs a) :
    Address.make a.area a.block a.byte a.bit = .ok a := by
  have hbounds : a.byte.toNat ≤ maxByteOffset ∧ a.bit.toNat ≤ 7 := by
    cases h with
    | block _ hplace =>
      rcases hplace with hplace | ⟨_, -, hplace⟩
      · exact hplace.bounds
      · exact hplace.bounds
    | place _ hplace => exact hplace.bounds
    | element _ _ hmax => exact ⟨hmax, Nat.zero_le 7⟩
  have hblock : (if a.area = .dataBlock then a.block else 0) = a.block := by
    cases h with
    | block _ _ => rfl
    | place hletter _ =>
      simp only [placeLetters, List.mem_cons, Prod.mk.injEq, List.not_mem_nil, or_false] at hletter
      rcases hletter with ⟨-, rfl, rfl⟩ | ⟨-, rfl, rfl⟩ | ⟨-, rfl, rfl⟩ | ⟨-, rfl, rfl⟩ |
        ⟨-, rfl, rfl⟩ | ⟨-, rfl, rfl⟩ | ⟨-, rfl, rfl⟩ <;> rfl
    | element _ _ _ => exact ite_self 0
  have hbit : ¬ a.bit > 7 := Nat.not_lt.mpr hbounds.2
  rw [Address.make, if_neg hbit, if_neg (Nat.not_lt.mpr hbounds.1), hblock]

/-- The parser takes the addresses of the grammar, `Written cs a`, and besides those that are written
with a plus in front of the number of a data block. From the lemmas about its parts, by cases on how
the text begins. -/
theorem parseUpper_eq_ok_iff {cs : List Char} {a : Address} :
    parseUpper cs = .ok a ↔
      Written cs a ∨ ∃ rest, cs = 'D' :: 'B' :: '+' :: rest ∧ Written ('D' :: 'B' :: rest) a := by
  have hblock : ∀ rest, parseUpper ('D' :: 'B' :: rest) = parseBlock rest := fun _ => rfl
  constructor
  · intro h
    -- a case for each of the three ways in which an address begins
    rcases parseUpper_cases h with ⟨rest, rfl⟩ | ⟨letter, area, block, rest, hletter, rfl⟩ |
      ⟨letter, area, rest, hletter, rfl⟩
    · rw [hblock, parseBlock_eq_ok_iff] at h
      obtain ⟨number, place, block, byte, bit?, rfl, hnumber, hplace, rfl⟩ := h
      rcases blockNumber?_eq_some_iff.mp hnumber with hnumeral | ⟨ds, rfl, hnumeral⟩
      · exact .inl (.block hnumeral hplace)
      · exact .inr ⟨ds ++ '.' :: place, rfl, .block hnumeral hplace⟩
    · rw [parseUpper_of_placeLetter hletter, parsePlace_eq_ok_iff] at h
      obtain ⟨byte, bit?, hplace, rfl⟩ := h
      exact .inl (.place hletter hplace)
    · rw [parseUpper_of_elementLetter hletter, parseElement_eq_ok_iff] at h
      obtain ⟨byte, hnumeral, hmax, rfl⟩ := h
      exact .inl (.element hletter hnumeral hmax)
  · rintro (h | ⟨rest, rfl, h⟩)
    · cases h with
      | @block number place block byte bit? hnumber hplace =>
        rw [hblock, parseBlock_eq_ok_iff]
        exact ⟨number, place, block, byte, bit?, rfl, blockNumber?_eq_some_iff.mpr (.inl hnumber),
          hplace, rfl⟩
      | @place letter area block place byte bit? hletter hplace =>
        rw [parseUpper_of_placeLetter hletter, parsePlace_eq_ok_iff]
        exact ⟨byte, bit?, hplace, rfl⟩
      | @element letter area number byte hletter hnumeral hmax =>
        rw [parseUpper_of_elementLetter hletter, parseElement_eq_ok_iff]
        exact ⟨byte, hnumeral, hmax, rfl⟩
    · obtain ⟨number, place, block, byte, bit?, rfl, hnumeral, hplace, rfl⟩ :=
        written_block_iff.mp h
      rw [hblock, parseBlock_eq_ok_iff]
      refine ⟨'+' :: number, place, block, byte, bit?, rfl, ?_, hplace, rfl⟩
      exact blockNumber?_eq_some_iff.mpr (.inr ⟨number, rfl, hnumeral⟩)

end Address

/-! ## Blanks

What is stripped from the ends of a text is as much as can be, so that what is left is determined by
the text.
-/

/-- What is left behind characters of a class does not begin with one. -/
theorem Text.head?_dropWhile {drop : Char → Bool} {cs : List Char} {c : Char}
    (h : (cs.dropWhile drop).head? = some c) : drop c = false := by
  have hhead := List.head?_dropWhile_not drop cs
  rw [h] at hhead
  exact hhead

/-- What is stripped from a text stands at its ends, and is all that can be stripped. -/
theorem Text.strip_spec (drop : Char → Bool) (cs : List Char) :
    ∃ front back, cs = front ++ strip drop cs ++ back ∧ (∀ c ∈ front, drop c = true) ∧
      (∀ c ∈ back, drop c = true) ∧ (∀ c, (strip drop cs).head? = some c → drop c = false) ∧
      ∀ c, (strip drop cs).getLast? = some c → drop c = false := by
  have hsplit : cs.dropWhile drop =
      strip drop cs ++ ((cs.dropWhile drop).reverse.takeWhile drop).reverse := by
    rw [strip, ← List.reverse_append, List.takeWhile_append_dropWhile, List.reverse_reverse]
  refine ⟨cs.takeWhile drop, ((cs.dropWhile drop).reverse.takeWhile drop).reverse, ?_, ?_, ?_, ?_,
    ?_⟩
  · rw [List.append_assoc, ← hsplit, List.takeWhile_append_dropWhile]
  · intro c hc
    exact List.mem_takeWhile_imp hc
  · intro c hc
    exact List.mem_takeWhile_imp (List.mem_reverse.mp hc)
  · intro c hc
    have hhead : (cs.dropWhile drop).head? = some c := by
      rw [hsplit, List.head?_append, hc]
      rfl
    exact Text.head?_dropWhile hhead
  · intro c hc
    rw [strip, List.getLast?_reverse] at hc
    exact Text.head?_dropWhile hc

namespace Address

/-- What is parsed could be made. -/
theorem make_of_parse {text : String} {a : Address} (h : parse text = .ok a) :
    make a.area a.block a.byte a.bit = .ok a := by
  rw [parse, mapError_eq_ok_iff, parseUpper_eq_ok_iff] at h
  rcases h with h | ⟨rest, -, h⟩
  · exact h.make
  · exact h.make

/-- **The parser and the grammar.** For every text:
* It is taken for what stands between the blanks at its ends, in upper case: it is `front ++ core ++
  back` with nothing but blanks in `front` and `back` and no blank at either end of `core`, and
  `normalize text = core.map Char.toUpper`. A text of blanks only has an empty core.
* It is parsed as `a` exactly if `Written (normalize text) a`, or else if what is left is `DB+` and a
  rest, and `DB` and the rest are written for `a`.
* What begins with `DB+` is not written for any address, so that the second case is what the parser takes
  beyond the grammar; nothing else is.
* A text that is not parsed is refused with an error that repeats the whole of it, blanks included. Which
  cause the error has is not said. -/
theorem parse_course (text : String) :
    (∃ front core back, text.toList = front ++ core ++ back ∧
      (∀ c ∈ front, Text.isBlank c = true) ∧ (∀ c ∈ back, Text.isBlank c = true) ∧
      (∀ c, core.head? = some c → Text.isBlank c = false) ∧
      (∀ c, core.getLast? = some c → Text.isBlank c = false) ∧
      normalize text = core.map Char.toUpper) ∧
    (∀ a, parse text = .ok a ↔ Written (normalize text) a ∨
      ∃ rest, normalize text = 'D' :: 'B' :: '+' :: rest ∧ Written ('D' :: 'B' :: rest) a) ∧
    (∀ rest a, ¬ Written ('D' :: 'B' :: '+' :: rest) a) ∧
    ((∀ a, parse text ≠ .ok a) → ∃ cause, parse text = .error (.address text cause)) := by
  refine ⟨?_, fun a => ?_, fun rest a => not_written_signed, fun hrefused => ?_⟩
  · obtain ⟨front, back, htext, hfront, hback, hhead, hlast⟩ :=
      Text.strip_spec Text.isBlank text.toList
    exact ⟨front, _, back, htext, hfront, hback, hhead, hlast, rfl⟩
  · rw [parse, mapError_eq_ok_iff, parseUpper_eq_ok_iff]
  · unfold parse at hrefused ⊢
    cases hparse : parseUpper (normalize text) with
    | ok a =>
      rw [hparse] at hrefused
      exact absurd rfl (hrefused a)
    | error cause => exact ⟨cause, rfl⟩

/-- A data block whose number has a plus in front is taken for the block with that number. -/
theorem parse_signed :
    parse "DB+1.DBX0.0" = .ok { area := .dataBlock, block := 1, byte := 0, bit := 0 } ∧
      ∀ a, ¬ Written (normalize "DB+1.DBX0.0") a := by
  have hnormalize : normalize "DB+1.DBX0.0" =
      ['D', 'B', '+', '1', '.', 'D', 'B', 'X', '0', '.', '0'] := by
    decide +kernel
  refine ⟨by decide +kernel, fun a => ?_⟩
  rw [hnormalize]
  exact not_written_signed

end Address

end S7Comm
