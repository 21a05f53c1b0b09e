import S7Comm.Address.Printer
import S7Comm.Proofs.AddressGrammar

/-!
# The canonical text of an address

Many texts denote an address and one is written for it (`Address.text`). That text is in the grammar
(`Address.written_canonical`): an area is written with the first of its letters, a data block with
both its pairs of letters, and the numbers without leading zeros. It contains no blank and no
lower-case letter, so nothing is lost before it reaches the parser (`Address.normalize_ofList`).

**What comes back.** The bit of a timer or counter is not written, so it is gone after the round trip:
`parse a.text = .ok a.settled` for every address that can be made, with `a.settled` the address with
bit 0 for those, and `a` itself for all others. Whatever the parser returns has no such bit, and comes
back as it is; hence two parsed addresses that are written alike are the same.

**Main result** (`Address.parse_text_round_trip`). It is about addresses that were made or parsed, and
says nothing of parts of which no address can be made.
-/

namespace S7Comm

/-! ## Texts without blanks and lower-case letters -/

/-- Nothing is stripped from a text without characters of the class. -/
theorem Text.strip_of_forall {drop : Char → Bool} {cs : List Char}
    (h : ∀ c ∈ cs, drop c = false) : strip drop cs = cs := by
  rcases cs with _ | ⟨c, cs⟩
  · rfl
  · have hne : c :: cs ≠ [] := List.cons_ne_nil c cs
    apply strip_eq_self (List.getLast?_eq_some_getLast hne)
    · exact h c List.mem_cons_self
    · exact h _ (List.getLast_mem hne)

namespace Address

/-- A character is taken as it stands: it is no blank, and upper case leaves it alone. -/
def Verbatim (c : Char) : Prop :=
  Text.isBlank c = false ∧ c.toUpper = c

/-- Digits are taken as they stand. -/
theorem verbatim_of_isDigit {c : Char} (h : c.isDigit = true) : Verbatim c := by
  simp only [Char.isDigit, Bool.and_eq_true, decide_eq_true_eq, ge_iff_le,
    UInt32.le_iff_toNat_le] at h
  obtain ⟨hlow, hhigh⟩ := h
  have hfrom : 48 ≤ c.toNat := hlow
  have hto : c.toNat ≤ 57 := hhigh
  constructor
  · simp [Text.isBlank]
    omega
  · unfold Char.toUpper
    apply dif_neg
    intro hlower
    have : 97 ≤ c.toNat := UInt32.le_iff_toNat_le.mp hlower.1
    omega

theorem verbatim_of_mem_digits {n : Nat} {c : Char} (h : c ∈ Decimal.digits n) : Verbatim c :=
  verbatim_of_isDigit (List.all_eq_true.mp (Decimal.all_isDigit_digits n) c h)

/-- What consists of such characters reaches the parser as it is. -/
theorem normalize_ofList {cs : List Char} (h : ∀ c ∈ cs, Verbatim c) :
    normalize (String.ofList cs) = cs := by
  have hupper : cs.map Char.toUpper = cs.map id := List.map_congr_left fun c hc => (h c hc).2
  rw [normalize, String.toList_ofList, Text.strip_of_forall fun c hc => (h c hc).1, hupper,
    List.map_id]

/-! ## The text is in the grammar -/

/-- What is written of a number is its numeral. -/
theorem numeral_digits (n : Nat) : Numeral (Decimal.digits n) n :=
  Decimal.parse?_eq_some_iff.mp (Decimal.parse?_digits n)

/-- An address can be made whose bit and byte exist, and without a block where there are none. -/
theorem make_eq_ok_iff {area : Area} {block : UInt16} {byte : UInt32} {bit : UInt8} {a : Address} :
    make area block byte bit = .ok a ↔
      bit.toNat ≤ 7 ∧ byte.toNat ≤ maxByteOffset ∧
        a = { area, block := if area = .dataBlock then block else 0, byte, bit } := by
  have hbit : bit > 7 ↔ ¬ bit.toNat ≤ 7 := Nat.not_le.symm
  have hbyte : byte.toNat > maxByteOffset ↔ ¬ byte.toNat ≤ maxByteOffset := Nat.not_le.symm
  rw [make]
  split
  · next hlarge => simp [hbit.mp hlarge]
  · next hsmall =>
    have hseven := not_not.mp (mt hbit.mpr hsmall)
    split
    · next hlarge => simp [hbyte.mp hlarge]
    · next hinside =>
      simp [hseven, not_not.mp (mt hbyte.mpr hinside), eq_comm]

variable {a : Address}

/-- The byte and the bit that are written are those of a place. -/
theorem offset_offsetText (hbyte : a.byte.toNat ≤ maxByteOffset) (hbit : a.bit.toNat ≤ 7) :
    Offset a.offsetText a.byte (some a.bit) :=
  .bit (numeral_digits _) hbyte (numeral_digits _) hbit

/-- The address as its text says it: timers and counters have no bit. -/
def settled (a : Address) : Address :=
  if a.area.holdsElements then { a with bit := 0 } else a

/-- What is not written makes no difference to the text. -/
theorem text_settled (a : Address) : a.settled.text = a.text := by
  rcases a with ⟨area, block, byte, bit⟩
  cases area <;> rfl

/-- The text that is written for an address is written for it in the grammar, but for the bit of a
timer or counter. -/
theorem written_canonical (h : make a.area a.block a.byte a.bit = .ok a) :
    Written a.canonical a.settled := by
  obtain ⟨hbit, hbyte, heq⟩ := make_eq_ok_iff.mp h
  have hblock : a.block = if a.area = .dataBlock then a.block else 0 := congrArg block heq
  have hoffset := offset_offsetText hbyte hbit
  rcases a with ⟨area, block, byte, bit⟩
  -- One case for each area, since each has letters of its own.
  cases area with
  | dataBlock => exact .block (numeral_digits _) (.inr ⟨_, rfl, .bit hoffset⟩)
  | input =>
    obtain rfl : block = 0 := hblock
    exact .place (by decide) (.plain hoffset)
  | output =>
    obtain rfl : block = 0 := hblock
    exact .place (by decide) (.plain hoffset)
  | marker =>
    obtain rfl : block = 0 := hblock
    exact .place (by decide) (.plain hoffset)
  | timer =>
    obtain rfl : block = 0 := hblock
    exact .element List.mem_cons_self (numeral_digits _) hbyte
  | counter =>
    obtain rfl : block = 0 := hblock
    exact .element (List.mem_cons_of_mem _ List.mem_cons_self) (numeral_digits _) hbyte

/-- What is written for an address is read as it stands. -/
theorem verbatim_of_mem_canonical {c : Char} (h : c ∈ a.canonical) : Verbatim c := by
  have hletters : ['D', 'B', 'X', 'I', 'Q', 'M', 'T', 'C', '.'].all
      (fun d => !Text.isBlank d && d.toUpper == d) = true := by decide
  have hletter : ∀ d ∈ ['D', 'B', 'X', 'I', 'Q', 'M', 'T', 'C', '.'], Verbatim d := by
    intro d hd
    simpa [Verbatim] using List.all_eq_true.mp hletters d hd
  have hoffset : c ∈ a.offsetText → Verbatim c := by
    intro hc
    rcases List.mem_append.mp hc with hc | hc
    · exact verbatim_of_mem_digits hc
    · rcases List.mem_cons.mp hc with rfl | hc
      · exact hletter _ (by decide)
      · exact verbatim_of_mem_digits hc
  -- only letters, points and digits stand in the text, and in each area at other places
  rcases a with ⟨area, block, byte, bit⟩
  cases area with
  | dataBlock =>
    simp only [canonical, List.cons_append, List.mem_cons, List.mem_append] at h
    rcases h with rfl | rfl | hc | rfl | rfl | rfl | rfl | hc
    · exact hletter _ (by decide)
    · exact hletter _ (by decide)
    · exact verbatim_of_mem_digits hc
    · exact hletter _ (by decide)
    · exact hletter _ (by decide)
    · exact hletter _ (by decide)
    · exact hletter _ (by decide)
    · exact hoffset hc
  | input | output | marker =>
    rcases List.mem_cons.mp h with rfl | hc
    · exact hletter _ (by decide)
    · exact hoffset hc
  | timer | counter =>
    rcases List.mem_cons.mp h with rfl | hc
    · exact hletter _ (by decide)
    · exact verbatim_of_mem_digits hc

/-! ## The round trip -/

/-- What is written for an address that can be made denotes it. -/
theorem parse_text_of_make (h : make a.area a.block a.byte a.bit = .ok a) :
    parse a.text = .ok a.settled := by
  have hparse : parseUpper a.canonical = .ok a.settled :=
    parseUpper_eq_ok_iff.mpr (.inl (written_canonical h))
  rw [parse, text, normalize_ofList fun c => verbatim_of_mem_canonical, hparse]
  rfl

/-- The fields of what was made make it again. -/
theorem make_of_make {area : Area} {block : UInt16} {byte : UInt32} {bit : UInt8}
    (h : make area block byte bit = .ok a) : make a.area a.block a.byte a.bit = .ok a := by
  obtain ⟨hbit, hbyte, rfl⟩ := make_eq_ok_iff.mp h
  apply make_eq_ok_iff.mpr
  refine ⟨hbit, hbyte, ?_⟩
  by_cases harea : area = .dataBlock
  · simp [harea]
  · simp [harea]

/-- The grammar has no bit of a timer or counter. -/
theorem Written.settled_eq {cs : List Char} (h : Written cs a) : a.settled = a := by
  cases h with
  | block _ _ => rfl
  | place hletter _ =>
    simp only [placeLetters, List.mem_cons, Prod.mk.injEq, List.not_mem_nil, or_false] at hletter
    rcases hletter with ⟨-, rfl, -⟩ | ⟨-, rfl, -⟩ | ⟨-, rfl, -⟩ | ⟨-, rfl, -⟩ | ⟨-, rfl, -⟩ |
      ⟨-, rfl, -⟩ | ⟨-, rfl, -⟩ <;> rfl
  | element _ _ _ => exact ite_self _

/-- What is parsed has no bit of a timer or counter. -/
theorem settled_of_parse {text : String} (h : parse text = .ok a) : a.settled = a := by
  rw [parse, Call.mapError_eq_ok_iff, parseUpper_eq_ok_iff] at h
  rcases h with h | ⟨rest, -, h⟩
  · exact h.settled_eq
  · exact h.settled_eq

/-- What was parsed comes back from what is written for it. -/
theorem parse_text_of_parse {text : String} (h : parse text = .ok a) : parse a.text = .ok a := by
  have hback := parse_text_of_make (make_of_parse h)
  rwa [settled_of_parse h] at hback

/-- **The canonical text of an address.**

* What is written for an address that was made, of whatever parts, is parsed, `parse a.text = .ok
  a.settled`: it denotes the address without the bit of a timer or counter.
* An address that was parsed has no such bit, `a.settled = a`, and denotes itself again.
* Writing what was parsed from a canonical text yields the same text; and so the canonical text of a
  canonical text is that text.
* Parsed addresses that are written alike are equal. -/
theorem parse_text_round_trip :
    (∀ area block byte bit a, make area block byte bit = .ok a → parse a.text = .ok a.settled) ∧
    (∀ s a, parse s = .ok a → a.settled = a ∧ parse a.text = .ok a) ∧
    (∀ area block byte bit a b, make area block byte bit = .ok a → parse a.text = .ok b →
      b.text = a.text) ∧
    (∀ s t, (parse s).map text = .ok t → (parse t).map text = .ok t) ∧
    ∀ s t a b, parse s = .ok a → parse t = .ok b → a.text = b.text → a = b := by
  refine ⟨?_, ?_, ?_, ?_, ?_⟩
  · intro area block byte bit a hmake
    exact parse_text_of_make (make_of_make hmake)
  · intro s a hparse
    exact ⟨settled_of_parse hparse, parse_text_of_parse hparse⟩
  · intro area block byte bit a b hmake hparse
    rw [parse_text_of_make (make_of_make hmake)] at hparse
    cases hparse
    exact text_settled a
  · intro s t hwritten
    rcases hparse : parse s with cause | a
    · rw [hparse] at hwritten
      cases hwritten
    · rw [hparse] at hwritten
      cases hwritten
      rw [parse_text_of_parse hparse]
      rfl
  · intro s t a b hs ht htext
    have ha := parse_text_of_parse hs
    rw [htext, parse_text_of_parse ht] at ha
    cases ha
    rfl

/-- A counter that was made with a bit comes back without it, and a place in the first data block,
given by its letter and a size, comes back from its long text. -/
theorem parse_text_of_counter_and_variable :
    parse "C7" = .ok { area := .counter, block := 0, byte := 7, bit := 0 } ∧
      parse "DB1.DBX4.0" = .ok { area := .dataBlock, block := 1, byte := 4, bit := 0 } := by
  have hcounter := parse_text_round_trip.1 .counter 9 7 3 _ rfl
  have hvariable := (parse_text_round_trip.2.1 " vw4"
    { area := .dataBlock, block := 1, byte := 4, bit := 0 } (by decide +kernel)).2
  have hcounterText : Address.text { area := .counter, block := 0, byte := 7, bit := 3 } = "C7" := by
    decide +kernel
  have hvariableText : Address.text { area := .dataBlock, block := 1, byte := 4, bit := 0 } =
      "DB1.DBX4.0" := by
    decide +kernel
  rw [hvariableText] at hvariable
  exact ⟨(congrArg parse hcounterText).symm.trans hcounter, hvariable⟩

end Address

end S7Comm
