/-!
# Blanks around a text

An address may stand between blanks, and those are the characters with the Unicode property
`White_Space`: twenty-five of them, no-break spaces, line separators and the wide space of East
Asian text included. Core's `Char.isWhitespace` knows four of them, so the property has its own table
here.

Controllers pad the texts that they return with control characters and spaces, which is the other,
coarser class: every character up to the space (`isPadding`).
-/

namespace S7Comm.Text

/-- Whether a character has the property `White_Space`. -/
def isBlank (c : Char) : Bool :=
  let n := c.toNat
  (0x09 ≤ n && n ≤ 0x0D) || n == 0x20 || n == 0x85 || n == 0xA0 || n == 0x1680 ||
    (0x2000 ≤ n && n ≤ 0x200A) || n == 0x2028 || n == 0x2029 || n == 0x202F || n == 0x205F ||
    n == 0x3000

/-- Whether a character is a control character of ASCII or the space. -/
def isPadding (c : Char) : Bool :=
  c ≤ ' '

/-- A text without the characters of a class at its two ends. -/
def strip (drop : Char → Bool) (cs : List Char) : List Char :=
  ((cs.dropWhile drop).reverse.dropWhile drop).reverse

/-- Nothing is stripped from a text whose ends are not of the class. -/
theorem strip_eq_self {drop : Char → Bool} {c d : Char} {cs : List Char}
    (last : (c :: cs).getLast? = some d) (hc : drop c = false) (hd : drop d = false) :
    strip drop (c :: cs) = c :: cs := by
  obtain ⟨front, h⟩ : ∃ front, c :: cs = front ++ [d] := List.getLast?_eq_some_iff.mp last
  rw [strip, List.dropWhile_cons_of_neg (by simp [hc]), h]
  simp [List.dropWhile_cons_of_neg, hd]

end S7Comm.Text
