/-!
# Decimal numbers in text

Addresses and messages hold numbers in plain decimal: digits only, no sign, no grouping. Here are
the writer (`Decimal.digits`) and the reader (`Decimal.parse?`), over lists of characters.

**Main statement.** `Decimal.parse?_digits`: what is written is read back. The reader also accepts
leading zeros, so several texts denote one number, and only the shortest of them is written.
-/

namespace S7Comm.Decimal

/-! ## Writing -/

/-- The digit of a number below ten. -/
def digit (n : Nat) : Char :=
  Char.ofNat (48 + n)

/-- The digits of a number, most significant first, without leading zeros. -/
def digits (n : Nat) : List Char :=
  if n < 10 then [digit n] else digits (n / 10) ++ [digit (n % 10)]

/-- The digits of a number, filled up with zeros in front to at least `width` of them. -/
def padded (width n : Nat) : String :=
  String.ofList ((digits n).leftpad width '0')

/-! ## Reading -/

/-- The number that a run of digits denotes. -/
def value (cs : List Char) : Nat :=
  cs.foldl (fun n c => n * 10 + (c.toNat - 48)) 0

/-- The number that a text denotes which consists of ASCII digits, at least one. -/
def parse? (cs : List Char) : Option Nat :=
  if cs ≠ [] ∧ cs.all Char.isDigit then some (value cs) else none

/-! ## What is written is read back -/

/-- The digit of a number below ten is a digit. -/
theorem isDigit_digit {n : Nat} (h : n < 10) : (digit n).isDigit = true := by
  have : ∀ n : Fin 10, (digit n).isDigit = true := by decide
  exact this ⟨n, h⟩

/-- The digits follow each other from `'0'` on. -/
theorem toNat_digit {n : Nat} (h : n < 10) : (digit n).toNat = 48 + n := by
  have : ∀ n : Fin 10, (digit n).toNat = 48 + n := by decide
  exact this ⟨n, h⟩

/-- Every number has a digit. -/
theorem digits_ne_nil (n : Nat) : digits n ≠ [] := by
  rw [digits]
  split <;> simp

/-- Only digits are written. -/
theorem all_isDigit_digits (n : Nat) : (digits n).all Char.isDigit = true := by
  fun_induction digits n with
  | case1 n h => simp [isDigit_digit h]
  | case2 n h ih =>
    rw [List.all_append, ih]
    simp [isDigit_digit (Nat.mod_lt n (by decide : 10 > 0))]

/-- The digits of a number denote it. -/
theorem value_digits (n : Nat) : value (digits n) = n := by
  fun_induction digits n with
  | case1 n h => simp [value, toNat_digit h]
  | case2 n h ih =>
    simp only [value, List.foldl_append, List.foldl_cons, List.foldl_nil] at ih ⊢
    rw [ih, toNat_digit (Nat.mod_lt n (by decide : 10 > 0))]
    omega

/-- What is written is read back. -/
theorem parse?_digits (n : Nat) : parse? (digits n) = some n := by
  simp [parse?, digits_ne_nil, value_digits, -List.all_eq_true, all_isDigit_digits]

end S7Comm.Decimal
