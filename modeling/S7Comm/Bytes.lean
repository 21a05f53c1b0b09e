/-!
# Bytes and the numbers they spell

Everything that travels between a client and a controller is a list of bytes. Lists rather than
packed arrays, because a list can be taken apart by cases: a decoder of a fixed layout is one
pattern, and what follows the pattern is what the decoder leaves unread.

**Main statements.** `bigEndian` has the width asked for (`length_bigEndian`), and `spelled` reads
it back, reduced to what that width can hold (`spelled_bigEndian`). The two-byte words of the
protocol's headers are written out as `wordBytes` and `word`, and are inverse to each other
(`word_wordBytes`, `wordBytes_word`).
-/

namespace S7Comm

/-- What is sent, received and stored: bytes in the order in which they travel. -/
abbrev Bytes := List UInt8

/-! ## Numbers of any width -/

/-- The `width` bytes of `n`, most significant first; what does not fit the width is dropped. -/
def bigEndian : (width : Nat) → (n : Nat) → Bytes
  | 0, _ => []
  | width + 1, n => bigEndian width (n / 256) ++ [UInt8.ofNat n]

/-- The number that bytes spell, most significant first. -/
def spelled (bytes : Bytes) : Nat :=
  bytes.foldl (fun value byte => value * 256 + byte.toNat) 0

/-- How many numbers a width can hold: 256 for every byte of it. -/
def capacity : (width : Nat) → Nat
  | 0 => 1
  | width + 1 => 256 * capacity width

/-- An encoding is as wide as it was asked to be. -/
theorem length_bigEndian (width n : Nat) : (bigEndian width n).length = width := by
  induction width generalizing n with
  | zero => rfl
  | succ width ih => simp [bigEndian, ih]

/-- One more byte multiplies what stands before it by 256. -/
theorem spelled_concat (bytes : Bytes) (byte : UInt8) :
    spelled (bytes ++ [byte]) = spelled bytes * 256 + byte.toNat := by
  simp [spelled]

/-- The bytes of a number spell that number, reduced to what the width can hold. -/
theorem spelled_bigEndian (width n : Nat) :
    spelled (bigEndian width n) = n % capacity width := by
  induction width generalizing n with
  | zero => simp [bigEndian, spelled, capacity, Nat.mod_one]
  | succ width ih =>
    rw [bigEndian, spelled_concat, ih, capacity, Nat.mod_mul]
    simp
    omega

/-! ## Words

Nearly every field of the protocol's headers is one byte or a word of two. -/

/-- The word that two bytes spell, the upper one first. -/
def word (upper lower : UInt8) : UInt16 :=
  UInt16.ofNat (upper.toNat * 256 + lower.toNat)

/-- The two bytes of a word, the upper one first. -/
def wordBytes (w : UInt16) : Bytes :=
  [UInt8.ofNat (w.toNat / 256), UInt8.ofNat w.toNat]

/-- The bytes of a word spell the word. -/
theorem word_wordBytes (w : UInt16) :
    word (UInt8.ofNat (w.toNat / 256)) (UInt8.ofNat w.toNat) = w := by
  apply UInt16.toNat_inj.mp
  have := w.toNat_lt
  simp [word]
  omega

/-- Two bytes are the bytes of the word they spell. -/
theorem wordBytes_word (upper lower : UInt8) : wordBytes (word upper lower) = [upper, lower] := by
  have hu := upper.toNat_lt
  have hl := lower.toNat_lt
  simp only [wordBytes, word, List.cons.injEq, and_true]
  refine ⟨UInt8.toNat_inj.mp ?_, UInt8.toNat_inj.mp ?_⟩
  · simp
    omega
  · simp

end S7Comm
