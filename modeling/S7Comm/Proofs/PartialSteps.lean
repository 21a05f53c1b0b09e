import S7Comm.Bytes

/-!
# Steps that are not defined everywhere

The decoders of this library take bytes apart by cases: where bytes are missing there is a case for
it. A decoder that walks through packed bytes has no such cases. It asks how many bytes there are, in
one place, and takes them by their position in another; and what it takes is there only if it has
asked for enough. This module has the steps of such a walk.

**Three endings.** A `Partial` computation ends with a value or with an error, or it comes to a step
that is not defined, and then it has no outcome at all: nothing catches that. `Partial.defined` is a
computation with an outcome, so one that has come past no such step.

**Steps.** `Steps` are partial computations in front of some bytes. What asks for more than the bytes
that are left is not defined: to take a byte by its index, to take the first few or to go past them.
The same holds of a difference that is below zero (`Partial.minus`), and of a product or a sum that
does not fit the four bytes it is kept in (`Partial.times`, `Partial.plus`).

**Main statements.** A sequence of computations with an outcome has one (`Partial.bind_defined`), where
what follows a check has to have one only if the check is passed (`Partial.ite_defined`); and whatever
asks for no more than is there is defined (`Steps.run_takeBytes` and the lemmas around it). -/

namespace S7Comm

/-! ## Partial computations -/

/-- A computation that ends with a value or an error, or has no outcome. -/
abbrev Partial (ε α : Type) := ExceptT ε Option α

namespace Partial

variable {ε ε' α β : Type}

/-- A computation with an outcome. -/
def defined (outcome : Except ε α) : Partial ε α :=
  ExceptT.mk (some outcome)

/-- A computation without one. -/
def undefined : Partial ε α :=
  ExceptT.mk none

/-- The difference of two numbers, where there is one. -/
def minus (m n : Nat) : Partial ε Nat :=
  if n ≤ m then pure (m - n) else undefined

/-- The product of two numbers, where four bytes can hold it. -/
def times (m n : Nat) : Partial ε Nat :=
  if m * n < capacity 4 then pure (m * n) else undefined

/-- The sum of two numbers, where four bytes can hold it. -/
def plus (m n : Nat) : Partial ε Nat :=
  if m + n < capacity 4 then pure (m + n) else undefined

/-- Fail with an error if something is the case. -/
def refuse (condition : Prop) [Decidable condition] (e : ε) : Partial ε Unit :=
  if condition then throw e else pure ()

/-- A difference is defined where the second number is not the larger one. -/
theorem minus_eq {m n : Nat} (h : n ≤ m) : (minus m n : Partial ε Nat) = pure (m - n) :=
  if_pos h

/-- A product is defined where it is small enough. -/
theorem times_eq {m n : Nat} (h : m * n < capacity 4) :
    (times m n : Partial ε Nat) = pure (m * n) :=
  if_pos h

/-- So is a sum. -/
theorem plus_eq {m n : Nat} (h : m + n < capacity 4) : (plus m n : Partial ε Nat) = pure (m + n) :=
  if_pos h

/-- A computation that goes on from an outcome has one, if it has one from every value. -/
theorem bind_defined {call : Partial ε α} {outcome : Except ε α} {next : α → Partial ε β}
    {after : α → Except ε β} (h : call = defined outcome)
    (hnext : ∀ value, outcome = .ok value → next value = defined (after value)) :
    call >>= next = defined (outcome >>= after) := by
  subst h
  cases outcome with
  | error e => rfl
  | ok value => exact hnext value rfl

/-- Errors can be told in other words. -/
theorem adapt_defined {call : Partial ε α} {outcome : Except ε α} (f : ε → ε')
    (h : call = defined outcome) : ExceptT.adapt f call = defined (outcome.mapError f) := by
  subst h
  cases outcome <;> rfl

/-- What follows a check has to have an outcome only if the check is passed. -/
theorem ite_defined {condition : Prop} [Decidable condition] {e : ε} {call : Partial ε α}
    {outcome : Except ε α} (h : ¬ condition → call = defined outcome) :
    (if condition then throw e else call) =
      defined (if condition then .error e else outcome) := by
  by_cases hcondition : condition
  · rw [if_pos hcondition, if_pos hcondition]
    rfl
  · rw [if_neg hcondition, if_neg hcondition]
    exact h hcondition

/-- A check ends a computation or is passed. -/
theorem refuse_bind (condition : Prop) [Decidable condition] (e : ε) (next : Unit → Partial ε α) :
    refuse condition e >>= next = if condition then throw e else next () := by
  unfold refuse
  split <;> rfl

/-- A check has an outcome. -/
theorem refuse_bind_defined {condition : Prop} [Decidable condition] {e : ε}
    {next : Unit → Partial ε α} {outcome : Except ε α}
    (h : ¬ condition → next () = defined outcome) :
    refuse condition e >>= next = defined (if condition then .error e else outcome) := by
  rw [refuse_bind]
  exact ite_defined h

end Partial

/-! ## Steps in front of bytes -/

/-- Partial computations in front of some bytes, some of which they leave behind. -/
abbrev Steps (ε α : Type) := StateT Bytes (Partial ε) α

namespace Steps

variable {ε α β : Type} {bytes : Bytes}

/-- A step that is not defined. -/
def undefined : Steps ε α :=
  StateT.lift Partial.undefined

/-- The number of bytes that are left. -/
def remaining : Steps ε Nat := do
  return (← get).length

/-- Fail with an error if something is the case. -/
def refuse (condition : Prop) [Decidable condition] (e : ε) : Steps ε Unit :=
  if condition then throw e else pure ()

/-- Fail with an error if there is no value. -/
def demand (value? : Option α) (e : ε) : Steps ε α :=
  match value? with
  | some value => pure value
  | none => throw e

/-- Fail unless some number of bytes is left. -/
def require (needed : Nat) (e : (available : Nat) → ε) : Steps ε Unit := do
  let available ← remaining
  refuse (available < needed) (e available)

/-- The byte with an index. -/
def index (i : Nat) : Steps ε UInt8 := do
  match (← get)[i]? with
  | some byte => return byte
  | none => undefined

/-- The first few bytes. -/
def front (length : Nat) : Steps ε Bytes := do
  let bytes ← get
  if length ≤ bytes.length then return bytes.take length
  else undefined

/-- Go past the first few bytes. -/
def advance (length : Nat) : Steps ε Unit := do
  let bytes ← get
  if length ≤ bytes.length then set (bytes.drop length)
  else undefined

/-- Take the first few bytes and go past them. -/
def takeBytes (length : Nat) : Steps ε Bytes := do
  let bytes ← front length
  advance length
  return bytes

/-- Take a byte. -/
def takeByte : Steps ε UInt8 := do
  let byte ← index 0
  advance 1
  return byte

/-- Take a word. -/
def takeWord : Steps ε UInt16 := do
  return UInt16.ofNat (spelled (← takeBytes 2))

/-! ### Where they are defined -/

/-- The value of a sequence of steps, without what is left behind it. -/
theorem run'_bind (steps : Steps ε α) (next : α → Steps ε β) :
    (steps >>= next).run' bytes = steps.run bytes >>= fun p => (next p.1).run' p.2 := by
  rw [StateT.run'_eq, StateT.run_bind, map_bind]
  rfl

/-- The number of bytes is always known. -/
theorem run_remaining : (remaining : Steps ε Nat).run bytes = pure (bytes.length, bytes) :=
  rfl

/-- A check takes no bytes. -/
theorem run_refuse_bind (condition : Prop) [Decidable condition] (e : ε)
    (next : Unit × Bytes → Partial ε α) :
    (refuse condition e).run bytes >>= next =
      if condition then throw e else next ((), bytes) := by
  unfold refuse
  split <;> rfl

/-- A demand for bytes takes none. -/
theorem run_require_bind (needed : Nat) (e : Nat → ε) (next : Unit × Bytes → Partial ε α) :
    (require needed e).run bytes >>= next =
      if bytes.length < needed then throw (e bytes.length) else next ((), bytes) := by
  rw [require, StateT.run_bind, run_remaining, pure_bind, run_refuse_bind]

/-- Where there are enough bytes a demand for them is met. -/
theorem run_require {needed : Nat} (h : needed ≤ bytes.length) (e : Nat → ε)
    (next : Unit × Bytes → Partial ε α) :
    (require needed e).run bytes >>= next = next ((), bytes) := by
  rw [run_require_bind, if_neg (Nat.not_lt.mpr h)]

/-- A byte by its index is defined up to the end. -/
theorem run_index {i : Nat} {found : UInt8} (h : bytes[i]? = some found) :
    (index i : Steps ε UInt8).run bytes = pure (found, bytes) := by
  simp [index, h]

/-- As many bytes as are there are defined. -/
theorem run_front {length : Nat} (h : length ≤ bytes.length) :
    (front length : Steps ε Bytes).run bytes = pure (bytes.take length, bytes) := by
  simp [front, h]

/-- So is going past them. -/
theorem run_advance {length : Nat} (h : length ≤ bytes.length) :
    (advance length : Steps ε Unit).run bytes = pure ((), bytes.drop length) := by
  simp [advance, h]

/-- So is taking them. -/
theorem run_takeBytes {length : Nat} (h : length ≤ bytes.length) :
    (takeBytes length : Steps ε Bytes).run bytes = pure (bytes.take length, bytes.drop length) := by
  simp [takeBytes, run_front h, run_advance h]

/-- Where there is a byte it can be taken. -/
theorem run_takeByte (found : UInt8) (rest : Bytes) :
    (takeByte : Steps ε UInt8).run (found :: rest) = pure (found, rest) := by
  simp [takeByte, run_index, run_advance]

/-- Where there are two a word can be taken. -/
theorem run_takeWord (upper lower : UInt8) (rest : Bytes) :
    (takeWord : Steps ε UInt16).run (upper :: lower :: rest) = pure (word upper lower, rest) := by
  simp [takeWord, run_takeBytes, word, spelled]

/-- Where there is one, a word cannot. -/
example : (takeWord : Steps Unit UInt16).run [0x32] = Partial.undefined := rfl

end Steps

end S7Comm
