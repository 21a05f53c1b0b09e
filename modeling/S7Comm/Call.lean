import S7Comm.Error

/-!
# Calls

A `Call` is what a client does with a session: it changes a state, and it ends with a value or with an
error. The state is kept in both cases, since what was sent before an error has been sent.

Computations that can fail but have no state, those of the layers below included, are calls which
leave the state as it is.
-/

namespace S7Comm

/-- A computation over a state that ends with a value or an error, and keeps the state in either
case. -/
abbrev Call (S : Type) (α : Type) := EStateM Error S α

namespace Call

variable {S α : Type}

/-- A computation without state, as a call. -/
def ofExcept : Except Error α → Call S α
  | .ok value => pure value
  | .error e => throw e

/-- A computation without state can be used as a call. -/
instance : MonadLift (Except Error) (Call S) := ⟨ofExcept⟩

/-- A value leaves the state as it is. -/
@[simp]
theorem ofExcept_ok (value : α) (s : S) : ofExcept (.ok value) s = .ok value s := rfl

/-- An error leaves the state as it is. -/
@[simp]
theorem ofExcept_error (e : Error) (s : S) :
    (ofExcept (.error e) : Call S α) s = .error e s := rfl

/-- How a call ended, and the state in which it ended. -/
def outcome (call : Call S α) (s : S) : Except Error α × S :=
  match call s with
  | .ok value s => (.ok value, s)
  | .error e s => (.error e, s)

end Call

end S7Comm
