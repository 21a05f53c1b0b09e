/-!
# Memory areas

The memory of a CPU is divided into areas, each with a code of one byte. Four of them hold bytes;
timers and counters hold elements of two bytes, which are addressed by number.

**Main statement.** `Area.ofCode?_eq_some_iff`: a byte is read as an area exactly if it is that
area's code.
-/

namespace S7Comm

/-- An area of the memory of a CPU. -/
inductive Area where
  /-- Process image of the inputs. -/
  | input
  /-- Process image of the outputs. -/
  | output
  /-- Flag memory. -/
  | marker
  /-- The data blocks; which of them, a number beside the area says. -/
  | dataBlock
  /-- Counters, each of two bytes. -/
  | counter
  /-- Timers, each of two bytes. -/
  | timer
  deriving DecidableEq, Repr

namespace Area

/-- The code of an area. -/
def code : Area → UInt8
  | .input => 0x81
  | .output => 0x82
  | .marker => 0x83
  | .dataBlock => 0x84
  | .counter => 0x1C
  | .timer => 0x1D

/-- The area of a code. -/
def ofCode? (code : UInt8) : Option Area :=
  match code with
  | 0x81 => some .input
  | 0x82 => some .output
  | 0x83 => some .marker
  | 0x84 => some .dataBlock
  | 0x1C => some .counter
  | 0x1D => some .timer
  | _ => none

/-- Whether the area holds numbered elements rather than bytes. -/
def holdsElements : Area → Bool
  | .counter | .timer => true
  | _ => false

/-- A byte is read as an area exactly if it is that area's code. -/
theorem ofCode?_eq_some_iff {code : UInt8} {area : Area} :
    ofCode? code = some area ↔ code = area.code := by
  constructor
  · unfold ofCode?
    split <;> rintro ⟨⟩ <;> rfl
  · rintro rfl
    cases area <;> rfl

end Area

/-- The largest byte offset within an area: a request has three bytes for the number of a bit, so
the number of its byte has 21 bits. -/
def maxByteOffset : Nat := 2097151

end S7Comm
