/-!
# Types of elements

A request for CPU memory names the type of the elements that it is about. The type decides how many
bytes an element takes (`ElementType.byteSize`), whether its place is given by a bit or by a number
(`ElementType.isNumbered`), and, when data are written, the unit in which their length is told
(`TransportSize`, in its own module).
-/

namespace S7Comm

/-- The type of the elements that a request is about. -/
inductive ElementType where
  /-- One bit. -/
  | bit
  /-- One byte. -/
  | byte
  /-- One character. -/
  | char
  /-- Two bytes without sign. -/
  | word
  /-- Two bytes with sign. -/
  | int
  /-- Four bytes without sign. -/
  | dword
  /-- Four bytes with sign. -/
  | dint
  /-- A floating-point number of four bytes. -/
  | real
  /-- A number of days. -/
  | date
  /-- Milliseconds since midnight. -/
  | timeOfDay
  /-- A signed number of milliseconds. -/
  | time
  /-- A time span in the packed form of older controllers. -/
  | s5time
  /-- A moment in eight bytes of packed decimals. -/
  | dateAndTime
  /-- A counter. -/
  | counter
  /-- A timer. -/
  | timer
  deriving DecidableEq, Repr

namespace ElementType

/-- The code of a type. -/
def code : ElementType → UInt8
  | .bit => 0x01
  | .byte => 0x02
  | .char => 0x03
  | .word => 0x04
  | .int => 0x05
  | .dword => 0x06
  | .dint => 0x07
  | .real => 0x08
  | .date => 0x09
  | .timeOfDay => 0x0A
  | .time => 0x0B
  | .s5time => 0x0C
  | .dateAndTime => 0x0F
  | .counter => 0x1C
  | .timer => 0x1D

/-- The type of a code. -/
def ofCode? (code : UInt8) : Option ElementType :=
  match code with
  | 0x01 => some .bit
  | 0x02 => some .byte
  | 0x03 => some .char
  | 0x04 => some .word
  | 0x05 => some .int
  | 0x06 => some .dword
  | 0x07 => some .dint
  | 0x08 => some .real
  | 0x09 => some .date
  | 0x0A => some .timeOfDay
  | 0x0B => some .time
  | 0x0C => some .s5time
  | 0x0F => some .dateAndTime
  | 0x1C => some .counter
  | 0x1D => some .timer
  | _ => none

/-- Bytes that an element takes in a payload; a bit takes a whole one. -/
def byteSize : ElementType → Nat
  | .bit | .byte | .char => 1
  | .word | .int | .date | .s5time | .counter | .timer => 2
  | .dword | .dint | .real | .timeOfDay | .time => 4
  | .dateAndTime => 8

/-- Whether the place of an element is its number in the area, not the number of a bit. -/
def isNumbered : ElementType → Bool
  | .counter | .timer => true
  | _ => false

/-- A byte is read as a type exactly if it is that type's code. -/
theorem ofCode?_eq_some_iff {code : UInt8} {type : ElementType} :
    ofCode? code = some type ↔ code = type.code := by
  constructor
  · unfold ofCode?
    split <;> rintro ⟨⟩ <;> rfl
  · rintro rfl
    cases type <;> rfl

end ElementType

end S7Comm
