/-!
# Areas and modules of a numerical control

Beside its CPU a machine tool has a numerical control, whose data are not addressed by bytes: an
area and a unit of it (a channel, say, or an axis), a module, a column for the variable and a line
for its index. This file has the codes of the areas and the modules.

An area has three bits of a byte, so that all of its codes are taken; the modules leave gaps.
-/

namespace S7Comm

/-! ## Areas -/

/-- An area of the data of a numerical control. -/
inductive NckArea where
  /-- Data of the control as a whole. -/
  | nck
  /-- Data of a mode group. -/
  | modeGroup
  /-- Data of a channel. -/
  | channel
  /-- Data of an axis. -/
  | axis
  /-- Data of a tool. -/
  | tool
  /-- Data of a feed drive. -/
  | feedDrive
  /-- Data of a main drive. -/
  | mainDrive
  /-- Data of the operator panel. -/
  | mmc
  deriving DecidableEq, Repr

namespace NckArea

/-- The code of an area. -/
def code : NckArea → UInt8
  | .nck => 0
  | .modeGroup => 1
  | .channel => 2
  | .axis => 3
  | .tool => 4
  | .feedDrive => 5
  | .mainDrive => 6
  | .mmc => 7

/-- The area of a code. -/
def ofCode? (code : UInt8) : Option NckArea :=
  match code with
  | 0 => some .nck
  | 1 => some .modeGroup
  | 2 => some .channel
  | 3 => some .axis
  | 4 => some .tool
  | 5 => some .feedDrive
  | 6 => some .mainDrive
  | 7 => some .mmc
  | _ => none

/-- A byte is read as an area exactly if it is that area's code. -/
theorem ofCode?_eq_some_iff {code : UInt8} {area : NckArea} :
    ofCode? code = some area ↔ code = area.code := by
  constructor
  · unfold ofCode?
    split <;> rintro ⟨⟩ <;> rfl
  · rintro rfl
    cases area <;> rfl

end NckArea

/-! ## Modules -/

/-- A module of the data of a numerical control, by its short name. -/
inductive NckModule where
  /-- Global system data. -/
  | y
  /-- Global frames that can be set. -/
  | fu
  /-- Tool offsets. -/
  | to
  /-- Global state. -/
  | se
  /-- Machine data. -/
  | m
  /-- State of the geometry axes, extended. -/
  | sega
  /-- State of the machine axes, extended. -/
  | sema
  /-- State of the spindle. -/
  | ssp
  /-- State of the geometry axes. -/
  | sga
  /-- State of the machine axes. -/
  | sma
  /-- Alarms by time. -/
  | salal
  /-- Alarms by priority. -/
  | salap
  /-- Alarms. -/
  | sala
  /-- Synchronous actions. -/
  | ssynac
  /-- Program pointers at an interruption. -/
  | sparpf
  /-- Program pointers in automatic operation. -/
  | sparpp
  /-- Active functions of the program. -/
  | sncf
  /-- The part program. -/
  | sparp
  /-- State that belongs to the part program. -/
  | sinf
  /-- State. -/
  | s
  deriving DecidableEq, Repr

namespace NckModule

/-- The code of a module. -/
def code : NckModule → UInt8
  | .y => 0x10
  | .fu => 0x12
  | .to => 0x14
  | .se => 0x16
  | .m => 0x1A
  | .sega => 0x70
  | .sema => 0x71
  | .ssp => 0x72
  | .sga => 0x73
  | .sma => 0x74
  | .salal => 0x75
  | .salap => 0x76
  | .sala => 0x77
  | .ssynac => 0x78
  | .sparpf => 0x79
  | .sparpp => 0x7A
  | .sncf => 0x7B
  | .sparp => 0x7D
  | .sinf => 0x7E
  | .s => 0x7F

/-- The module of a code. -/
def ofCode? (code : UInt8) : Option NckModule :=
  match code with
  | 0x10 => some .y
  | 0x12 => some .fu
  | 0x14 => some .to
  | 0x16 => some .se
  | 0x1A => some .m
  | 0x70 => some .sega
  | 0x71 => some .sema
  | 0x72 => some .ssp
  | 0x73 => some .sga
  | 0x74 => some .sma
  | 0x75 => some .salal
  | 0x76 => some .salap
  | 0x77 => some .sala
  | 0x78 => some .ssynac
  | 0x79 => some .sparpf
  | 0x7A => some .sparpp
  | 0x7B => some .sncf
  | 0x7D => some .sparp
  | 0x7E => some .sinf
  | 0x7F => some .s
  | _ => none

/-- A byte is read as a module exactly if it is that module's code. -/
theorem ofCode?_eq_some_iff {code : UInt8} {module : NckModule} :
    ofCode? code = some module ↔ code = module.code := by
  constructor
  · unfold ofCode?
    split <;> rintro ⟨⟩ <;> rfl
  · rintro rfl
    cases module <;> rfl

end NckModule

end S7Comm
