import S7Comm.Bytes
import S7Comm.Error.Argument
import S7Comm.Error.Framing
import S7Comm.NckCodes

/-!
# Request items for a numerical control

An item asks for lines of one column of a module. On the wire it has ten bytes: a fixed start of
three (`0x12`, the length 8, and `0x82` for this way of addressing), one byte for area and unit, the
column, the first line, the module and the number of lines.

Area and unit share a byte, three bits for the one and five for the other; so a unit is at most 31
(`NckItem.make`), and of a larger one the lowest five bits are sent.
-/

namespace S7Comm

/-- A request for data of a numerical control. -/
structure NckItem where
  /-- The area. -/
  area : NckArea
  /-- The unit within the area: which channel, say, or which axis. -/
  unit : UInt8
  /-- The column: which variable. -/
  column : UInt16
  /-- The first line: which of its values. -/
  line : UInt16
  /-- The module. -/
  module : NckModule
  /-- The number of lines. -/
  lineCount : UInt8
  deriving DecidableEq, Repr

namespace NckItem

/-- The item itself, if its unit has a code. -/
def checked (item : NckItem) : Except ArgumentError NckItem :=
  if item.unit > 31 then .error (.nckUnit item.unit) else .ok item

/-- Bytes of an item on the wire. -/
def encodedLength : Nat := 10

/-- The byte that area and unit share. -/
def areaUnit (item : NckItem) : UInt8 :=
  (item.area.code <<< 5) ||| (item.unit &&& 31)

/-- The bytes of an item. -/
def encode (item : NckItem) : Bytes :=
  [0x12, 8, 0x82, item.areaUnit] ++ wordBytes item.column ++ wordBytes item.line ++
    [item.module.code, item.lineCount]

/-- The item at the front of some bytes, and the bytes behind it. -/
def decode (bytes : Bytes) : Except FramingError (NckItem × Bytes) :=
  match bytes with
  | start :: length :: addressing :: areaUnit :: column₁ :: column₀ :: line₁ :: line₀ :: moduleCode ::
      lineCount :: rest =>
    if start ≠ 0x12 ∨ length ≠ 8 ∨ addressing ≠ 0x82 then .error .notNckItem
    else match NckArea.ofCode? (areaUnit >>> 5) with
      | none => .error (.unknownNckArea (areaUnit >>> 5))
      | some area =>
        match NckModule.ofCode? moduleCode with
        | none => .error (.unknownNckModule moduleCode)
        | some module =>
          .ok ({ area, unit := areaUnit &&& 31, column := word column₁ column₀,
                 line := word line₁ line₀, module, lineCount }, rest)
  | _ => .error .nckItemTruncated

end NckItem

end S7Comm
