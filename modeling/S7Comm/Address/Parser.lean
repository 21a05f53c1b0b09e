import S7Comm.Address.Basic
import S7Comm.Error
import S7Comm.Text.Blank
import S7Comm.Text.Decimal

/-!
# Reading addresses

An address is written in one of three ways; letters may be upper or lower case, and blanks may stand
around the whole.

* A data block: `DB`, the number of the block, a point, and a place in the block, in front of which
  another `DB` may stand: `DB1.DBX40.3`, `DB2.W10`.
* Another area of bytes: a letter and a place. `I` and `E` are inputs, `Q` and `A` outputs, `M` and
  `F` flags, `V` the first data block.
* A timer (`T`) or a counter (`C`, `Z`): the letter and the number of the element.

**A place** is the number of a byte, with the number of a bit after a point. One of the letters `X`,
`B`, `W` and `D` may stand in front, and after the last three, which stand for an access to whole
bytes, there must be no bit.

**Order of the complaints.** A text can be wrong in several ways, and which of them is reported is
part of the behaviour: the number of the block before the place, the byte before the bit, and a bit
that should not be there last of all; of a timer or counter, a point before anything else.
-/

namespace S7Comm.Address

/-! ## The pieces of an address -/

/-- What stands in front of the first point, and what stands after it if there is one. -/
def splitPoint (cs : List Char) : List Char × Option (List Char) :=
  (cs.takeWhile (· != '.'), (cs.dropWhile (· != '.')).tail?)

/-- The number of a data block: decimal, a plus in front being allowed, and not above 65535. -/
def blockNumber? (cs : List Char) : Option UInt16 :=
  let number? := match cs with
    | '+' :: digits => Decimal.parse? digits
    | digits => Decimal.parse? digits
  match number? with
  | some number => if number ≤ 65535 then some (UInt16.ofNat number) else none
  | none => none

/-- The number of a byte, and that of a bit if one is given. -/
def parseOffset (cs : List Char) : Except AddressError (UInt32 × Option UInt8) :=
  let (byteText, bitText?) := splitPoint cs
  match Decimal.parse? byteText with
  | none => .error .byteNotNumeric
  | some byte =>
    if byte > maxByteOffset then .error .byteOutOfRange
    else match bitText? with
      | none => .ok (UInt32.ofNat byte, none)
      | some bitText =>
        match Decimal.parse? bitText with
        | none => .error .bitNotNumeric
        | some bit =>
          if bit > 7 then .error .bitOutOfRange
          else .ok (UInt32.ofNat byte, some (UInt8.ofNat bit))

/-- A letter for the size of the access at the front of a place, and the rest. -/
def splitSize (cs : List Char) : Option Char × List Char :=
  match cs with
  | [] => (none, [])
  | c :: rest => if c = 'X' ∨ c = 'B' ∨ c = 'W' ∨ c = 'D' then (some c, rest) else (none, c :: rest)

/-! ## The three ways to write an address -/

/-- A place in an area of bytes. -/
def parsePlace (area : Area) (block : UInt16) (cs : List Char) : Except AddressError Address := do
  let (size?, offset) := splitSize cs
  let (byte, bit?) ← parseOffset offset
  if bit?.isSome ∧ (size? = some 'B' ∨ size? = some 'W' ∨ size? = some 'D') then
    throw .bitOfWhole
  return { area, block, byte, bit := bit?.getD 0 }

/-- The number of a timer or counter. -/
def parseElement (area : Area) (cs : List Char) : Except AddressError Address := do
  if '.' ∈ cs then
    throw .bitOfElement
  let (number, _) ← parseOffset cs
  return { area, block := 0, byte := number, bit := 0 }

/-- What follows the `DB` in front of a block number. -/
def parseBlock (cs : List Char) : Except AddressError Address := do
  let (blockText, place?) := splitPoint cs
  if place? = none ∧ (Decimal.parse? cs).isSome then
    throw .byteMissing
  if blockText = [] then
    throw .blockMissing
  match blockNumber? blockText with
  | none => throw .blockNotNumeric
  | some block =>
    match place?.getD [] with
    | 'D' :: 'B' :: place => parsePlace .dataBlock block place
    | place => parsePlace .dataBlock block place

/-- The data block that the letter `V` stands for. -/
def variableBlock : UInt16 := 1

/-- An address in upper case, without blanks around it. -/
def parseUpper (cs : List Char) : Except AddressError Address :=
  match cs with
  | [] => .error .empty
  | 'D' :: 'B' :: rest => parseBlock rest
  | 'I' :: rest => parsePlace .input 0 rest
  | 'E' :: rest => parsePlace .input 0 rest
  | 'Q' :: rest => parsePlace .output 0 rest
  | 'A' :: rest => parsePlace .output 0 rest
  | 'M' :: rest => parsePlace .marker 0 rest
  | 'F' :: rest => parsePlace .marker 0 rest
  | 'V' :: rest => parsePlace .dataBlock variableBlock rest
  | 'T' :: rest => parseElement .timer rest
  | 'C' :: rest => parseElement .counter rest
  | 'Z' :: rest => parseElement .counter rest
  | _ => .error .unrecognizedArea

/-- The text that the grammar is about: without the blanks around it, and in upper case as far as
ASCII has cases. -/
def normalize (text : String) : List Char :=
  (Text.strip Text.isBlank text.toList).map Char.toUpper

/-- The address that a text denotes. -/
def parse (text : String) : Except Error Address :=
  (parseUpper (normalize text)).mapError (.address text)

end S7Comm.Address
