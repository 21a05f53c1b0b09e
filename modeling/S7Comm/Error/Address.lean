/-!
# What is wrong with the text of an address
-/

namespace S7Comm

/-- A reason why a text is no address. -/
inductive AddressError where
  /-- Nothing but blanks. -/
  | empty
  /-- No area begins like this. -/
  | unrecognizedArea
  /-- A data block without a place in it. -/
  | byteMissing
  /-- A data block without a number. -/
  | blockMissing
  /-- The number of the data block is none. -/
  | blockNotNumeric
  /-- There is no number where that of the byte should stand. -/
  | byteNotNumeric
  /-- The number of the byte is too large. -/
  | byteOutOfRange
  /-- There is no number where that of the bit should stand. -/
  | bitNotNumeric
  /-- The number of the bit is too large. -/
  | bitOutOfRange
  /-- A bit of something that is accessed as a whole. -/
  | bitOfWhole
  /-- A bit of a timer or counter. -/
  | bitOfElement
  deriving DecidableEq, Repr

/-- The reason in words. -/
def AddressError.message : AddressError → String
  | .empty => "empty address"
  | .unrecognizedArea => "unrecognized area"
  | .byteMissing => "byte offset missing"
  | .blockMissing => "data block number missing"
  | .blockNotNumeric => "data block number is not numeric"
  | .byteNotNumeric => "byte offset missing or not numeric"
  | .byteOutOfRange => "byte offset out of range"
  | .bitNotNumeric => "bit offset missing or not numeric"
  | .bitOutOfRange => "bit offset out of range [0..7]"
  | .bitOfWhole => "bit offset is only allowed for bit access"
  | .bitOfElement => "timers and counters take no bit offset"

end S7Comm
