import S7Comm.Calendar.Time

/-!
# What is wrong with an argument

Arguments that the protocol cannot express are refused before anything is sent. The causes carry the
argument itself; some of them differ only in whether the wording shows it.
-/

namespace S7Comm

open Calendar

/-- A reason why an argument cannot be expressed. -/
inductive ArgumentError where
  /-- A character outside Latin-1. -/
  | notLatin1 (c : Char)
  /-- A date that is no sixteen-bit number of days. -/
  | dateRange (date : Date)
  /-- More milliseconds than a day has. -/
  | notTimeOfDay (ms : Nat)
  /-- A duration that is no 32-bit number of milliseconds. -/
  | durationRange (duration : Duration)
  /-- Fields that are no moment. -/
  | notDateTime
  /-- A moment outside the years that are stored. -/
  | dateTimeRange (moment : DateTime)
  /-- The bit of an address beyond the byte. -/
  | addressBit (bit : UInt8)
  /-- The byte of an address beyond the area. -/
  | addressByte (byte : Nat)
  /-- A request for nothing. -/
  | zeroCount
  /-- The bit of an item beyond the byte. -/
  | itemBit
  /-- Nothing to write. -/
  | noData
  /-- More data than one item can name. -/
  | dataTooLong (length : Nat)
  /-- Data for timers or counters that end within one. -/
  | partialElement (length : Nat)
  /-- More timers or counters than one item can name. -/
  | elementsTooLong (length : Nat)
  /-- More items than one request can name. -/
  | tooManyItems (count : Nat)
  /-- A request without items. -/
  | noItems
  /-- Another number of data than of items. -/
  | unpairedData (items data : Nat)
  /-- Parameters longer than a header can declare. -/
  | parametersTooLong
  /-- Data longer than a header can declare. -/
  | dataBlockTooLong
  /-- A unit of a numerical control that has no code. -/
  | nckUnit (unit : UInt8)
  /-- The number of a block with more than five digits. -/
  | blockNumber (number : Nat)
  /-- A string length that no string variable has. -/
  | stringLength (length : Nat)
  /-- A text longer than any string variable. -/
  | stringTooLong (length : Nat)
  deriving DecidableEq

/-- The reason in words. -/
def ArgumentError.message : ArgumentError → String
  | .notLatin1 c => s!"character '{c}' cannot be encoded as Latin-1"
  | .dateRange date => date.text ++ " is outside the DATE range"
  | .notTimeOfDay ms => s!"{ms} ms is not a time of day"
  | .durationRange duration => duration.text ++ " is outside the TIME range"
  | .notDateTime => "invalid DTL value"
  | .dateTimeRange moment => moment.text ++ " is outside the DTL range"
  | .addressBit bit => s!"bit offset {bit} is out of range [0..7]"
  | .addressByte byte => s!"byte offset {byte} is out of range"
  | .zeroCount => "count must be > 0"
  | .itemBit => "bit offset is out of range [0..7]"
  | .noData => "data must not be empty"
  | .dataTooLong length => s!"{length} bytes do not fit into a single item"
  | .partialElement length => s!"{length} bytes are not whole timer/counter elements"
  | .elementsTooLong length => s!"{length} bytes of timers/counters in one read"
  | .tooManyItems count => s!"{count} items do not fit in one request"
  | .noItems => "a request needs at least one item"
  | .unpairedData items data => s!"{items} request items but {data} data items"
  | .parametersTooLong => "parameter block too large"
  | .dataBlockTooLong => "data block too large"
  | .nckUnit unit => s!"NCK unit {unit} is out of range [0..31]"
  | .blockNumber number => s!"block number {number} is out of range [0..99999]"
  | .stringLength length => s!"string length {length} is out of range [1..254]"
  | .stringTooLong length => s!"string of {length} characters exceeds 254"

end S7Comm
