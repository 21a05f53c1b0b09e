import S7Comm.Client.Basic
import S7Comm.Payload

/-!
# Data of a numerical control

What a numerical control tells about itself and the work in progress: texts, numbers, and positions
along several axes. Each has its place, given here as request items, and is read from there. Numbers
are little-endian whatever the family; texts are Latin-1, padded with control characters and spaces.
-/

namespace S7Comm

/-! ## Places -/

/-- One line of unit 1. -/
def NckItem.single (area : NckArea) (column line : UInt16) (module : NckModule) : NckItem :=
  { area, unit := 1, column, line, module, lineCount := 1 }

/-- The texts of a numerical control. -/
inductive NckText where
  /-- What the control is called. -/
  | identification
  /-- The version of its software. -/
  | version
  /-- Its type, in the first form. -/
  | firstType
  /-- When it was made. -/
  | manufactureDate
  /-- Its type. -/
  | type
  /-- The program that is selected. -/
  | programName
  deriving DecidableEq, Repr

/-- The place of a text. -/
def NckText.item : NckText → NckItem
  | .identification => .single .nck 18030 1 .m
  | .version => .single .nck 18040 1 .m
  | .firstType => .single .nck 18040 2 .m
  | .manufactureDate => .single .nck 18040 3 .m
  | .type => .single .nck 18040 4 .m
  | .programName => .single .channel 12 1 .sparpp

/-- The floating-point numbers of a numerical control. -/
inductive NckReal where
  /-- The speed of the spindle as it is. -/
  | actualSpindleSpeed
  /-- The speed of the spindle as programmed. -/
  | setSpindleSpeed
  /-- The override of the spindle. -/
  | spindleRate
  /-- The override of the feed. -/
  | feedRate
  /-- The feed as programmed. -/
  | setFeedRate
  /-- The feed as it is. -/
  | actualFeedRate
  /-- How long the program has run, in seconds. -/
  | runTime
  /-- How long the program will run, in seconds. -/
  | remainingTime
  deriving DecidableEq, Repr

/-- The place of a floating-point number. -/
def NckReal.item : NckReal → NckItem
  | .actualSpindleSpeed => .single .channel 2 1 .ssp
  | .setSpindleSpeed => .single .nck 3 4 .ssp
  | .spindleRate => .single .channel 4 1 .ssp
  | .feedRate => .single .channel 3 1 .s
  | .setFeedRate => .single .channel 2 1 .s
  | .actualFeedRate => .single .channel 1 1 .s
  | .runTime => .single .channel 297 1 .s
  | .remainingTime => .single .channel 298 1 .s

/-- The positions of a numerical control, along several axes each. -/
inductive NckPosition where
  /-- Coordinates of the machine, along four axes. -/
  | machine
  /-- Coordinates of the workpiece, along four axes. -/
  | relative
  /-- What is left to go, along four axes. -/
  | remaining
  /-- The offset of the tool, along three axes. -/
  | toolOffset
  deriving DecidableEq, Repr

/-- The places of a position, one for each axis. -/
def NckPosition.items : NckPosition → List NckItem
  | .machine => [1, 2, 3, 4].map fun line => .single .channel 2 line .sma
  | .relative => [1, 2, 3, 4].map fun line => .single .channel 25 line .sega
  | .remaining => [1, 2, 3, 4].map fun line => .single .channel 3 line .sma
  | .toolOffset => [4, 5, 6].map fun line => .single .channel 1 line .fu

/-- The numbers without fraction of a numerical control that have two bytes. -/
inductive NckWord where
  /-- The tool radius compensation in use. -/
  | toolRadiusCompensation
  /-- The tool in use. -/
  | tool
  /-- The mode of operation. -/
  | workMode
  /-- The state of the program. -/
  | status
  /-- How many alarms there are. -/
  | alarmCount
  deriving DecidableEq, Repr

/-- The place of a number of two bytes. -/
def NckWord.item : NckWord → NckItem
  | .toolRadiusCompensation => .single .channel 35 1 .s
  | .tool => .single .channel 23 1 .s
  | .workMode => .single .modeGroup 3 1 .s
  | .status => .single .channel 11 1 .s
  | .alarmCount => .single .nck 7 1 .s

/-- The place of the number of the first alarm, which has four bytes. -/
def NckItem.firstAlarm : NckItem :=
  .single .nck 1 1 .sala

/-! ## Reading them -/

namespace Client

variable {S : Type}

/-- The data items of some places. -/
def readNck (c : Client S) (items : List NckItem) : Call S (List DataItem) :=
  Batch.readAll c.channel (items.map .nck)

/-- The payload of one place. -/
def readNckItem (c : Client S) (item : NckItem) : Call S Bytes := do
  let items ← c.readNck [item]
  match items.getLast? with
  | some item => return item.payload
  | none => throw (.framing .noDataItem)

/-- The number at one place. -/
def readNckAs (c : Client S) (α : Type) [Numeric α] (item : NckItem) : Call S α := do
  let bytes ← c.readNckItem item
  Numeric.decode α .little bytes

/-- A text, without its padding. -/
def readNckText (c : Client S) (text : NckText) : Call S String := do
  let bytes ← c.readNckItem text.item
  return String.ofList (Text.strip Text.isPadding (Latin1.decode bytes).toList)

/-- A floating-point number. -/
def readNckReal (c : Client S) (real : NckReal) : Call S Real64 :=
  c.readNckAs Real64 real.item

/-- A number of two bytes. -/
def readNckWord (c : Client S) (word : NckWord) : Call S UInt16 :=
  c.readNckAs UInt16 word.item

/-- The number of the first alarm. -/
def readFirstAlarm (c : Client S) : Call S UInt32 :=
  c.readNckAs UInt32 .firstAlarm

/-- A position. -/
def readNckPosition (c : Client S) (position : NckPosition) : Call S (List Real64) := do
  let results ← c.readNck position.items
  results.mapM fun item => Numeric.decode Real64 .little item.payload

end Client

end S7Comm
