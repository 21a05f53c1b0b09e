import S7Comm.Client.Control
import S7Comm.Client.Nck
import S7Comm.Client.Read
import S7Comm.Client.Write

/-!
# Commands and runs

The operations of a client as data. A `Command` names one of them with its arguments, an `Answer` is
what it returns, and `Client.perform` does it. With connecting, closing and the bare exchange of a
message beside them they are the steps (`Step`) that can be taken on a session, and `Station.run`
takes steps one after the other, whatever the outcome of each.

Statements about all that can happen to a session are statements about runs.
-/

namespace S7Comm

/-! ## Commands -/

/-- An operation of a client. -/
inductive Command where
  /-- Read elements of a type at a place given by its parts. -/
  | readRaw (type : ElementType) (count : UInt16) (area : Area) (block : UInt16) (byte : UInt32)
      (bit : UInt8)
  /-- Read bytes. -/
  | readBytes (address : String) (count : Nat)
  /-- Read a byte. -/
  | readByte (address : String)
  /-- Read a bit. -/
  | readBit (address : String)
  /-- Read bits, all of which must succeed. -/
  | readBits (addresses : List String)
  /-- Read bits, as far as they can be read. -/
  | readEachBit (addresses : List String)
  /-- Read a number. -/
  | readNumber (type : NumberType) (address : String)
  /-- Read numbers of one kind. -/
  | readNumbers (type : NumberType) (addresses : List String)
  /-- Read a list of places, all of which must succeed. -/
  | readMany (list : ReadList)
  /-- Read a list of places, as far as they can be read. -/
  | readEachOf (list : ReadList)
  /-- Read a string. -/
  | readString (address : String)
  /-- Read a string of at most some number of characters. -/
  | readStringUpTo (address : String) (length : Nat)
  /-- Read a DATE. -/
  | readDate (address : String)
  /-- Read a TIME_OF_DAY. -/
  | readTimeOfDay (address : String)
  /-- Read a TIME. -/
  | readTime (address : String)
  /-- Read a DTL. -/
  | readDateTime (address : String)
  /-- Write elements of a type to a place given by its parts. -/
  | writeRaw (type : ElementType) (count : UInt16) (area : Area) (block : UInt16) (byte : UInt32)
      (bit : UInt8) (size : TransportSize) (bytes : Bytes)
  /-- Write bytes. -/
  | writeBytes (address : String) (bytes : Bytes)
  /-- Write a byte. -/
  | writeByte (address : String) (value : UInt8)
  /-- Write a bit. -/
  | writeBit (address : String) (value : Bool)
  /-- Write a number. -/
  | writeNumber (type : NumberType) (address : String) (value : type.Value)
  /-- Write a string. -/
  | writeString (address : String) (text : String)
  /-- Write a DATE. -/
  | writeDate (address : String) (date : Calendar.Date)
  /-- Write a TIME_OF_DAY. -/
  | writeTimeOfDay (address : String) (time : Calendar.TimeOfDay)
  /-- Write a TIME. -/
  | writeTime (address : String) (duration : Calendar.Duration)
  /-- Write a DTL. -/
  | writeDateTime (address : String) (moment : Calendar.DateTime)
  /-- Write a list of places, all of which must succeed. -/
  | writeMany (list : WriteList)
  /-- Write a list of places, and learn what became of each. -/
  | writeEachOf (list : WriteList)
  /-- Have the controller do a job. -/
  | control (job : Pdu.Control)
  /-- Read items of a numerical control. -/
  | readNck (items : List NckItem)
  /-- Read a text of a numerical control. -/
  | readNckText (text : NckText)
  /-- Read a real number of a numerical control. -/
  | readNckReal (real : NckReal)
  /-- Read a position of a numerical control. -/
  | readNckPosition (position : NckPosition)
  /-- Read a word of a numerical control. -/
  | readNckWord (word : NckWord)
  /-- Read the first alarm of a numerical control. -/
  | readFirstAlarm

/-- What an operation returns. -/
inductive Answer where
  /-- Nothing but that it was done. -/
  | nothing
  /-- Bytes. -/
  | bytes (bytes : Bytes)
  /-- A byte. -/
  | byte (value : UInt8)
  /-- A bit. -/
  | bit (value : Bool)
  /-- Bits. -/
  | bits (values : List Bool)
  /-- Bits, as far as they could be read. -/
  | maybeBits (values : List (Option Bool))
  /-- A number. -/
  | number (type : NumberType) (value : type.Value)
  /-- Numbers of one kind. -/
  | numbers (type : NumberType) (values : List type.Value)
  /-- Data items. -/
  | items (items : List DataItem)
  /-- Payloads, as far as they could be read. -/
  | payloads (payloads : List (Option Bytes))
  /-- The return codes of items. -/
  | codes (codes : List ReturnCode)
  /-- A text. -/
  | text (text : String)
  /-- A date. -/
  | date (date : Calendar.Date)
  /-- A time of the day. -/
  | timeOfDay (time : Calendar.TimeOfDay)
  /-- A duration. -/
  | duration (duration : Calendar.Duration)
  /-- A date and time. -/
  | dateTime (moment : Calendar.DateTime)

/-- Do what a command says. -/
def Client.perform {S : Type} (c : Client S) : Command → Call S Answer
  | .readRaw type count area block byte bit =>
    return .bytes (← c.readRaw type count area block byte bit)
  | .readBytes address count => return .bytes (← c.readBytes address count)
  | .readByte address => return .byte (← c.readByte address)
  | .readBit address => return .bit (← c.readBit address)
  | .readBits addresses => return .bits (← c.readBits addresses)
  | .readEachBit addresses => return .maybeBits (← c.readEachBit addresses)
  | .readNumber type address => return .number type (← c.readNumber type.Value address)
  | .readNumbers type addresses => return .numbers type (← c.readNumbers type.Value addresses)
  | .readMany list => return .items (← c.readMany list)
  | .readEachOf list => return .payloads (← c.readEachOf list)
  | .readString address => return .text (← c.readString address)
  | .readStringUpTo address length => return .text (← c.readStringUpTo address length)
  | .readDate address => return .date (← c.readDate address)
  | .readTimeOfDay address => return .timeOfDay (← c.readTimeOfDay address)
  | .readTime address => return .duration (← c.readTime address)
  | .readDateTime address => return .dateTime (← c.readDateTime address)
  | .writeRaw type count area block byte bit size bytes => do
    c.writeRaw type count area block byte bit size bytes
    return .nothing
  | .writeBytes address bytes => do c.writeBytes address bytes; return .nothing
  | .writeByte address value => do c.writeByte address value; return .nothing
  | .writeBit address value => do c.writeBit address value; return .nothing
  | .writeNumber _ address value => do c.writeNumber address value; return .nothing
  | .writeString address text => do c.writeString address text; return .nothing
  | .writeDate address date => do c.writeDate address date; return .nothing
  | .writeTimeOfDay address time => do c.writeTimeOfDay address time; return .nothing
  | .writeTime address duration => do c.writeTime address duration; return .nothing
  | .writeDateTime address moment => do c.writeDateTime address moment; return .nothing
  | .writeMany list => do c.writeMany list; return .nothing
  | .writeEachOf list => return .codes (← c.writeEachOf list)
  | .control job => do c.control job; return .nothing
  | .readNck items => return .items (← c.readNck items)
  | .readNckText text => return .text (← c.readNckText text)
  | .readNckReal real => return .number .real64 (← c.readNckReal real)
  | .readNckPosition position => return .numbers .real64 (← c.readNckPosition position)
  | .readNckWord word => return .number .uint16 (← c.readNckWord word)
  | .readFirstAlarm => return .number .uint32 (← c.readFirstAlarm)

/-! ## Runs -/

/-- A step on a session. -/
inductive Step where
  /-- Connect it. -/
  | connect
  /-- Close it. -/
  | close
  /-- Exchange a message. -/
  | exchange (message : Bytes)
  /-- Do what a command says. -/
  | command (command : Command)

namespace Station

variable {σ : Type}

/-- Take a step. -/
def perform (peer : Peer σ) (step : Step) : Call (Station σ) Answer := fun st =>
  match step with
  | .connect => (do connect peer; return .nothing : Call (Station σ) Answer) st
  | .close => (do close peer; return .nothing : Call (Station σ) Answer) st
  | .exchange message => (do return .bytes (← exchange peer message) : Call (Station σ) Answer) st
  | .command command => (Client.ofPeer peer st.session.options).perform command st

/-- Take steps one after the other: their outcomes, and the station after the last of them. -/
def run (peer : Peer σ) : List Step → Station σ → List (Except Error Answer) × Station σ
  | [], st => ([], st)
  | step :: steps, st =>
    let (outcome, st) := (perform peer step).outcome st
    let (outcomes, st) := run peer steps st
    (outcome :: outcomes, st)

end Station

end S7Comm
