import S7Comm.Pdu.Header
import S7Comm.Text.Decimal

/-!
# Control jobs

A client can have a controller restart, stop, copy or compress its memory, and insert a block that
was loaded before. Each is a request without data, whose parameters name a service of the controller
and, for some, an argument of the service; the texts are ASCII. Stopping has a form of its own.

The answer is any acknowledgment of the request that reports no error; it need not have data.
-/

namespace S7Comm.Pdu

/-! ## What is controlled -/

/-- The kind of a program block. -/
inductive BlockType where
  /-- Organization block. -/
  | ob
  /-- Data block. -/
  | db
  /-- System data block. -/
  | sdb
  /-- Function. -/
  | fc
  /-- System function. -/
  | sfc
  /-- Function block. -/
  | fb
  /-- System function block. -/
  | sfb
  deriving DecidableEq, Repr

/-- The two characters that stand for a kind of block. -/
def BlockType.code : BlockType → List Char
  | .ob => ['0', '8']
  | .db => ['0', 'A']
  | .sdb => ['0', 'B']
  | .fc => ['0', 'C']
  | .sfc => ['0', 'D']
  | .fb => ['0', 'E']
  | .sfb => ['0', 'F']

/-- Where a block is inserted. -/
inductive FileSystem where
  /-- The passive file system. -/
  | passive
  /-- The active file system. -/
  | active
  /-- The active embedded file system. -/
  | embedded
  deriving DecidableEq, Repr, Inhabited

/-- The character that stands for a file system. -/
def FileSystem.code : FileSystem → Char
  | .passive => 'P'
  | .active => 'A'
  | .embedded => 'B'

/-- A job of control. -/
inductive Control where
  /-- Restart the program where it stands. -/
  | hotRestart
  /-- Restart the program from its beginning, resetting what it retained. -/
  | coldRestart
  /-- Stop the program. -/
  | stop
  /-- Copy the working memory to the load memory. -/
  | copyRamToRom
  /-- Compress the memory. -/
  | compress
  /-- Insert a block. -/
  | insert (type : BlockType) (number : UInt32) (fileSystem : FileSystem)
  deriving DecidableEq, Repr

namespace Control

/-! ## Parameters -/

/-- The bytes of an ASCII text. -/
def ascii (cs : List Char) : Bytes :=
  cs.map fun c => UInt8.ofNat c.toNat

/-- The parameters that call a service with an argument. -/
def service (argument name : Bytes) : Bytes :=
  [0x28, 0, 0, 0, 0, 0, 0, 0xFD] ++ wordBytes (UInt16.ofNat argument.length) ++ argument ++
    UInt8.ofNat name.length :: name

/-- The service that runs programs. -/
def programService : Bytes :=
  ascii ['P', '_', 'P', 'R', 'O', 'G', 'R', 'A', 'M']

/-- The service that copies memory. -/
def copyService : Bytes :=
  ascii ['_', 'M', 'O', 'D', 'U']

/-- The service that collects unused memory. -/
def compressService : Bytes :=
  ascii ['_', 'G', 'A', 'R', 'B']

/-- The service that inserts blocks. -/
def insertService : Bytes :=
  ascii ['_', 'I', 'N', 'S', 'E']

/-- The largest number of a block: it is written with five digits. -/
def maxBlockNumber : Nat := 99999

/-- The argument that names a block and where to insert it. -/
def insertArgument (type : BlockType) (number : Nat) (fileSystem : FileSystem) : Bytes :=
  [0x01, 0x00] ++
    ascii (type.code ++ (Decimal.digits number).leftpad 5 '0' ++ [fileSystem.code])

/-- The parameter block of a job, if the number of its block has one. -/
def parameters : Control → Except ArgumentError Bytes
  | .hotRestart => .ok (service [] programService)
  | .coldRestart => .ok (service (ascii ['C', ' ']) programService)
  | .stop => .ok ([0x29, 0, 0, 0, 0, 0, UInt8.ofNat programService.length] ++ programService)
  | .copyRamToRom => .ok (service (ascii ['E', 'P']) copyService)
  | .compress => .ok (service [] compressService)
  | .insert type number fileSystem =>
    if number.toNat > maxBlockNumber then .error (.blockNumber number.toNat)
    else .ok (service (insertArgument type number.toNat fileSystem) insertService)

/-! ## Request and answer -/

/-- The request for a job. -/
def encode (c : Control) (reference : UInt16) : Except ArgumentError Bytes := do
  let parameters ← c.parameters
  let header ← Header.job reference parameters.length 0
  return header.encode ++ parameters

/-- The header of an answer to the request with the given reference, if the answer says that the job
was done. -/
def validateAck (bytes : Bytes) (reference : UInt16) : Except Error Header := do
  let (header, _) ← Header.decode bytes
  header.requireAck
  header.requireReference reference
  header.requireNoReport
  return header

end Control

end S7Comm.Pdu
