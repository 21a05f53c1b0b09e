import S7Comm.Number

/-!
# Families of controllers and how to connect to them

The families of controllers differ for a client in a few points only, and `Family.profile` is the
table of them: where the CPU sits, how long messages may be, how strings are kept, how the access
points are chosen, in which order the bytes of a number lie.

`Options` is what a connection is made from. It begins with a host and the profile of a family
(`Options.ofFamily`), and each of its fields can be set otherwise.

**The address** of the controller is its host and a port, with a colon between them
(`Options.socketAddress`). How a host is found by its name is up to the system.

**Access points.** Either end of a connection is named by a word. That of the controller tells the
kind of connection in its upper byte and the seat of the CPU in its lower one, 32 times the rack plus
the slot. One family has a fixed pair instead.
-/

namespace S7Comm

/-! ## Families -/

/-- A family of controllers. -/
inductive Family where
  /-- S7-200 behind a communication module. -/
  | s7200
  /-- S7-200 SMART. -/
  | s7200Smart
  /-- S7-300. -/
  | s7300
  /-- S7-400. -/
  | s7400
  /-- S7-1200. -/
  | s71200
  /-- S7-1500. -/
  | s71500
  /-- SINUMERIK 828D, which has the data of a numerical control as well. -/
  | sinumerik828D
  deriving DecidableEq, Repr

/-- What a client has to know of a family. -/
structure FamilyProfile where
  /-- The rack in which the CPU usually sits. -/
  rack : UInt8
  /-- The slot in which the CPU usually sits. -/
  slot : UInt8
  /-- The length of messages that is proposed. -/
  pduLength : UInt16
  /-- Bytes in front of the characters of a string; the last of them is the length of the string. -/
  stringHeaderLength : UInt8
  /-- The access points of client and controller, where they do not depend on rack and slot. -/
  fixedAccess : Option (UInt16 × UInt16)
  /-- The order of the bytes of a number. -/
  byteOrder : ByteOrder
  deriving DecidableEq, Repr

namespace Family

/-- The profile from which the others differ in a field or two. -/
def baseProfile : FamilyProfile :=
  { rack := 0, slot := 1, pduLength := 240, stringHeaderLength := 2, fixedAccess := none,
    byteOrder := .big }

/-- The profile of a family. -/
def profile : Family → FamilyProfile
  | .s7200 => { baseProfile with fixedAccess := some (0x4D57, 0x4D57) }
  | .s7200Smart => { baseProfile with stringHeaderLength := 1 }
  | .s7300 => { baseProfile with slot := 2 }
  | .s7400 => { baseProfile with slot := 3, pduLength := 480 }
  | .s71200 => baseProfile
  | .s71500 => { baseProfile with pduLength := 960 }
  | .sinumerik828D => { baseProfile with slot := 0 }

end Family

/-! ## Options -/

/-- The kind of a connection, as the controller distinguishes them. -/
inductive ConnectionType where
  /-- That of a programming device. -/
  | pg
  /-- That of an operator panel. -/
  | op
  /-- That of a device which only exchanges data. -/
  | basic
  deriving DecidableEq, Repr, Inhabited

/-- The code of a kind of connection. -/
def ConnectionType.code : ConnectionType → UInt16
  | .pg => 1
  | .op => 2
  | .basic => 3

/-- What a connection is made from. -/
structure Options where
  /-- The name of the controller's host, or its address. -/
  host : String
  /-- The port on which it is reached. -/
  port : UInt16
  /-- The family of the controller. -/
  family : Family
  /-- The rack of the CPU. -/
  rack : UInt8
  /-- The slot of the CPU. -/
  slot : UInt8
  /-- The kind of connection. -/
  connectionType : ConnectionType
  /-- The length of messages to propose. -/
  pduLength : UInt16
  /-- Nanoseconds that opening the connection may take. -/
  connectTimeout : Nat
  /-- Nanoseconds that a request and its answer may take. -/
  exchangeTimeout : Nat
  deriving DecidableEq, Repr

namespace Options

/-- The port on which controllers take connections. -/
def defaultPort : UInt16 := 102

/-- The options for a host that go with a family: three seconds for opening the connection, four for
an exchange. -/
def ofFamily (host : String) (family : Family) : Options :=
  { host, port := defaultPort, family, rack := family.profile.rack, slot := family.profile.slot
    connectionType := .pg, pduLength := family.profile.pduLength, connectTimeout := 3000000000
    exchangeTimeout := 4000000000 }

/-- Where the controller is reached. -/
def socketAddress (o : Options) : String :=
  o.host ++ ":" ++ toString o.port.toNat

/-- The profile of the family. -/
def profile (o : Options) : FamilyProfile :=
  o.family.profile

/-- The access point of the client. -/
def localAccess (o : Options) : UInt16 :=
  match o.profile.fixedAccess with
  | some (localAccess, _) => localAccess
  | none => 0x0100

/-- The access point of the controller. -/
def remoteAccess (o : Options) : UInt16 :=
  match o.profile.fixedAccess with
  | some (_, remoteAccess) => remoteAccess
  | none => o.connectionType.code * 256 + o.rack.toUInt16 * 32 + o.slot.toUInt16

end Options

end S7Comm
