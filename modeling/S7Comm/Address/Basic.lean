import S7Comm.Area
import S7Comm.Error.Argument

/-!
# Addresses

An address is a place in the memory of a CPU: an area, for data blocks the number of the block, a
byte and a bit of it. Where an access begins is all that it says; how far the access reaches is the
business of the operation that uses it. For timers and counters the byte is the number of the
element.

**Checked and unchecked.** `Address.make` is the way to an address from its parts: it refuses a bit
or a byte that does not exist and clears the block number of areas that have none. The fields
themselves are the words that travel, so that an address can also be put together without the check;
what is sent for such an address is then what the encoder of items says.
-/

namespace S7Comm

/-- A place in the memory of a CPU. -/
structure Address where
  /-- The area. -/
  area : Area
  /-- The number of the data block; zero in the other areas. -/
  block : UInt16
  /-- The byte within the area, or the number of a timer or counter. -/
  byte : UInt32
  /-- The bit within the byte. -/
  bit : UInt8
  deriving DecidableEq, Repr

namespace Address

/-- The address with the given parts, if its bit and its byte exist. -/
def make (area : Area) (block : UInt16) (byte : UInt32) (bit : UInt8) :
    Except ArgumentError Address :=
  if bit > 7 then .error (.addressBit bit)
  else if byte.toNat > maxByteOffset then .error (.addressByte byte.toNat)
  else .ok { area, block := if area = .dataBlock then block else 0, byte, bit }

/-- The first bit of the byte that lies some bytes further on. The sum stops at the largest word,
which is far outside of every area. -/
def advance (a : Address) (bytes : Nat) : Except ArgumentError Address :=
  make a.area a.block (UInt32.ofNat (min (a.byte.toNat + bytes) 4294967295)) 0

end Address

end S7Comm
