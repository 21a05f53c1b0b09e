import S7Comm.Bytes
import S7Comm.Error.Transport

/-!
# Packets

A connection is a stream of bytes; packets (RFC 1006) divide it. A packet has a header of four bytes,
which are the version, a reserved byte and the length of the whole packet, and then its payload. The
shortest payload that has a use is that of three bytes, and shorter packets are refused.

**Main definitions.** `Packet.encode` puts a payload into a packet, if the length of the packet is
one that the header can hold. In the other direction a reader first takes the header from the stream,
learns from `Packet.payloadLength` how much belongs to the packet, and then takes that much.
-/

namespace S7Comm.Iso.Packet

/-- The version of the packets. -/
def version : UInt8 := 3

/-- Bytes of the header. -/
def headerLength : Nat := 4

/-- The length of the shortest packet. -/
def minLength : Nat := 7

/-- The length of the longest packet. -/
def maxLength : Nat := 65535

/-- The packet around a payload. -/
def encode (payload : Bytes) : Except PacketError Bytes :=
  let length := headerLength + payload.length
  if length > maxLength then .error .badFormat
  else .ok ([version, 0] ++ wordBytes (UInt16.ofNat length) ++ payload)

/-- The length of the payload that a header announces. -/
def payloadLength (header : Bytes) : Except PacketError Nat :=
  match header with
  | [found, _, length₁, length₀] =>
    let length := (word length₁ length₀).toNat
    if found ≠ version then .error .badFormat
    else if length < minLength then .error .tooShort
    else .ok (length - headerLength)
  | _ => .error .tooShort

end S7Comm.Iso.Packet
