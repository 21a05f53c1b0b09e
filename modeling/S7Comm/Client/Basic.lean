import S7Comm.Address.Parser
import S7Comm.Batch.Transfer
import S7Comm.Options

/-!
# Clients

A client is a channel together with what it knows of the family of the controller. Its operations
name places by the texts of addresses and take and return values, where the channel knows messages.
-/

namespace S7Comm

/-- A channel to a controller of a known family. -/
structure Client (S : Type) where
  /-- The channel. -/
  channel : Channel S
  /-- What is known of the family. -/
  profile : FamilyProfile

/-- The client of a session on a network. -/
def Client.ofPeer {σ : Type} (peer : Peer σ) (options : Options) : Client (Station σ) :=
  { channel := Station.channel peer, profile := options.profile }

namespace Client

/-- The number of bytes of a payload, as an item can name it. -/
def itemLength (length : Nat) : Except ArgumentError UInt16 :=
  if length = 0 then .error .noData
  else if length > 65535 then .error (.dataTooLong length)
  else .ok (UInt16.ofNat length)

/-- The length of the longest string that a variable can hold. -/
def maxStringLength : Nat := 254

/-- The items for one bit at each of some addresses. -/
def bitItems (addresses : List String) : Except Error (List RequestItem) :=
  addresses.mapM fun text => do
    let address ← Address.parse text
    return .standard (.single address)

/-- The items for some bytes at each of some addresses. -/
def byteItems (addresses : List String) (count : UInt16) : Except Error (List RequestItem) :=
  addresses.mapM fun text => do
    let address ← Address.parse text
    let item ← StandardItem.bytes address count
    return .standard item

end Client

end S7Comm
