/-!
# What is wrong below the messages

Messages travel in packets over a connection. Here are the failures of the connection itself, of the
packets, and of using a session that has no connection.

**The connection** fails in ways that the operating system knows the names of. There are many, they
differ between systems, and a client makes no difference between them: it passes on what it is told.
So an `IoFailure` is any kind of failure, by its name, and only one kind is singled out, that the other
end has closed the connection (`IoFailure.unexpectedEof`), because a client finds that out by itself.

**Time** runs out in two ways: a connection is not opened in time, and then the error names the address
(`TransportError.connectTimeout`), or a packet is not taken or not answered in time
(`TransportError.timeout`).
-/

namespace S7Comm

/-- A failure of the connection, of whatever kind. -/
structure IoFailure where
  /-- The kind, in words. -/
  kind : String
  deriving DecidableEq, Repr

/-- The other end closed the connection while more was expected of it. -/
def IoFailure.unexpectedEof : IoFailure := ⟨"unexpected end of file"⟩

/-- A violation of the packet layer. -/
inductive PacketError where
  /-- The connection request was answered by a disconnect request. -/
  | refused
  /-- A packet of another version, or of a kind that is not expected here. -/
  | badFormat
  /-- A packet shorter than its headers. -/
  | tooShort
  /-- A message in more fragments than are accepted. -/
  | tooManyFragments
  /-- A disconnect request in place of data. -/
  | disconnected
  deriving DecidableEq, Repr

/-- The violation in words. -/
def PacketError.message : PacketError → String
  | .refused => "ISO : Connection refused by peer"
  | .badFormat => "ISO : Bad PDU format"
  | .tooShort => "ISO : A short packet received"
  | .tooManyFragments => "ISO : Too many packets without EoT flag"
  | .disconnected => "ISO : Disconnected by peer"

/-- A failure below the messages. -/
inductive TransportError where
  /-- The connection failed. -/
  | io (failure : IoFailure)
  /-- There was no connection to the address in time. -/
  | connectTimeout (address : String)
  /-- A packet was not taken, or the answer did not come, in time. -/
  | timeout
  /-- There is no connection. -/
  | notConnected
  /-- The packet layer was violated. -/
  | packet (error : PacketError)
  deriving DecidableEq, Repr

/-- The failure in words. -/
def TransportError.message : TransportError → String
  | .io failure => "IO error: " ++ failure.kind
  | .connectTimeout address => s!"connecting to '{address}' timed out"
  | .timeout => "timeout during data exchange"
  | .notConnected => "session is not connected"
  | .packet error => error.message

end S7Comm
