import S7Comm.Iso.Packet

/-!
# Opening, using and closing a transport connection

The payload of a packet belongs to the connection-oriented transport protocol (ISO 8073, class 0). It
begins with the length of its own header, the byte for that length not counted, and the kind of the
unit. Five kinds matter here: request and confirmation of a connection, data, and the request to
disconnect, which is also the answer of a controller that refuses a connection.

**Messages in fragments.** A data unit says in the uppermost bit of its third byte whether it is the
last of its message. A client sends each message in one unit; an answer may come in several, and up
to `maxFragments` of them are put together.
-/

namespace S7Comm.Iso

/-! ## Kinds of unit -/

/-- The code of a connection request. -/
def connectionRequestCode : UInt8 := 0xE0

/-- The code of a connection confirmation. -/
def connectionConfirmCode : UInt8 := 0xD0

/-- The code of a disconnect request. -/
def disconnectRequestCode : UInt8 := 0x80

/-- The code of a data unit. -/
def dataCode : UInt8 := 0xF0

/-- The reference of the client's end of a connection. -/
def sourceReference : UInt16 := 0x0100

/-! ## Data -/

/-- The most data units of one message. -/
def maxFragments : Nat := 64

/-- Bytes of the header that a client puts in front of its data. -/
def dataHeaderLength : Nat := 3

/-- The packet with a message in a single data unit. -/
def wrapData (message : Bytes) : Except PacketError Bytes :=
  Packet.encode ([2, dataCode, 0x80] ++ message)

/-- Whether a data unit is the last of its message, and the data in it. -/
def unwrapData (payload : Bytes) : Except PacketError (Bool × Bytes) :=
  match payload with
  | length :: code :: rest =>
    if code = disconnectRequestCode then .error .disconnected
    else if code ≠ dataCode then .error .badFormat
    else match rest with
      | mark :: _ =>
        if length.toNat + 1 < dataHeaderLength ∨ payload.length < length.toNat + 1 then
          .error .tooShort
        else .ok (mark &&& 0x80 != 0, payload.drop (length.toNat + 1))
      | [] => .error .tooShort
  | _ => .error .tooShort

/-! ## Connections -/

/-- The packet that asks for a connection between two access points. It proposes units of at most
1024 bytes (`0x0A` is the binary logarithm of that length). -/
def connectionRequest (localAccess remoteAccess : UInt16) : Bytes :=
  [Packet.version, 0, 0, 22, 17, connectionRequestCode, 0, 0] ++ wordBytes sourceReference ++
    [0x00, 0xC0, 1, 0x0A, 0xC1, 2] ++ wordBytes localAccess ++ [0xC2, 2] ++ wordBytes remoteAccess

/-- Check the payload of the answer to a connection request. -/
def checkConfirm (payload : Bytes) : Except PacketError Unit :=
  if payload.length < 7 then .error .tooShort
  else match payload with
    | _ :: code :: _ =>
      if code = connectionConfirmCode then .ok ()
      else if code = disconnectRequestCode then .error .refused
      else .error .badFormat
    | _ => .error .tooShort

/-- The packet that takes leave of the other end, with the normal reason. -/
def disconnectRequest : Bytes :=
  [Packet.version, 0, 0, 11, 6, disconnectRequestCode, 0, 0] ++ wordBytes sourceReference ++ [0x80]

end S7Comm.Iso
