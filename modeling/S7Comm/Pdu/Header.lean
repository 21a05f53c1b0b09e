import S7Comm.Bytes
import S7Comm.Error

/-!
# Headers of messages

Every message begins with a header of ten bytes: the mark of the protocol, the kind of the message,
a reserved word, the reference by which an answer is told to belong to a request, and the lengths of
the two blocks that follow, parameters and data. An acknowledgment has two bytes more, in which the
controller reports an error; there `Header.report` is sent, in the other kinds it is not.

**Checks.** What a client demands of an answer is a row of small checks: that it is an acknowledgment
(`requireAck`), one with data (`requireAckData`), without an error (`requireNoReport`), and with the
reference of the request (`requireReference`). In which order they are made decides what is reported
of an answer with several faults; so the order is left to those who use them.
-/

namespace S7Comm.Pdu

/-- The header of a message. -/
structure Header where
  /-- What the message is. -/
  kind : Kind
  /-- Chosen by the client for a request, and repeated by the controller in the answer. -/
  reference : UInt16
  /-- Bytes of the parameter block. -/
  parameterLength : UInt16
  /-- Bytes of the data block. -/
  dataLength : UInt16
  /-- What an acknowledgment reports; zeros where nothing is reported. -/
  report : ProtocolError := ⟨0, 0⟩
  deriving DecidableEq, Repr

/-- The byte at the front of every message. -/
def protocolId : UInt8 := 0x32

/-- Bytes of the header of a request. -/
def jobHeaderLength : Nat := 10

/-- Bytes of the header of an acknowledgment. -/
def ackHeaderLength : Nat := 12

namespace Header

/-! ## Coding -/

/-- Bytes of the header on the wire. -/
def encodedLength (h : Header) : Nat :=
  if h.kind.isAck then ackHeaderLength else jobHeaderLength

/-- The bytes of the header. -/
def encode (h : Header) : Bytes :=
  [protocolId, h.kind.code, 0, 0] ++ wordBytes h.reference ++ wordBytes h.parameterLength ++
    wordBytes h.dataLength ++
    if h.kind.isAck then [h.report.errorClass, h.report.errorCode] else []

/-- The header at the front of some bytes, and the bytes behind it. -/
def decode (bytes : Bytes) : Except FramingError (Header × Bytes) :=
  match bytes with
  | mark :: kindCode :: _ :: _ :: reference₁ :: reference₀ :: parameter₁ :: parameter₀ ::
      data₁ :: data₀ :: rest =>
    if mark ≠ protocolId then .error (.foreignProtocol mark)
    else match Kind.ofCode? kindCode with
      | none => .error (.unknownKind kindCode)
      | some kind =>
        let header : Header :=
          { kind, reference := word reference₁ reference₀,
            parameterLength := word parameter₁ parameter₀, dataLength := word data₁ data₀ }
        if kind.isAck then
          match rest with
          | errorClass :: errorCode :: rest =>
            .ok ({ header with report := ⟨errorClass, errorCode⟩ }, rest)
          | _ => .error .ackTruncated
        else .ok (header, rest)
  | _ => .error (.headerTooShort bytes.length)

/-- The header of a request with blocks of the given lengths, if a header can declare them. -/
def job (reference : UInt16) (parameters data : Nat) : Except ArgumentError Header :=
  if parameters > 65535 then .error .parametersTooLong
  else if data > 65535 then .error .dataBlockTooLong
  else .ok { kind := .job, reference, parameterLength := UInt16.ofNat parameters,
             dataLength := UInt16.ofNat data }

/-! ## Checks -/

/-- Demand an acknowledgment. -/
def requireAck (h : Header) : Except FramingError Unit :=
  if h.kind.isAck then .ok () else .error (.notAck h.kind)

/-- Demand an acknowledgment with data. -/
def requireAckData (h : Header) : Except FramingError Unit :=
  if h.kind = .ackData then .ok () else .error (.notAckData h.kind)

/-- Demand that the message answers the request with the given reference. -/
def requireReference (h : Header) (reference : UInt16) : Except FramingError Unit :=
  if h.reference = reference then .ok () else .error (.foreignReference h.reference reference)

/-- Demand that the controller reports no error. -/
def requireNoReport (h : Header) : Except ProtocolError Unit :=
  if h.report.errorClass ≠ 0 ∨ h.report.errorCode ≠ 0 then .error h.report else .ok ()

/-! ## Blocks -/

/-- The parameter block and the data block that follow the header; what lies behind them is not
part of the message. -/
def splitBlocks (h : Header) (body : Bytes) : Except FramingError (Bytes × Bytes) :=
  let parameters := h.parameterLength.toNat
  let data := h.dataLength.toNat
  if body.length < parameters + data then
    .error (.blocksTruncated parameters data body.length)
  else .ok (body.take parameters, (body.drop parameters).take data)

/-- A header is as long on the wire as it is said to be. -/
theorem length_encode (h : Header) : h.encode.length = h.encodedLength := by
  by_cases hk : h.kind.isAck <;>
    simp [encode, encodedLength, wordBytes, jobHeaderLength, ackHeaderLength, hk]

end Header

end S7Comm.Pdu
