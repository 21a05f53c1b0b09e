import S7Comm.Client.Write
import S7Comm.Proofs.Handshake
import S7Comm.Proofs.StepwiseMessages

/-!
# Every step is defined

What arrives is chosen by the other end, and nothing may be taken from it that is not there. This
module goes on with the decoders that walk through bytes: packets and data units, whole messages from
a stream, and the values in a payload. Each is written as the steps it takes, with the checks where
they are made and the bytes taken where they are taken, so that a check that is missing, or that comes
too late, would leave a step without an outcome.

**Where a check guards a step elsewhere.** The length of a packet is checked when its header is
decoded, and what the header itself takes of it is subtracted later. Of a data unit, three bytes are
known to be there once its own header has been found to have them and to be no longer than the unit.
The last item of a request to write is found by a difference, which is safe since a request has items;
and so is the difference that finds the byte for the length of a string, since no family has strings
without a header.

**Main result** (`every_step_defined`): whatever the bytes are, each decoder has an outcome, `defined
(decode bytes)`, and it is that of the decoder which takes the bytes apart by cases.
`EveryStepDefined` has a field for each of them.

Memory that cannot be had, which ends a program as well, is no matter of the bytes; it is dealt with
where room is reserved (`ranges_tile`).
-/

namespace S7Comm

open Partial (defined bind_defined adapt_defined ite_defined refuse_bind_defined)
open Steps

/-! ## Packets and data units -/

namespace Iso

/-- The length that the header of a packet announces, step by step. -/
def Packet.lengthSteps : Steps PacketError Nat := do
  let found ← takeByte
  let _ ← takeByte
  let length ← takeWord
  refuse (found ≠ version) .badFormat
  refuse (length.toNat < minLength) .tooShort
  StateT.lift (Partial.minus length.toNat headerLength)

/-- The length of a packet that is not too short counts its header. -/
theorem Packet.run_lengthSteps (found reserved length₁ length₀ : UInt8) :
    lengthSteps.run' [found, reserved, length₁, length₀] =
      defined (payloadLength [found, reserved, length₁, length₀]) := by
  rw [lengthSteps, run'_bind]
  simp only [payloadLength, pure_bind, run'_bind, run_takeByte, run_takeWord, run_refuse_bind]
  refine ite_defined fun _ => ite_defined fun hlong => ?_
  have hheader : headerLength ≤ (word length₁ length₀).toNat :=
    Nat.le_trans (by decide) (Nat.not_lt.mp hlong)
  rw [Partial.minus_eq hheader]
  rfl

/-- A data unit, step by step. -/
def unitSteps : Steps PacketError Bool := do
  require 2 fun _ => .tooShort
  let length ← index 0
  let code ← index 1
  refuse (code = disconnectRequestCode) .disconnected
  refuse (code ≠ dataCode) .badFormat
  let available ← remaining
  refuse (length.toNat + 1 < dataHeaderLength ∨ available < length.toNat + 1) .tooShort
  let mark ← index 2
  advance (length.toNat + 1)
  return mark &&& 0x80 != 0

/-- The third byte of a data unit is there, and so is all of its header. -/
theorem run_unitSteps : (payload : Bytes) → unitSteps.run payload = defined (unwrapData payload)
  | [] | [_] => rfl
  | length :: code :: rest => by
    have hlength : (length :: code :: rest)[0]? = some length := rfl
    have hcode : (length :: code :: rest)[1]? = some code := rfl
    rw [unitSteps, StateT.run_bind, run_require (Nat.le_add_left 2 rest.length)]
    simp only [unwrapData, pure_bind, StateT.run_bind, run_index hlength, run_index hcode,
      run_refuse_bind, run_remaining]
    refine ite_defined fun _ => ite_defined fun _ => ?_
    cases rest with
    | nil =>
      have hshort : length.toNat + 1 < dataHeaderLength ∨
          [length, code].length < length.toNat + 1 := by
        simp only [dataHeaderLength, List.length_cons, List.length_nil]
        omega
      rw [if_pos hshort]
      rfl
    | cons mark rest =>
      have hmark : (length :: code :: mark :: rest)[2]? = some mark := rfl
      refine ite_defined fun hlong => ?_
      have hheader : length.toNat + 1 ≤ (length :: code :: mark :: rest).length := by omega
      rw [run_index hmark, pure_bind, run_advance hheader]
      rfl

/-- The answer to a connection request, step by step. -/
def confirmSteps : Steps PacketError Unit := do
  require 7 fun _ => .tooShort
  let code ← index 1
  if code = connectionConfirmCode then pure ()
  else if code = disconnectRequestCode then throw .refused
  else throw .badFormat

/-- The second of seven bytes is there. -/
theorem run_confirmSteps : (payload : Bytes) →
    confirmSteps.run' payload = defined (checkConfirm payload)
  | [] | [_] => rfl
  | length :: code :: rest => by
    have hcode : (length :: code :: rest)[1]? = some code := rfl
    rw [confirmSteps, run'_bind, run_require_bind, checkConfirm]
    refine ite_defined fun _ => ?_
    rw [run'_bind, run_index hcode, pure_bind]
    dsimp only
    split
    · rfl
    · split <;> rfl

end Iso

namespace Stream

/-- A packet from the stream, step by step. -/
def packetSteps (stream : Stream) : Partial TransportError (Bytes × Stream) := do
  let (header, stream) ← stream.read Iso.Packet.headerLength
  let length ← (Iso.Packet.lengthSteps.run' header).adapt .packet
  stream.read length

/-- A message from the stream, step by step. -/
def messageSteps : (fragments : Nat) → Stream → Partial TransportError (Bytes × Stream)
  | 0, _ => throw (.packet .tooManyFragments)
  | fragments + 1, stream => do
    let (payload, stream) ← stream.packetSteps
    let (last, data) ← (Iso.unitSteps.run payload).adapt .packet
    if last then
      return (data, stream)
    let (rest, stream) ← messageSteps fragments stream
    return (data ++ rest, stream)

/-- The header of a packet is taken from four bytes, since as many have been read. -/
theorem packetSteps_eq (stream : Stream) : stream.packetSteps = defined stream.readPacket := by
  refine bind_defined rfl fun (header, behind) hread => ?_
  match header, (read_eq_ok_iff.mp hread).1 with
  | [found, reserved, length₁, length₀], _ =>
    have hlength := Iso.Packet.run_lengthSteps found reserved length₁ length₀
    exact bind_defined (adapt_defined _ hlength) fun length _ => rfl

/-- However many fragments there are, a message from them has an outcome. -/
theorem messageSteps_eq (fragments : Nat) (stream : Stream) :
    messageSteps fragments stream = defined (stream.readMessage fragments) := by
  induction fragments generalizing stream with
  | zero => rfl
  | succ fragments ih =>
    refine bind_defined stream.packetSteps_eq fun (payload, behind) _ => ?_
    refine bind_defined (adapt_defined _ (Iso.run_unitSteps payload)) fun (last, data) _ => ?_
    cases last with
    | true => rfl
    | false => exact bind_defined (ih behind) fun (rest, after) _ => rfl

end Stream

/-! ## Values

A decoder of values asks once for all bytes that it takes, and so there is one check in each. What is
computed from the numbers afterwards can leave the range of four bytes in one case only, that of the
nanoseconds of a time of day, and there it does not.
-/

namespace Numeric

/-- The number at the front of some bytes, step by step. -/
def steps (α : Type) [Numeric α] (order : ByteOrder) : Steps Shortage α := do
  require (size α) fun available => ⟨size α, available⟩
  let digits ← takeBytes (size α)
  return ofBits (spelled (order.arrange digits))

/-- A number of any kind, in either order, is taken from as many bytes as it has. -/
theorem run_steps (α : Type) [Numeric α] (order : ByteOrder) (bytes : Bytes) :
    (steps α order).run' bytes = defined (decode α order bytes) := by
  rw [steps, run'_bind, run_require_bind, decode]
  refine ite_defined fun hlong => ?_
  rw [run'_bind, run_takeBytes (Nat.not_lt.mp hlong), pure_bind]
  rfl

end Numeric

/-- The first byte, step by step. -/
def byteSteps : Steps Shortage UInt8 := do
  require 1 fun available => ⟨1, available⟩
  index 0

/-- The first byte is a number of one byte. -/
theorem run_byteSteps : (bytes : Bytes) →
    byteSteps.run' bytes = defined (Numeric.decode UInt8 .big bytes)
  | [] => rfl
  | byte :: rest => by
    have hbyte : (byte :: rest)[0]? = some byte := rfl
    have hdecode : Numeric.decode UInt8 .big (byte :: rest) = .ok byte := by
      simp [Numeric.decode, Numeric.size, ByteOrder.arrange, spelled, Numeric.ofBits]
    rw [byteSteps, run'_bind, run_require (Nat.le_add_left 1 rest.length), StateT.run'_eq,
      run_index hbyte, hdecode]
    rfl

/-- A bit of the first byte, step by step. -/
def bitSteps (bytes : Bytes) (bit : UInt8) : Partial Shortage Bool := do
  let byte ← byteSteps.run' bytes
  return byte &&& ((1 : UInt8) <<< (bit &&& 7)) ≠ 0

/-- A bit has an outcome since its byte has. -/
theorem bitSteps_eq (bytes : Bytes) (bit : UInt8) :
    bitSteps bytes bit = defined (decodeBit bytes bit) :=
  bind_defined (run_byteSteps bytes) fun _ _ => rfl

/-- Whether the first byte is not zero, step by step. -/
def setSteps (bytes : Bytes) : Partial Shortage Bool := do
  let byte ← byteSteps.run' bytes
  return byte != 0

/-- So it is with a byte that is one bit. -/
theorem setSteps_eq (bytes : Bytes) : setSteps bytes = defined (Client.isSet bytes) :=
  bind_defined (run_byteSteps bytes) fun _ _ => rfl

namespace Payload

open Calendar

/-- A DATE, step by step. -/
def dateSteps (bytes : Bytes) : Partial Shortage Date := do
  let days ← (Numeric.steps UInt16 .big).run' bytes
  return epoch.plus days.toNat

/-- A DATE has an outcome since its number of days has. -/
theorem dateSteps_eq (bytes : Bytes) : dateSteps bytes = defined (decodeDate bytes) :=
  bind_defined (Numeric.run_steps UInt16 .big bytes) fun _ _ => rfl

/-- A TIME_OF_DAY, step by step: its milliseconds are brought to nanoseconds. -/
def timeOfDaySteps (bytes : Bytes) : Partial Error TimeOfDay := do
  let ms ← ((Numeric.steps UInt32 .big).run' bytes).adapt .insufficientData
  let nanosecond ← Partial.times (ms.toNat % 1000) 1000000
  let second := ms.toNat / 1000
  match TimeOfDay.ofParts? (second / 3600) (second / 60 % 60) (second % 60) nanosecond with
  | some time => return time
  | none => throw (.invalidArgument (.notTimeOfDay ms.toNat))

/-- Hours, minutes, seconds and nanoseconds of some milliseconds are a time of day if there are not
more milliseconds than a day has. -/
theorem ofParts?_milliseconds (ms : Nat) :
    TimeOfDay.ofParts? (ms / 1000 / 3600) (ms / 1000 / 60 % 60) (ms / 1000 % 60)
        (ms % 1000 * 1000000) =
      if h : ms < TimeOfDay.millisecondsPerDay then some (.ofMilliseconds ms h) else none := by
  unfold TimeOfDay.ofParts?
  by_cases hday : ms < TimeOfDay.millisecondsPerDay
  · have hparts : ms / 1000 / 3600 < 24 ∧ ms / 1000 / 60 % 60 < 60 ∧ ms / 1000 % 60 < 60 ∧
        TimeOfDay.Proper (ms / 1000 % 60) (ms % 1000 * 1000000) := by
      unfold TimeOfDay.millisecondsPerDay at hday
      unfold TimeOfDay.Proper
      omega
    rw [dif_pos hparts, dif_pos hday]
    simp [TimeOfDay.ofMilliseconds, Nat.div_div_eq_div_mul]
  · have hhour : ¬ ms / 1000 / 3600 < 24 := by
      unfold TimeOfDay.millisecondsPerDay at hday
      omega
    rw [dif_neg (fun h => hhour h.1), dif_neg hday]

/-- The nanoseconds of a fraction of a second fit four bytes. -/
theorem timeOfDaySteps_eq (bytes : Bytes) :
    timeOfDaySteps bytes = defined (decodeTimeOfDay bytes) := by
  refine bind_defined (adapt_defined _ (Numeric.run_steps UInt32 .big bytes)) fun ms _ => ?_
  have hsmall : ms.toNat % 1000 * 1000000 < capacity 4 := by
    have hcapacity : capacity 4 = 4294967296 := rfl
    omega
  rw [Partial.times_eq hsmall, pure_bind]
  dsimp only
  rw [ofParts?_milliseconds]
  by_cases hday : ms.toNat < TimeOfDay.millisecondsPerDay
  · rw [dif_pos hday, dif_pos hday]
    rfl
  · rw [dif_neg hday, dif_neg hday]
    rfl

/-- A TIME, step by step. -/
def timeSteps (bytes : Bytes) : Partial Shortage Duration := do
  let ms ← (Numeric.steps Int32 .big).run' bytes
  return Duration.ofMilliseconds ms.toInt

/-- A TIME has an outcome since its number of milliseconds has. -/
theorem timeSteps_eq (bytes : Bytes) : timeSteps bytes = defined (decodeTime bytes) :=
  bind_defined (Numeric.run_steps Int32 .big bytes) fun _ _ => rfl

/-- A DTL, step by step. -/
def dateTimeSteps : Steps Error DateTime := do
  require dateTimeLength fun available => .insufficientData ⟨dateTimeLength, available⟩
  let year ← takeWord
  let month ← takeByte
  let day ← takeByte
  let _ ← takeByte
  let hour ← takeByte
  let minute ← takeByte
  let second ← takeByte
  let nanosecond ← takeBytes 4
  let date? := Date.ofParts? year.toNat month.toNat day.toNat
  let time? := TimeOfDay.ofParts? hour.toNat minute.toNat second.toNat (spelled nanosecond)
  match date?, time? with
  | some date, some time => return ⟨date, time⟩
  | _, _ => throw (.invalidArgument .notDateTime)

/-- The twelve bytes of a DTL are asked for at once. -/
theorem run_dateTimeSteps : (bytes : Bytes) →
    dateTimeSteps.run' bytes = defined (decodeDateTime bytes)
  | [] | [_] | [_, _] | [_, _, _] | [_, _, _, _] | [_, _, _, _, _] | [_, _, _, _, _, _]
  | [_, _, _, _, _, _, _] | [_, _, _, _, _, _, _, _] | [_, _, _, _, _, _, _, _, _]
  | [_, _, _, _, _, _, _, _, _, _] | [_, _, _, _, _, _, _, _, _, _, _] => rfl
  | year₁ :: year₀ :: month :: day :: _ :: hour :: minute :: second :: nano₃ :: nano₂ :: nano₁ ::
      nano₀ :: rest => by
    rw [dateTimeSteps, run'_bind, run_require (Nat.le_add_left dateTimeLength rest.length)]
    simp only [decodeDateTime, pure_bind, run'_bind, run_takeWord, run_takeByte]
    rw [run_takeBytes (Nat.le_add_left 4 rest.length), pure_bind]
    dsimp only [List.take]
    cases Date.ofParts? (word year₁ year₀).toNat month.toNat day.toNat with
    | none => rfl
    | some date =>
      cases TimeOfDay.ofParts? hour.toNat minute.toNat second.toNat
        (spelled [nano₃, nano₂, nano₁, nano₀]) <;> rfl

end Payload

/-! ## Strings -/

namespace Client

/-- The number of characters of a string, step by step: it is looked up, so that it can be missing. -/
def lengthSteps (header : Nat) : Steps Shortage Nat := do
  let bytes ← get
  let last? := if 1 ≤ header then bytes[header - 1]? else none
  let length ← demand last? ⟨header, bytes.length⟩
  return length.toNat

/-- Some characters behind the header of a string, step by step: they are looked up as well. -/
def textSteps (header length : Nat) : Steps Shortage String := do
  let bytes ← get
  let text? := if header + length ≤ bytes.length then some ((bytes.drop header).take length) else none
  let text ← demand text? ⟨header + length, bytes.length⟩
  return Latin1.decode text

/-- Where a string is written, and with which bytes, step by step: of the header only the last byte is
written. -/
def writtenSteps (profile : FamilyProfile) (address text : String) :
    Partial Error (Address × Bytes) := do
  let address ← Address.parse address
  let payload ← Payload.encodeText text
  Partial.refuse (payload.length > maxStringLength)
    (.invalidArgument (.stringTooLong payload.length))
  let before ← Partial.minus profile.stringHeaderLength.toNat 1
  let start ← address.advance before
  return (start, UInt8.ofNat payload.length :: payload)

/-- A length that is missing is an error. -/
theorem run_lengthSteps (header : Nat) (bytes : Bytes) :
    (lengthSteps header).run' bytes = defined (stringLength bytes header) := by
  cases header with
  | zero => rfl
  | succ header =>
    rw [stringLength, if_neg (Nat.succ_ne_zero header), Nat.add_sub_cancel]
    cases hlast : bytes[header]? with
    | none =>
      simp [lengthSteps, demand, hlast]
      rfl
    | some length =>
      simp [lengthSteps, demand, hlast]
      rfl

/-- So are characters. -/
theorem run_textSteps (header length : Nat) (bytes : Bytes) :
    (textSteps header length).run' bytes = defined (stringText bytes header length) := by
  rw [stringText]
  by_cases hshort : bytes.length < header + length
  · simp [textSteps, demand, hshort, Nat.not_le.mpr hshort]
    rfl
  · simp [textSteps, demand, hshort, Nat.not_lt.mp hshort]
    rfl

/-- The outcome of the steps is what a client goes on from when it writes a string. -/
theorem writtenSteps_course {S : Type} (c : Client S)
    (hheader : 1 ≤ c.profile.stringHeaderLength.toNat) (address text : String) :
    ∃ found, writtenSteps c.profile address text = defined found ∧
      c.writeString address text =
        Call.ofExcept found >>= fun (start, bytes) => c.writeBytesAt start bytes := by
  -- what both come to, without a difference that may not exist
  let found : Except Error (Address × Bytes) := do
    let address ← Address.parse address
    let payload ← Payload.encodeText text
    if payload.length > maxStringLength then
      .error (.invalidArgument (.stringTooLong payload.length))
    else
      let start ← address.advance (c.profile.stringHeaderLength.toNat - 1)
      return (start, UInt8.ofNat payload.length :: payload)
  refine ⟨found, ?_, ?_⟩
  · refine bind_defined rfl fun place _ => bind_defined rfl fun payload _ => ?_
    refine refuse_bind_defined fun _ => ?_
    rw [Partial.minus_eq hheader, pure_bind]
    exact bind_defined rfl fun start _ => rfl
  · unfold writeString found
    cases Address.parse address with
    | error e => rfl
    | ok place =>
      cases Payload.encodeText text with
      | error e => rfl
      | ok payload =>
        show (if payload.length > maxStringLength then _ else _) =
          Call.ofExcept (if payload.length > maxStringLength then _ else _) >>= _
        by_cases hlong : payload.length > maxStringLength
        · rw [if_pos hlong, if_pos hlong]
          rfl
        · rw [if_neg hlong, if_neg hlong]
          cases place.advance (c.profile.stringHeaderLength.toNat - 1) <;> rfl

end Client

/-! ## All of them -/

/-- The decoders that walk through bytes have an outcome whatever the bytes are, the same as the
decoders that take them apart by cases. -/
structure EveryStepDefined : Prop where
  /-- The header of a message. -/
  header (bytes : Bytes) : Pdu.Header.steps.run bytes = defined (Pdu.Header.decode bytes)
  /-- The blocks behind a header, whatever lengths it declares. -/
  blocks (header : Pdu.Header) (body : Bytes) :
    header.blockSteps.run' body = defined (header.splitBlocks body)
  /-- The answer to a setup. -/
  setup (bytes : Bytes) :
    Pdu.Setup.responseSteps bytes = defined (Pdu.Setup.decodeResponse bytes)
  /-- The answer to a request to read, with all of its data items. -/
  readResponse (bytes : Bytes) : Pdu.readSteps bytes = defined (Pdu.decodeReadResponse bytes)
  /-- The answer to a request to write, with all of its return codes. -/
  writeResponse (bytes : Bytes) : Pdu.writeSteps bytes = defined (Pdu.decodeWriteResponse bytes)
  /-- The answer to a control job. -/
  controlAck (bytes : Bytes) (reference : UInt16) :
    Pdu.Control.ackSteps bytes reference = defined (Pdu.Control.validateAck bytes reference)
  /-- A data item, whatever length it declares. -/
  dataItem (bytes : Bytes) : DataItem.steps.run bytes = defined (DataItem.decode bytes)
  /-- An item for memory. -/
  standardItem (bytes : Bytes) : StandardItem.steps.run bytes = defined (StandardItem.decode bytes)
  /-- An item for a numerical control. -/
  nckItem (bytes : Bytes) : NckItem.steps.run bytes = defined (NckItem.decode bytes)
  /-- The header of a packet, and what its length leaves for the payload. -/
  packet (found reserved length₁ length₀ : UInt8) :
    Iso.Packet.lengthSteps.run' [found, reserved, length₁, length₀] =
      defined (Iso.Packet.payloadLength [found, reserved, length₁, length₀])
  /-- A data unit, whatever length its header declares. -/
  dataUnit (payload : Bytes) : Iso.unitSteps.run payload = defined (Iso.unwrapData payload)
  /-- The confirmation of a connection. -/
  confirm (payload : Bytes) : Iso.confirmSteps.run' payload = defined (Iso.checkConfirm payload)
  /-- A message in any number of data units, from whatever has arrived. -/
  message (fragments : Nat) (stream : Stream) :
    stream.messageSteps fragments = defined (stream.readMessage fragments)
  /-- A number of any kind, in either order. -/
  number (α : Type) [Numeric α] (order : ByteOrder) (bytes : Bytes) :
    (Numeric.steps α order).run' bytes = defined (Numeric.decode α order bytes)
  /-- A byte. -/
  byte (bytes : Bytes) : byteSteps.run' bytes = defined (Numeric.decode UInt8 .big bytes)
  /-- A bit of a byte. -/
  bit (bytes : Bytes) (bit : UInt8) : bitSteps bytes bit = defined (decodeBit bytes bit)
  /-- A bit that was read alone. -/
  isSet (bytes : Bytes) : setSteps bytes = defined (Client.isSet bytes)
  /-- A DATE. -/
  date (bytes : Bytes) : Payload.dateSteps bytes = defined (Payload.decodeDate bytes)
  /-- A TIME_OF_DAY. -/
  timeOfDay (bytes : Bytes) :
    Payload.timeOfDaySteps bytes = defined (Payload.decodeTimeOfDay bytes)
  /-- A TIME. -/
  time (bytes : Bytes) : Payload.timeSteps bytes = defined (Payload.decodeTime bytes)
  /-- A DTL. -/
  dateTime (bytes : Bytes) :
    Payload.dateTimeSteps.run' bytes = defined (Payload.decodeDateTime bytes)
  /-- The length of a string, whatever the length of its header. -/
  stringLength (header : Nat) (bytes : Bytes) :
    (Client.lengthSteps header).run' bytes = defined (Client.stringLength bytes header)
  /-- The characters of a string, whatever length it has. -/
  stringText (header length : Nat) (bytes : Bytes) :
    (Client.textSteps header length).run' bytes = defined (Client.stringText bytes header length)
  /-- A string that is written, and where. -/
  writtenString {σ : Type} (peer : Peer σ) (options : Options) (address text : String) :
    ∃ found, Client.writtenSteps options.profile address text = defined found ∧
      (Client.ofPeer peer options).writeString address text =
        Call.ofExcept found >>= fun (start, bytes) =>
          (Client.ofPeer peer options).writeBytesAt start bytes
  /-- A request to write, and which of its items is the last. -/
  writeRequest (reference : UInt16) (items : List RequestItem) (data : List DataItem) :
    Pdu.requestSteps reference items data = defined (Pdu.encodeWriteRequest reference items data)

/-- **Whatever arrives, every step of decoding it is defined.** For each decoder of `EveryStepDefined`
and all bytes, the walk through the bytes ends with the value or the error of the decoder, and never
comes to an index, a slice, a difference, a product or a sum that does not exist. -/
theorem every_step_defined : EveryStepDefined where
  header := Pdu.Header.run_steps
  blocks := Pdu.Header.run_blockSteps
  setup := Pdu.Setup.responseSteps_eq
  readResponse := Pdu.readSteps_eq
  writeResponse := Pdu.writeSteps_eq
  controlAck := Pdu.Control.ackSteps_eq
  dataItem := DataItem.run_steps
  standardItem := StandardItem.run_steps
  nckItem := NckItem.run_steps
  packet := Iso.Packet.run_lengthSteps
  dataUnit := Iso.run_unitSteps
  confirm := Iso.run_confirmSteps
  message := Stream.messageSteps_eq
  number α := Numeric.run_steps α
  byte := run_byteSteps
  bit := bitSteps_eq
  isSet := setSteps_eq
  date := Payload.dateSteps_eq
  timeOfDay := Payload.timeOfDaySteps_eq
  time := Payload.timeSteps_eq
  dateTime := Payload.run_dateTimeSteps
  stringLength := Client.run_lengthSteps
  stringText := Client.run_textSteps
  writtenString peer options :=
    (Client.ofPeer peer options).writtenSteps_course options.family.stringHeaderLength_pos
  writeRequest := Pdu.requestSteps_eq

end S7Comm
