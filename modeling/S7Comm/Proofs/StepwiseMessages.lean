import S7Comm.Item.Nck
import S7Comm.Item.Standard
import S7Comm.Pdu.Control
import S7Comm.Pdu.Setup
import S7Comm.Proofs.PartialSteps
import S7Comm.Proofs.Request

/-!
# Messages, step by step

The decoders of messages as the steps of a walk through their bytes (`Steps`), and the proof for each
that it is defined everywhere and has the outcome of the decoder that takes the bytes apart by cases:
`steps.run bytes = defined (decode bytes)`.

**What the other end chooses.** Three lengths in a message are not known before it is there: those of
the two blocks, the number of items, and the length of each payload. Each is compared with what is
left before anything is taken on its account, whatever it is.

**Rows.** The items of a block are decoded one behind the other. One item is a step lemma
(`DataItem.run_steps`), and a row of them follows by induction on their number (`Pdu.itemSteps_eq`);
so it is with return codes (`Pdu.run_codeSteps`), and with the items that are written, of which the
last is told from the others by its position (`Pdu.flatMap_encode_zipIdx`).

**Main results** are `Pdu.Header.run_steps` and `Pdu.Header.run_blockSteps` for what all messages
have, `Pdu.readSteps_eq`, `Pdu.writeSteps_eq`, `Pdu.Control.ackSteps_eq` and
`Pdu.Setup.responseSteps_eq` for the answers, and `Pdu.requestSteps_eq` for the one request in the
encoding of which there is a difference of numbers. They are put together in
`S7Comm.Proofs.DefinedSteps`.
-/

namespace S7Comm

open Partial (defined bind_defined adapt_defined ite_defined refuse_bind_defined)
open Steps

/-! ## Headers and blocks -/

namespace Pdu.Header

/-- A header, step by step: the ten bytes that every header has are required, then the mark of the
protocol and the kind are looked at, then the fields are taken; the header of an acknowledgment has
two bytes more, which are required by themselves. -/
def steps : Steps FramingError Header := do
  require jobHeaderLength .headerTooShort
  let mark ← takeByte
  refuse (mark ≠ protocolId) (.foreignProtocol mark)
  let kindCode ← takeByte
  let kind ← demand (Kind.ofCode? kindCode) (.unknownKind kindCode)
  let _ ← takeWord
  let reference ← takeWord
  let parameterLength ← takeWord
  let dataLength ← takeWord
  if kind.isAck then
    require 2 fun _ => .ackTruncated
    let errorClass ← takeByte
    let errorCode ← takeByte
    return { kind, reference, parameterLength, dataLength, report := ⟨errorClass, errorCode⟩ }
  else return { kind, reference, parameterLength, dataLength }

/-- The blocks behind a header, step by step. Their lengths are those that the header declares, any
two words; both together are required before the first is taken. The data are looked at, not taken, as
nothing comes behind them. -/
def blockSteps (h : Header) : Steps FramingError (Bytes × Bytes) := do
  let parameterLength := h.parameterLength.toNat
  let dataLength := h.dataLength.toNat
  require (parameterLength + dataLength) (.blocksTruncated parameterLength dataLength)
  let parameters ← takeBytes parameterLength
  let data ← front dataLength
  return (parameters, data)

/-- A header is decoded step by step, whatever the bytes are: `steps.run bytes = defined (decode
bytes)`. The proof goes through the lengths up to ten, at which both are refused, and through the
steps for anything longer. Behind the ten bytes that are required at once every step takes what is
known to be there. -/
theorem run_steps : (bytes : Bytes) → steps.run bytes = defined (decode bytes)
  | [] | [_] | [_, _] | [_, _, _] | [_, _, _, _] | [_, _, _, _, _] | [_, _, _, _, _, _]
  | [_, _, _, _, _, _, _] | [_, _, _, _, _, _, _, _] | [_, _, _, _, _, _, _, _, _] => rfl
  | mark :: kindCode :: _ :: _ :: _ :: _ :: _ :: _ :: _ :: _ :: rest => by
    rw [steps, StateT.run_bind, run_require (Nat.le_add_left jobHeaderLength rest.length)]
    simp only [decode, pure_bind, StateT.run_bind, run_takeByte, run_refuse_bind]
    refine ite_defined fun _ => ?_
    cases Kind.ofCode? kindCode with
    | none => rfl
    | some kind =>
      simp only [demand, StateT.run_pure, pure_bind, run_takeWord]
      by_cases hack : kind.isAck
      · rw [if_pos hack, if_pos hack, StateT.run_bind]
        match rest with
        | [] | [_] => rfl
        | errorClass :: errorCode :: rest =>
          rw [run_require (Nat.le_add_left 2 rest.length)]
          simp only [StateT.run_bind, run_takeByte, pure_bind]
          rfl
      · rw [if_neg hack, if_neg hack]
        rfl

/-- The blocks of a message are separated step by step, whatever lengths the header declares and
whatever is left of the message: where it is less, both ways refuse it with the same error, and else
the two steps behind the requirement are defined, as `parameterLength ≤ parameterLength + dataLength`.
-/
theorem run_blockSteps (h : Header) (body : Bytes) :
    h.blockSteps.run' body = defined (h.splitBlocks body) := by
  rw [blockSteps, run'_bind, run_require_bind]
  refine ite_defined fun hlong => ?_
  have hparameters : h.parameterLength.toNat ≤ body.length := by omega
  have hdata : h.dataLength.toNat ≤ (body.drop h.parameterLength.toNat).length := by
    rw [List.length_drop]
    omega
  rw [run'_bind, run_takeBytes hparameters, pure_bind, run'_bind, run_front hdata]
  rfl

end Pdu.Header

/-! ## Items -/

namespace DataItem

/-- Go past the fill byte behind a payload, step by step. There is one behind an odd payload, unless
it is the last of the block; so it is asked whether anything is left, and only then one byte is
passed. -/
def fillSteps (length : Nat) : Steps FramingError Unit := do
  let available ← remaining
  if length % 2 = 1 ∧ 0 < available then advance 1 else pure ()

/-- A data item, step by step: its head of four bytes is required, then as many bytes as the length in
the head means under the transport size, which can be 65535. -/
def steps : Steps FramingError DataItem := do
  require headerLength .dataHeaderTooShort
  let code ← takeByte
  let sizeCode ← takeByte
  let field ← takeWord
  let size := TransportSize.ofCode sizeCode
  let length := size.payloadLength field
  require length (.dataTruncated length)
  let payload ← takeBytes length
  fillSteps length
  return { returnCode := .ofCode code, size, payload }

/-- A fill byte is passed where there is a byte. -/
theorem run_fillSteps (length : Nat) (bytes : Bytes) :
    (fillSteps length).run bytes =
      pure ((), if length % 2 = 1 then bytes.tail else bytes) := by
  rw [fillSteps, StateT.run_bind, run_remaining, pure_bind]
  by_cases hodd : length % 2 = 1
  · cases bytes with
    | nil => simp
    | cons fill rest => simp [hodd, run_advance]
  · simp [hodd]

/-- A data item is decoded step by step, whatever length its head tells. Where fewer bytes are left,
both ways say which length it was; where there are enough, the payload and the fill byte can be taken.
-/
theorem run_steps : (bytes : Bytes) → steps.run bytes = defined (decode bytes)
  | [] | [_] | [_, _] | [_, _, _] => rfl
  | code :: sizeCode :: length₁ :: length₀ :: body => by
    rw [steps, StateT.run_bind, run_require (Nat.le_add_left headerLength body.length)]
    simp only [decode, pure_bind, StateT.run_bind, run_takeByte, run_takeWord, List.length_take]
    generalize TransportSize.payloadLength _ _ = length
    rw [run_require_bind]
    rcases Nat.lt_or_ge body.length length with hshort | hlong
    · rw [if_pos hshort, if_pos (by omega), Nat.min_eq_right (by omega)]
      rfl
    · rw [if_neg (by omega), if_neg (by omega), run_takeBytes hlong, pure_bind, run_fillSteps]
      rfl

end DataItem

namespace StandardItem

/-- An item for memory, step by step. Its twelve bytes are required before the first is looked at; the
type and the area may be unknown, and are asked for in the order in which they stand. -/
def steps : Steps FramingError StandardItem := do
  require encodedLength fun _ => .standardItemTruncated
  let start ← takeByte
  let length ← takeByte
  let addressing ← takeByte
  refuse (start ≠ 0x12 ∨ length ≠ 10 ∨ addressing ≠ 0x10) .notStandardItem
  let typeCode ← takeByte
  let type ← demand (ElementType.ofCode? typeCode) (.unknownElementType typeCode)
  let count ← takeWord
  let block ← takeWord
  let areaCode ← takeByte
  let area ← demand (Area.ofCode? areaCode) (.unknownArea areaCode)
  let place₂ ← takeByte
  let place₁ ← takeByte
  let place₀ ← takeByte
  let (byte, bit) := offsetOf type (spelled [place₂, place₁, place₀])
  return { address := { area, block, byte, bit }, type, count }

/-- The twelve bytes of an item are asked for at once. -/
theorem run_steps : (bytes : Bytes) → steps.run bytes = defined (decode bytes)
  | [] | [_] | [_, _] | [_, _, _] | [_, _, _, _] | [_, _, _, _, _] | [_, _, _, _, _, _]
  | [_, _, _, _, _, _, _] | [_, _, _, _, _, _, _, _] | [_, _, _, _, _, _, _, _, _]
  | [_, _, _, _, _, _, _, _, _, _] | [_, _, _, _, _, _, _, _, _, _, _] => rfl
  | start :: length :: addressing :: typeCode :: _ :: _ :: _ :: _ :: areaCode :: _ :: _ :: _ ::
      rest => by
    rw [steps, StateT.run_bind, run_require (Nat.le_add_left encodedLength rest.length)]
    simp only [decode, pure_bind, StateT.run_bind, run_takeByte, run_refuse_bind]
    refine ite_defined fun _ => ?_
    cases ElementType.ofCode? typeCode with
    | none => rfl
    | some type =>
      simp only [demand, StateT.run_pure, pure_bind, run_takeWord, run_takeByte]
      cases Area.ofCode? areaCode with
      | none => rfl
      | some area =>
        simp only [StateT.run_pure, pure_bind, run_takeByte]
        rfl

end StandardItem

namespace NckItem

/-- An item for a numerical control, step by step. -/
def steps : Steps FramingError NckItem := do
  require encodedLength fun _ => .nckItemTruncated
  let start ← takeByte
  let length ← takeByte
  let addressing ← takeByte
  refuse (start ≠ 0x12 ∨ length ≠ 8 ∨ addressing ≠ 0x82) .notNckItem
  let areaUnit ← takeByte
  let area ← demand (NckArea.ofCode? (areaUnit >>> 5)) (.unknownNckArea (areaUnit >>> 5))
  let column ← takeWord
  let line ← takeWord
  let moduleCode ← takeByte
  let module ← demand (NckModule.ofCode? moduleCode) (.unknownNckModule moduleCode)
  let lineCount ← takeByte
  return { area, unit := areaUnit &&& 31, column, line, module, lineCount }

/-- The ten bytes of an item are asked for at once. -/
theorem run_steps : (bytes : Bytes) → steps.run bytes = defined (decode bytes)
  | [] | [_] | [_, _] | [_, _, _] | [_, _, _, _] | [_, _, _, _, _] | [_, _, _, _, _, _]
  | [_, _, _, _, _, _, _] | [_, _, _, _, _, _, _, _] | [_, _, _, _, _, _, _, _, _] => rfl
  | start :: length :: addressing :: areaUnit :: _ :: _ :: _ :: _ :: moduleCode :: _ :: rest => by
    rw [steps, StateT.run_bind, run_require (Nat.le_add_left encodedLength rest.length)]
    simp only [decode, pure_bind, StateT.run_bind, run_takeByte, run_refuse_bind]
    refine ite_defined fun _ => ?_
    cases NckArea.ofCode? (areaUnit >>> 5) with
    | none => rfl
    | some area =>
      simp only [demand, StateT.run_pure, pure_bind, run_takeWord, run_takeByte]
      cases NckModule.ofCode? moduleCode with
      | none => rfl
      | some module =>
        simp only [StateT.run_pure, pure_bind, run_takeByte]
        rfl

end NckItem

namespace Pdu

/-! ## Answers to requests for access -/

/-- The number of items that parameters declare, step by step. -/
def Access.countSteps (access : Access) : Steps FramingError UInt8 := do
  require countLength fun _ => .parametersTruncated
  let function ← takeByte
  refuse (function ≠ access.code) (.foreignFunction access.code function)
  takeByte

/-- Some data items, step by step; the first of them has the given position. -/
def itemSteps (index : Nat) : (count : Nat) → Bytes → Partial FramingError (List DataItem × Bytes)
  | 0, bytes => pure ([], bytes)
  | count + 1, bytes => do
    let (item, rest) ← (DataItem.steps.run bytes).adapt (.dataItem index)
    let (items, rest) ← itemSteps (index + 1) count rest
    return (item :: items, rest)

/-- Some return codes, step by step. -/
def codeSteps : (count : Nat) → Steps FramingError (List ReturnCode)
  | 0 => pure []
  | count + 1 => do
    let code ← takeByte
    let codes ← codeSteps count
    return .ofCode code :: codes

/-- What an acknowledgment must be before its blocks are looked at, step by step. -/
def openSteps (bytes : Bytes) : Partial Error (Header × Bytes × Bytes) := do
  let (header, body) ← (Header.steps.run bytes).adapt .framing
  header.requireAck
  header.requireNoReport
  header.requireAckData
  let (parameters, data) ← (header.blockSteps.run' body).adapt .framing
  return (header, parameters, data)

/-- An answer to a request to read, step by step. -/
def readSteps (bytes : Bytes) : Partial Error (Header × List DataItem) := do
  let (header, parameters, data) ← openSteps bytes
  let count ← (Access.read.countSteps.run' parameters).adapt .framing
  let (items, rest) ← (itemSteps 0 count.toNat data).adapt .framing
  Partial.refuse (rest ≠ []) (.framing (.unexpectedBytes rest.length count.toNat))
  return (header, items)

/-- An answer to a request to write, step by step. -/
def writeSteps (bytes : Bytes) : Partial Error (Header × List ReturnCode) := do
  let (header, parameters, data) ← openSteps bytes
  let count ← (Access.write.countSteps.run' parameters).adapt .framing
  Partial.refuse (data.length ≠ count.toNat) (.framing (.codeCount count.toNat data.length))
  let codes ← ((codeSteps count.toNat).run' data).adapt .framing
  return (header, codes)

/-- Function and number are asked for at once. -/
theorem Access.run_countSteps (access : Access) : (parameters : Bytes) →
    access.countSteps.run' parameters = defined (access.decodeCount parameters)
  | [] | [_] => rfl
  | function :: count :: rest => by
    rw [countSteps, run'_bind, run_require (Nat.le_add_left countLength rest.length), run'_bind,
      run_takeByte, pure_bind, run'_bind, run_refuse_bind, decodeCount,
      ← ite_not (p := function = access.code)]
    exact ite_defined fun _ => rfl

/-- A row of items is decoded step by step as it is decoded by cases, whatever number of them is
declared. By induction on the number; the step is `DataItem.run_steps`, the position counts up. -/
theorem itemSteps_eq (index count : Nat) (bytes : Bytes) :
    itemSteps index count bytes = defined (decodeItems index count bytes) := by
  induction count generalizing index bytes with
  | zero => rfl
  | succ count ih =>
    refine bind_defined (adapt_defined _ (DataItem.run_steps bytes)) fun (item, rest) _ => ?_
    exact bind_defined (ih (index + 1) rest) fun (items, rest) _ => rfl

/-- Return codes are taken from as many bytes as there are codes, and nothing is left. By induction on
the bytes; each of them is a code, as all bytes are. -/
theorem run_codeSteps (codes : Bytes) :
    (codeSteps codes.length).run codes = pure (codes.map ReturnCode.ofCode, []) := by
  induction codes with
  | nil => rfl
  | cons code codes ih => simp [codeSteps, run_takeByte, ih]

/-- What an acknowledgment has to be is asked in the same order on both ways: a header, an
acknowledgment, no report, data, and blocks of the declared lengths. -/
theorem openSteps_eq (bytes : Bytes) : openSteps bytes = defined (openAnswer bytes) := by
  refine bind_defined (adapt_defined _ (Header.run_steps bytes)) fun (header, body) _ => ?_
  refine bind_defined rfl fun _ _ => bind_defined rfl fun _ _ => bind_defined rfl fun _ _ => ?_
  exact bind_defined (adapt_defined _ (header.run_blockSteps body)) fun (parameters, data) _ => rfl

/-- An answer to a request to read has an outcome. -/
theorem readSteps_eq (bytes : Bytes) : readSteps bytes = defined (decodeReadResponse bytes) := by
  refine bind_defined (openSteps_eq bytes) fun (header, parameters, data) _ => ?_
  refine bind_defined (adapt_defined _ (Access.read.run_countSteps parameters)) fun count _ => ?_
  refine bind_defined (adapt_defined _ (itemSteps_eq 0 count.toNat data)) fun (items, rest) _ => ?_
  exact refuse_bind_defined fun _ => rfl

/-- An answer to a request to write has one: the codes are taken as many times as the parameters tell,
which is defined because the block has been found to have just as many bytes. -/
theorem writeSteps_eq (bytes : Bytes) : writeSteps bytes = defined (decodeWriteResponse bytes) := by
  refine bind_defined (openSteps_eq bytes) fun (header, parameters, data) _ => ?_
  refine bind_defined (adapt_defined _ (Access.write.run_countSteps parameters)) fun count _ => ?_
  refine refuse_bind_defined fun hcount => ?_
  rw [← Decidable.not_not.mp hcount, StateT.run'_eq, run_codeSteps]
  rfl

/-! ## Answers to other requests -/

/-- An answer to a control job, step by step. -/
def Control.ackSteps (bytes : Bytes) (reference : UInt16) : Partial Error Header := do
  let (header, _) ← (Header.steps.run bytes).adapt .framing
  header.requireAck
  header.requireReference reference
  header.requireNoReport
  return header

/-- The parameters of an answer to a setup, step by step. -/
def Setup.parameterSteps : Steps NegotiationError Setup := do
  require parameterLength fun _ => .parametersTruncated
  let function ← takeByte
  refuse (function ≠ functionCode) (.foreignFunction function)
  let _ ← takeByte
  let callerJobs ← takeWord
  let calleeJobs ← takeWord
  let pduLength ← takeWord
  refuse (pduLength = 0) .zeroLength
  return { callerJobs, calleeJobs, pduLength }

/-- An answer to a setup, step by step. -/
def Setup.responseSteps (bytes : Bytes) : Partial NegotiationError (Header × Setup) := do
  Partial.refuse (bytes.length < ackHeaderLength + parameterLength) (.responseTooShort bytes.length)
  let (header, body) ← (Header.steps.run bytes).adapt .malformed
  Partial.refuse (header.kind ≠ .ackData) (.notAckData header.kind)
  let _ ← header.requireNoReport.mapError NegotiationError.rejected
  let (parameters, _) ← (header.blockSteps.run' body).adapt .malformed
  let setup ← parameterSteps.run' parameters
  return (header, setup)

/-- An answer to a control job has an outcome since its header has. -/
theorem Control.ackSteps_eq (bytes : Bytes) (reference : UInt16) :
    ackSteps bytes reference = defined (validateAck bytes reference) := by
  refine bind_defined (adapt_defined _ (Header.run_steps bytes)) fun (header, body) _ => ?_
  exact bind_defined rfl fun _ _ => bind_defined rfl fun _ _ => bind_defined rfl fun _ _ => rfl

/-- The eight bytes of the parameters are asked for at once. -/
theorem Setup.run_parameterSteps : (parameters : Bytes) →
    parameterSteps.run' parameters = defined (decodeParameters parameters)
  | [] | [_] | [_, _] | [_, _, _] | [_, _, _, _] | [_, _, _, _, _] | [_, _, _, _, _, _]
  | [_, _, _, _, _, _, _] => rfl
  | function :: _ :: _ :: _ :: _ :: _ :: length₁ :: length₀ :: rest => by
    rw [parameterSteps, run'_bind, run_require (Nat.le_add_left parameterLength rest.length)]
    simp only [decodeParameters, run'_bind, pure_bind, run_takeByte, run_refuse_bind]
    refine ite_defined fun _ => ?_
    simp only [run_takeWord, pure_bind]
    exact ite_defined fun _ => rfl

/-- An answer to a setup has an outcome. That it is long enough as a whole does not say that its
parameters are: their length is declared, and asked for again. -/
theorem Setup.responseSteps_eq (bytes : Bytes) :
    responseSteps bytes = defined (decodeResponse bytes) := by
  refine refuse_bind_defined fun _ => ?_
  refine bind_defined (adapt_defined _ (Header.run_steps bytes)) fun (header, body) _ => ?_
  refine refuse_bind_defined fun _ => bind_defined rfl fun _ _ => ?_
  refine bind_defined (adapt_defined _ (header.run_blockSteps body)) fun (parameters, data) _ => ?_
  exact bind_defined (run_parameterSteps parameters) fun setup _ => rfl

/-! ## Requests to write -/

/-- A request to write, step by step: its last item is found by its position, `data.length - 1`, a
difference of numbers that would not be defined without data. It is taken behind the encoding of the
parameters, which refuses an empty list. -/
def requestSteps (reference : UInt16) (items : List RequestItem) (data : List DataItem) :
    Partial Error Bytes := do
  Partial.refuse (items.length ≠ data.length)
    (.invalidArgument (.unpairedData items.length data.length))
  let parameters ← Access.write.encodeParameters items
  let header ← Header.job reference parameters.length (DataItem.blockLength data)
  let last ← Partial.minus data.length 1
  let block := data.zipIdx.flatMap fun (item, i) => item.encode (i == last)
  return header.encode ++ parameters ++ block

/-- An item is the last of its block if its position is one less than the number of items. -/
theorem flatMap_encode_zipIdx (data : List DataItem) (first : Nat) :
    ((data.zipIdx first).flatMap fun (item, i) => item.encode (i == first + (data.length - 1))) =
      DataItem.encodeBlock data := by
  fun_induction DataItem.encodeBlock data generalizing first with
  | case1 => rfl
  | case2 item => simp
  | case3 item next items ih =>
    have hlast : first + ((item :: next :: items).length - 1) =
        first + 1 + ((next :: items).length - 1) := by
      simp only [List.length_cons]
      omega
    have hfirst : (first == first + 1 + ((next :: items).length - 1)) = false := by
      rw [beq_eq_false_iff_ne]
      omega
    rw [List.zipIdx_cons, List.flatMap_cons, hlast, ih (first + 1)]
    dsimp only
    rw [hfirst]

/-- A request to write is encoded step by step for any items and data, also for none, and for numbers
of them that differ: `requestSteps … = defined (encodeWriteRequest …)`. Where the difference is taken,
there are as many data as items, and `encodeParameters` has not refused the items. -/
theorem requestSteps_eq (reference : UInt16) (items : List RequestItem) (data : List DataItem) :
    requestSteps reference items data = defined (encodeWriteRequest reference items data) := by
  refine refuse_bind_defined fun hpaired => bind_defined rfl fun parameters hparameters => ?_
  rw [← DataItem.length_encodeBlock]
  refine bind_defined rfl fun header _ => ?_
  have hitems : items ≠ [] :=
    (encodeParameters_eq_ok_iff.mp (lift_argument_eq_ok_iff.mp hparameters)).1
  have hdata : 1 ≤ data.length := by
    rw [← Decidable.not_not.mp hpaired]
    exact List.length_pos_of_ne_nil hitems
  have hblock := flatMap_encode_zipIdx data 0
  simp only [Nat.zero_add] at hblock
  rw [Partial.minus_eq hdata, pure_bind, hblock]
  rfl

end Pdu

end S7Comm
