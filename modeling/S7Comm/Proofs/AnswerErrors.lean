import S7Comm.Proofs.Operations

/-!
# What can be wrong with an answer

An answer that was received is taken apart and checked, and each step of that can complain. What they
complain of is listed here once.

* `FramingError.isOfAnswer`: every violation of the format but two, the repetition of a fault, which
  is the business of a session, and the lack of an item, which is found behind all checks.
* `Error.isOfAnswer`: such a violation, or an error that the answer itself reports.
* **Main results** (`Pdu.ofAnswer_checkReadResponse`, `Pdu.ofAnswer_checkWriteResponse`,
  `Pdu.ofAnswer_validateAck`): whatever is wrong with the answer to a request to read, to one to
  write, or to a job of control, its error is such.

There is one lemma for each step, and each says of the step what it fails with (`Pdu.OfFormat`). They
add up along the definitions of the three checks. The setup is not among them: its answer fails with
errors of the negotiation.
-/

namespace S7Comm

open Call

/-- Whether a violation of the format is one that is found where an answer is looked at. -/
def FramingError.isOfAnswer : FramingError → Bool
  | .again _ | .noDataItem => false
  | .dataItem _ cause => cause.isOfAnswer
  | _ => true

/-- Whether an error is one with which looking at an answer ends. -/
def Error.isOfAnswer : Error → Bool
  | .framing cause => cause.isOfAnswer
  | .protocol _ => true
  | _ => false

namespace Pdu

variable {α : Type}

/-! ## The steps

Taking an answer apart: the header, its kind and its reference, the two blocks, the number of items,
the items, and the lengths of their payloads.
-/

/-- A step that complains of the format of an answer, if of anything. -/
def OfFormat (result : Except FramingError α) : Prop :=
  FailsWith (fun e => e.isOfAnswer = true) result

/-- A computation that fails for what an answer is, if for anything. -/
def OfAnswer (result : Except Error α) : Prop :=
  FailsWith (fun e => e.isOfAnswer = true) result

/-- To complain of the format is to fail for what the answer is. -/
theorem OfFormat.lift {result : Except FramingError α} (h : OfFormat result) :
    OfAnswer (liftM result : Except Error α) :=
  FailsWith.mapError h fun _ hcause => hcause

/-- So is to report an error. -/
theorem OfAnswer.report (result : Except ProtocolError α) :
    OfAnswer (liftM result : Except Error α) :=
  FailsWith.mapError (fun _ _ => trivial) fun _ _ => rfl

/-- The header: too short, of another protocol, of an unknown kind, or cut off. -/
theorem ofFormat_decode (bytes : Bytes) : OfFormat (Header.decode bytes) := by
  unfold Header.decode
  split
  · split
    · exact .error rfl
    · split
      · exact .error rfl
      · dsimp only
        split
        · split
          · exact .ok _
          · exact .error rfl
        · exact .ok _
  · exact .error rfl

/-- Its kind: no acknowledgment, -/
theorem ofFormat_requireAck (header : Header) : OfFormat header.requireAck := by
  unfold Header.requireAck
  split
  · exact .ok _
  · exact .error rfl

/-- or none with data. -/
theorem ofFormat_requireAckData (header : Header) : OfFormat header.requireAckData := by
  unfold Header.requireAckData
  split
  · exact .ok _
  · exact .error rfl

/-- Its reference: that of another request. -/
theorem ofFormat_requireReference (header : Header) (reference : UInt16) :
    OfFormat (header.requireReference reference) := by
  unfold Header.requireReference
  split
  · exact .ok _
  · exact .error rfl

/-- The blocks: longer than the message. -/
theorem ofFormat_splitBlocks (header : Header) (body : Bytes) :
    OfFormat (header.splitBlocks body) := by
  unfold Header.splitBlocks
  dsimp only
  split
  · exact .error rfl
  · exact .ok _

/-- The number of items: not there, or that of another function. -/
theorem ofFormat_decodeCount (access : Access) (parameters : Bytes) :
    OfFormat (access.decodeCount parameters) := by
  unfold Access.decodeCount
  split
  · split
    · exact .ok _
    · exact .error rfl
  · exact .error rfl

/-- An item: its head is cut off, or its payload. -/
theorem ofFormat_decodeItem (bytes : Bytes) : OfFormat (DataItem.decode bytes) := by
  unfold DataItem.decode
  split
  · dsimp only
    split
    · exact .error rfl
    · exact .ok _
  · exact .error rfl

/-- Some items: what is wrong with one of them, at its position. -/
theorem ofFormat_decodeItems (index count : Nat) (bytes : Bytes) :
    OfFormat (decodeItems index count bytes) := by
  induction count generalizing index bytes with
  | zero => exact .ok _
  | succ count ih =>
    have hitem : OfFormat ((DataItem.decode bytes).mapError (.dataItem index)) :=
      (ofFormat_decodeItem bytes).mapError fun _ hcause => hcause
    exact hitem.bind fun _ _ => (ih _ _).bind fun _ _ => .ok _

/-- The payloads: one of them has another length than was asked for. -/
theorem ofFormat_checkPayloads (index : Nat) (requested : List RequestItem)
    (items : List DataItem) : OfFormat (Batch.checkPayloads index requested items) := by
  fun_induction Batch.checkPayloads index requested items with
  | case1 => exact .error rfl
  | case2 _ _ _ _ _ _ _ _ ih => exact ih
  | case3 _ _ _ _ _ _ ih => exact ih
  | case4 => exact .ok _

/-! ## Answers -/

/-- Opening an answer: its header, its kind, the error that it reports, its blocks. -/
theorem ofAnswer_openAnswer (response : Bytes) : OfAnswer (openAnswer response) := by
  unfold openAnswer
  refine (ofFormat_decode response).lift.bind fun _ _ => ?_
  refine (ofFormat_requireAck _).lift.bind fun _ _ => ?_
  refine (OfAnswer.report _).bind fun _ _ => ?_
  refine (ofFormat_requireAckData _).lift.bind fun _ _ => ?_
  exact (ofFormat_splitBlocks _ _).lift.bind fun _ _ => .ok _

/-- **An answer to a request to read** is refused for its format, or for the error that it reports,
whatever was asked for, and for no other reason. -/
theorem ofAnswer_checkReadResponse (response : Bytes) (reference : UInt16)
    (requested : List RequestItem) :
    OfAnswer (Batch.checkReadResponse response reference requested) := by
  have hdecode : OfAnswer (decodeReadResponse response) := by
    unfold decodeReadResponse
    refine (ofAnswer_openAnswer response).bind fun _ _ => ?_
    refine (ofFormat_decodeCount _ _).lift.bind fun _ _ => ?_
    refine (ofFormat_decodeItems _ _ _).lift.bind fun _ _ => ?_
    exact .guard rfl (.ok _)
  unfold Batch.checkReadResponse
  refine hdecode.bind fun _ _ => ?_
  refine (ofFormat_requireReference _ _).lift.bind fun _ _ => ?_
  refine .guard rfl ?_
  exact (ofFormat_checkPayloads _ _ _).lift.bind fun _ _ => .ok _

/-- **An answer to a request to write** is refused for its format, or for the error that it reports.
-/
theorem ofAnswer_checkWriteResponse (response : Bytes) (reference : UInt16) (written : Nat) :
    OfAnswer (Batch.checkWriteResponse response reference written) := by
  have hdecode : OfAnswer (decodeWriteResponse response) := by
    unfold decodeWriteResponse
    refine (ofAnswer_openAnswer response).bind fun _ _ => ?_
    refine (ofFormat_decodeCount _ _).lift.bind fun _ _ => ?_
    exact .guard rfl (.ok _)
  unfold Batch.checkWriteResponse
  refine hdecode.bind fun _ _ => ?_
  refine (ofFormat_requireReference _ _).lift.bind fun _ _ => ?_
  exact .guard rfl (.ok _)

/-- **An answer to a job of control** is, too. It need not have data. -/
theorem ofAnswer_validateAck (response : Bytes) (reference : UInt16) :
    OfAnswer (Control.validateAck response reference) := by
  unfold Control.validateAck
  refine (ofFormat_decode response).lift.bind fun _ _ => ?_
  refine (ofFormat_requireAck _).lift.bind fun _ _ => ?_
  refine (ofFormat_requireReference _ _).lift.bind fun _ _ => ?_
  exact (OfAnswer.report _).bind fun _ _ => .ok _

end Pdu

end S7Comm
