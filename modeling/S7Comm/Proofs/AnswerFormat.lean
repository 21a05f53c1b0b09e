import S7Comm.Proofs.ForeignAnswers
import S7Comm.Proofs.Received

/-!
# The format of answers

An answer to a request for access is a header of twelve bytes, a block of parameters and a block of
data, each as long as the header declares. The parameters begin with the function and the number of
items; the data are a row of that many items, or a code for each. This module says so in terms of
bytes, and shows that the two decoders accept just that.

* `Answered.Row answers bytes`: a row of items as it may stand in a data block. Behind an item with an
  odd payload stands one byte of any value, unless the block ends there; so a block can end with such
  a byte or without.
* `IsAnswer access message header count data`: `message` is the header, then `access.code :: count ::
  more`, then `data`, then anything. `IsReadAnswer`, `IsWriteAnswer` say what `data` is.
* `Reports message report`: it begins with the header of an acknowledgment whose report is not two
  zeros.
* `Recognizes decoder Format`: what it means for a decoder to know a format, in both directions.

**Freedom of the sender.** Two bytes of the header have no meaning, and neither have the parameters
behind the number of items and the bytes behind the blocks. The length fields of items are free as far
as they declare the same payload (`Answered`).

**Main result** (`decoders_recognize`): both decoders know their formats. What is compared with the
request, the reference and the numbers and lengths of items, is not looked at by a decoder, and is
found in `S7Comm.Proofs.Received`.
-/

namespace S7Comm

open Call

/-! ## Rows of items

Decoding goes from the front and skips a fill byte wherever the payload before it is odd. Whether such
a byte was there can be told at the end of the block only, and there it does not matter.
-/

/-- The header and the payload of an item. -/
def Answered.body (a : Answered) : Bytes :=
  [a.code, a.sizeCode] ++ wordBytes a.field ++ a.payload

/-- A row of items as it may stand in a data block. -/
inductive Answered.Row : List Answered → Bytes → Prop where
  /-- No items take no bytes. -/
  | nil : Row [] []
  /-- Behind an even payload the next item follows. -/
  | even {a : Answered} {answers : List Answered} {bytes : Bytes} :
    a.payload.length % 2 = 0 → Row answers bytes → Row (a :: answers) (a.body ++ bytes)
  /-- Behind an odd payload stands a fill byte of any value. -/
  | odd {a : Answered} {answers : List Answered} {fill : UInt8} {bytes : Bytes} :
    a.payload.length % 2 = 1 → Row answers bytes → Row (a :: answers) (a.body ++ fill :: bytes)
  /-- The block may end with an odd payload. -/
  | last {a : Answered} : a.payload.length % 2 = 1 → Row [a] a.body

/-- An item begins with a header. -/
theorem Answered.body_append_ne_nil (a : Answered) (behind : Bytes) : a.body ++ behind ≠ [] :=
  List.cons_ne_nil _ _

/-- Where there are no bytes, there are no items. -/
theorem Answered.Row.eq_nil {answers : List Answered} (h : Row answers []) : answers = [] := by
  generalize hbytes : ([] : Bytes) = bytes at h
  cases h with
  | nil => rfl
  | even => exact absurd hbytes.symm (body_append_ne_nil _ _)
  | odd => exact absurd hbytes.symm (body_append_ne_nil _ _)
  | last => exact absurd hbytes.symm (List.cons_ne_nil _ _)

/-- What is decoded at the front of some bytes is an item whose bytes stand there; behind it the byte
that its odd payload needs is skipped, if there is one. -/
theorem DataItem.decode_eq_ok_iff {bytes rest : Bytes} {item : DataItem} :
    decode bytes = .ok (item, rest) ↔
      ∃ (a : Answered) (behind : Bytes), item = a.item ∧ bytes = a.body ++ behind ∧
        rest = if a.payload.length % 2 = 1 then behind.tail else behind := by
  constructor
  · intro h
    unfold decode at h
    split at h
    · next code sizeCode length₁ length₀ body =>
      dsimp only at h
      split at h
      · cases h
      · next hlong =>
        cases h
        have hdeclared := List.length_take_of_le (l := body)
          (i := (TransportSize.ofCode sizeCode).payloadLength (word length₁ length₀))
          (by rw [List.length_take] at hlong; omega)
        refine ⟨⟨code, sizeCode, word length₁ length₀, _, hdeclared.symm⟩,
          body.drop ((TransportSize.ofCode sizeCode).payloadLength (word length₁ length₀)),
          rfl, ?_, ?_⟩
        · simp only [Answered.body, wordBytes_word, List.cons_append, List.nil_append,
            List.take_append_drop]
        · rw [hdeclared]
    · cases h
  · rintro ⟨a, behind, rfl, rfl, rfl⟩
    exact a.decode_declared behind

namespace Pdu

/-- A block is decoded completely exactly if it is a row of as many items, and the items are those. -/
theorem decodeItems_eq_ok_iff {index count : Nat} {bytes : Bytes} {items : List DataItem} :
    decodeItems index count bytes = .ok (items, []) ↔
      ∃ answers, Answered.Row answers bytes ∧ answers.length = count ∧
        items = answers.map Answered.item := by
  induction count generalizing index bytes items with
  | zero =>
    constructor
    · rintro ⟨⟩
      exact ⟨[], .nil, rfl, rfl⟩
    · rintro ⟨answers, hrow, hlength, rfl⟩
      obtain rfl := List.eq_nil_of_length_eq_zero hlength
      cases hrow
      rfl
  | succ count ih =>
    simp only [decodeItems, except_bind_eq_ok_iff, mapError_eq_ok_iff]
    constructor
    · rintro ⟨⟨item, rest⟩, hitem, ⟨others, _⟩, hothers, hend⟩
      cases hend
      obtain ⟨a, behind, rfl, rfl, rfl⟩ := DataItem.decode_eq_ok_iff.mp hitem
      obtain ⟨answers, hrow, hlength, rfl⟩ := ih.mp hothers
      refine ⟨a :: answers, ?_, congrArg (· + 1) hlength, rfl⟩
      by_cases hodd : a.payload.length % 2 = 1
      · rw [if_pos hodd] at hrow
        cases behind with
        | nil =>
          obtain rfl := hrow.eq_nil
          rw [List.append_nil]
          exact .last hodd
        | cons fill behind => exact .odd hodd hrow
      · rw [if_neg hodd] at hrow
        exact .even (Nat.mod_two_ne_one.mp hodd) hrow
    · rintro ⟨answers, hrow, hlength, rfl⟩
      -- whatever the row, it begins with an item, and what is left behind that is a row
      obtain ⟨a, others, behind, rfl, rfl, hothers⟩ : ∃ a others behind, answers = a :: others ∧
          bytes = a.body ++ behind ∧
          Answered.Row others (if a.payload.length % 2 = 1 then behind.tail else behind) := by
        cases hrow with
        | nil => cases hlength
        | @even a others behind heven hothers =>
          refine ⟨a, others, behind, rfl, rfl, ?_⟩
          rw [if_neg (by omega)]
          exact hothers
        | @odd a others fill behind hodd hothers =>
          refine ⟨a, others, fill :: behind, rfl, rfl, ?_⟩
          rw [if_pos hodd]
          exact hothers
        | @last a hodd =>
          refine ⟨a, [], [], rfl, (List.append_nil _).symm, ?_⟩
          rw [if_pos hodd]
          exact .nil
      have hrest : decodeItems (index + 1) count _ = .ok (others.map Answered.item, []) :=
        ih.mpr ⟨others, hothers, Nat.succ.inj hlength, rfl⟩
      exact ⟨_, a.decode_declared behind, _, hrest, rfl⟩

/-! ## Headers and blocks -/

namespace Header

/-- The bytes of a header, two of which have no meaning. -/
def spell (header : Header) (reserved₁ reserved₀ : UInt8) : Bytes :=
  [protocolId, header.kind.code, reserved₁, reserved₀] ++ wordBytes header.reference ++
    wordBytes header.parameterLength ++ wordBytes header.dataLength ++
      if header.kind.isAck then [header.report.errorClass, header.report.errorCode] else []

/-- What the header of a message says; only an acknowledgment can report something. -/
def told (header : Header) : Header :=
  if header.kind.isAck then header else { header with report := ⟨0, 0⟩ }

/-- A header is read from its bytes. -/
theorem decode_spell (header : Header) (reserved₁ reserved₀ : UInt8) (rest : Bytes) :
    decode (header.spell reserved₁ reserved₀ ++ rest) = .ok (header.told, rest) := by
  obtain ⟨kind, reference, parameterLength, dataLength, report⟩ := header
  have hkind : Kind.ofCode? kind.code = some kind := Kind.ofCode?_eq_some_iff.mpr rfl
  cases hack : kind.isAck with
  | true =>
    simp only [spell, told, hack, wordBytes, List.cons_append, List.nil_append, decode, hkind,
      word_wordBytes, ne_eq, not_true, if_false, if_true]
  | false =>
    simp only [spell, told, hack, wordBytes, List.cons_append, List.nil_append, decode, hkind,
      word_wordBytes, ne_eq, not_true, if_false, Bool.false_eq_true]

/-- The bytes that are read as the header of an acknowledgment are the bytes of that header. -/
theorem decode_eq_ok_iff {message body : Bytes} {header : Header} (hack : header.kind.isAck = true) :
    decode message = .ok (header, body) ↔
      ∃ reserved₁ reserved₀, message = header.spell reserved₁ reserved₀ ++ body := by
  constructor
  · intro h
    unfold decode at h
    split at h
    · next mark kindCode reserved₁ reserved₀ reference₁ reference₀ parameter₁ parameter₀ data₁ data₀
        rest =>
      split at h
      · cases h
      · next hmark =>
        split at h
        · cases h
        · next kind hkind =>
          obtain rfl := Kind.ofCode?_eq_some_iff.mp hkind
          obtain rfl : mark = protocolId := not_not.mp hmark
          -- twelve bytes have been taken; with another kind there would be only ten, and no report
          dsimp only at h
          split at h
          · next hack =>
            split at h
            · cases h
              refine ⟨reserved₁, reserved₀, ?_⟩
              simp only [spell, hack, wordBytes_word, if_true, List.cons_append, List.nil_append]
            · cases h
          · next hnack =>
            cases h
            exact absurd hack hnack
    · cases h
  · rintro ⟨reserved₁, reserved₀, rfl⟩
    rw [decode_spell, told, if_pos hack]

/-- The blocks that a header declares are those that stand behind it. -/
theorem splitBlocks_eq_ok_iff {header : Header} {body parameters data : Bytes} :
    header.splitBlocks body = .ok (parameters, data) ↔
      ∃ behind, body = parameters ++ data ++ behind ∧
        parameters.length = header.parameterLength.toNat ∧
        data.length = header.dataLength.toNat := by
  unfold splitBlocks
  dsimp only
  split
  · next hshort =>
    refine iff_of_false nofun ?_
    rintro ⟨behind, rfl, hparameters, hdata⟩
    simp only [List.length_append] at hshort
    omega
  · next hlong =>
    constructor
    · rintro ⟨⟩
      refine ⟨(body.drop header.parameterLength.toNat).drop header.dataLength.toNat, ?_, ?_, ?_⟩
      · rw [List.append_assoc, List.take_append_drop, List.take_append_drop]
      · rw [List.length_take]
        omega
      · rw [List.length_take, List.length_drop]
        omega
    · rintro ⟨behind, rfl, hparameters, hdata⟩
      rw [← hparameters, ← hdata, List.append_assoc, List.take_left, List.drop_left, List.take_left]

/-- Behind the header of an acknowledgment with data its blocks are found, exactly if they are as long
as it declares. -/
theorem opened_iff {message parameters data : Bytes} {header : Header}
    (hkind : header.kind = .ackData) :
    (∃ body, decode message = .ok (header, body) ∧
      header.splitBlocks body = .ok (parameters, data)) ↔
      ∃ reserved₁ reserved₀ behind,
        message = header.spell reserved₁ reserved₀ ++ (parameters ++ data ++ behind) ∧
          parameters.length = header.parameterLength.toNat ∧
          data.length = header.dataLength.toNat := by
  have hack := isAck_of_ackData hkind
  constructor
  · rintro ⟨body, hdecode, hsplit⟩
    obtain ⟨reserved₁, reserved₀, rfl⟩ := (decode_eq_ok_iff hack).mp hdecode
    obtain ⟨behind, rfl, hparameters, hdata⟩ := splitBlocks_eq_ok_iff.mp hsplit
    exact ⟨reserved₁, reserved₀, behind, rfl, hparameters, hdata⟩
  · rintro ⟨reserved₁, reserved₀, behind, rfl, hparameters, hdata⟩
    exact ⟨_, (decode_eq_ok_iff hack).mpr ⟨reserved₁, reserved₀, rfl⟩,
      splitBlocks_eq_ok_iff.mpr ⟨behind, rfl, hparameters, hdata⟩⟩

end Header

/-! ## The format -/

/-- A message answers an access: an acknowledgment with data and without a report, whose parameters
begin with the function and a number of items, and whose blocks are as long as the header declares.
What stands behind the number of items, and behind the blocks, is free. -/
structure IsAnswer (access : Access) (message : Bytes) (header : Header) (count : UInt8)
    (data : Bytes) : Prop where
  /-- The header is that of an acknowledgment with data. -/
  kind : header.kind = .ackData
  /-- The header reports no error. -/
  report : header.report = ⟨0, 0⟩
  /-- The message is put together of its header and its blocks. -/
  blocks : ∃ reserved₁ reserved₀ more behind,
    message = header.spell reserved₁ reserved₀ ++ (access.code :: count :: more ++ data ++ behind) ∧
      (access.code :: count :: more).length = header.parameterLength.toNat ∧
      data.length = header.dataLength.toNat

/-- A message answers a request to read, and has some items: its data block is a row of them, as many
as its parameters say. -/
def IsReadAnswer (message : Bytes) (header : Header) (items : List DataItem) : Prop :=
  ∃ count data answers, IsAnswer .read message header count data ∧ Answered.Row answers data ∧
    answers.length = count.toNat ∧ items = answers.map Answered.item

/-- A message answers a request to write, and has some codes: its data block is the row of them, as
many as its parameters say. -/
def IsWriteAnswer (message : Bytes) (header : Header) (codes : List ReturnCode) : Prop :=
  ∃ count data, IsAnswer .write message header count data ∧ data.length = count.toNat ∧
    codes = data.map ReturnCode.ofCode

/-- A message begins with the header of an acknowledgment that reports an error. -/
def Reports (message : Bytes) (report : ProtocolError) : Prop :=
  ∃ (header : Header) (reserved₁ reserved₀ : UInt8) (body : Bytes),
    header.kind.isAck = true ∧ header.report = report ∧ report ≠ ⟨0, 0⟩ ∧
      message = header.spell reserved₁ reserved₀ ++ body

/-- A header that declares the lengths of some blocks. -/
def Header.declaring (header : Header) (parameters data : Bytes) : Header :=
  { header with parameterLength := UInt16.ofNat parameters.length,
                dataLength := UInt16.ofNat data.length }

/-- A message whose header declares the lengths of its blocks, with some bytes behind them. -/
def compose (header : Header) (reserved₁ reserved₀ : UInt8) (parameters data behind : Bytes) :
    Bytes :=
  (header.declaring parameters data).spell reserved₁ reserved₀ ++ (parameters ++ data ++ behind)

/-! ## The decoders -/

/-- A decoder knows a format: it accepts what is of the format and finds in it what the format says;
it refuses what reports an error with the report, and all else as a violation of the format; and what
it finds depends neither on what stands behind the blocks, nor on the parameters behind the number of
items. -/
structure Recognizes {α : Type} (decoder : Bytes → Except Error (Header × α))
    (Format : Bytes → Header → α → Prop) : Prop where
  /-- What is accepted is of the format. -/
  accepts : ∀ message header found,
    decoder message = .ok (header, found) ↔ Format message header found
  /-- A report is the error, whatever follows it. -/
  reports : ∀ message report, Reports message report → decoder message = .error (.protocol report)
  /-- Without a report, what is refused breaks the format. -/
  breaks : ∀ message e, decoder message = .error e → (∀ report, ¬ Reports message report) →
    ∃ cause, e = .framing cause
  /-- A message ends with its blocks, whatever stands behind them. -/
  ends : ∀ header reserved₁ reserved₀ parameters data behind behind',
    parameters.length ≤ 65535 → data.length ≤ 65535 →
    decoder (compose header reserved₁ reserved₀ parameters data behind) =
      decoder (compose header reserved₁ reserved₀ parameters data behind')
  /-- With other parameters behind the number of items the same is found, or the same is wrong. -/
  ignores : ∀ header reserved₁ reserved₀ function count more more' data behind,
    (function :: count :: more).length ≤ 65535 → (function :: count :: more').length ≤ 65535 →
    data.length ≤ 65535 →
    decoder (compose header reserved₁ reserved₀ (function :: count :: more) data behind) =
      (decoder (compose header reserved₁ reserved₀ (function :: count :: more') data behind)).map
        fun result => ((header.declaring (function :: count :: more) data).told, result.2)

/-- An answer is one that is opened, and whose parameters begin with function and number. -/
theorem isAnswer_iff {access : Access} {message data : Bytes} {header : Header} {count : UInt8} :
    IsAnswer access message header count data ↔
      ∃ more, openAnswer message = .ok (header, access.code :: count :: more, data) := by
  simp only [openAnswer_eq_ok_iff]
  constructor
  · rintro ⟨hkind, hreport, reserved₁, reserved₀, more, behind, hblocks⟩
    obtain ⟨body, hdecode, hsplit⟩ :=
      (Header.opened_iff hkind).mpr ⟨reserved₁, reserved₀, behind, hblocks⟩
    exact ⟨more, body, hdecode, hkind, hreport, hsplit⟩
  · rintro ⟨more, body, hdecode, hkind, hreport, hsplit⟩
    obtain ⟨reserved₁, reserved₀, behind, hblocks⟩ :=
      (Header.opened_iff hkind).mp ⟨body, hdecode, hsplit⟩
    exact ⟨hkind, hreport, reserved₁, reserved₀, more, behind, hblocks⟩

/-- The items of an answer to a request to read are found exactly if it is one. -/
theorem decodeReadResponse_eq_ok_iff {message : Bytes} {header : Header} {items : List DataItem} :
    decodeReadResponse message = .ok (header, items) ↔ IsReadAnswer message header items := by
  simp only [decodeReadResponse, except_bind_eq_ok_iff, lift_framing_eq_ok_iff, guard_eq_ok_iff]
  constructor
  · rintro ⟨⟨_, parameters, data⟩, hopen, count, hcount, ⟨_, rest⟩, hitems, hrest, hend⟩
    cases hend
    obtain ⟨more, rfl⟩ := Access.decodeCount_eq_ok_iff.mp hcount
    obtain rfl : rest = [] := not_not.mp hrest
    obtain ⟨answers, hrow, hlength, rfl⟩ := decodeItems_eq_ok_iff.mp hitems
    exact ⟨count, data, answers, isAnswer_iff.mpr ⟨more, hopen⟩, hrow, hlength, rfl⟩
  · rintro ⟨count, data, answers, hanswer, hrow, hlength, rfl⟩
    obtain ⟨more, hopen⟩ := isAnswer_iff.mp hanswer
    exact ⟨_, hopen, count, Access.decodeCount_eq_ok_iff.mpr ⟨more, rfl⟩, _,
      decodeItems_eq_ok_iff.mpr ⟨answers, hrow, hlength, rfl⟩, not_not_intro rfl, rfl⟩

/-- The codes of an answer to a request to write are found exactly if it is one. -/
theorem decodeWriteResponse_eq_ok_iff {message : Bytes} {header : Header}
    {codes : List ReturnCode} :
    decodeWriteResponse message = .ok (header, codes) ↔ IsWriteAnswer message header codes := by
  simp only [decodeWriteResponse, except_bind_eq_ok_iff, lift_framing_eq_ok_iff, guard_eq_ok_iff]
  constructor
  · rintro ⟨⟨_, parameters, data⟩, hopen, count, hcount, hlength, hend⟩
    cases hend
    obtain ⟨more, rfl⟩ := Access.decodeCount_eq_ok_iff.mp hcount
    exact ⟨count, data, isAnswer_iff.mpr ⟨more, hopen⟩, not_not.mp hlength, rfl⟩
  · rintro ⟨count, data, hanswer, hlength, rfl⟩
    obtain ⟨more, hopen⟩ := isAnswer_iff.mp hanswer
    exact ⟨_, hopen, count, Access.decodeCount_eq_ok_iff.mpr ⟨more, rfl⟩, not_not_intro hlength, rfl⟩

/-! ### What is refused -/

section Refused

variable {α : Type} {decoder : Bytes → Except Error (Header × α)}
  (h : ∀ {message rest : Bytes} {answer : Header}, Header.decode message = .ok (answer, rest) →
    Decodes answer (decoder message))

include h

/-- A report is the error. -/
theorem eq_protocol_of_reports {message : Bytes} {report : ProtocolError}
    (hreports : Reports message report) : decoder message = .error (.protocol report) := by
  obtain ⟨header, reserved₁, reserved₀, body, hack, rfl, hreport, rfl⟩ := hreports
  exact (h ((Header.decode_eq_ok_iff hack).mpr ⟨reserved₁, reserved₀, rfl⟩)).reported hreport

/-- Without a report, the error is a violation of the format. -/
theorem eq_framing_of_not_reports
    (hheader : ∀ {message cause}, Header.decode message = .error cause →
      decoder message = .error (.framing cause))
    {message : Bytes} {e : Error} (he : decoder message = .error e)
    (hnone : ∀ report, ¬ Reports message report) : ∃ cause, e = .framing cause := by
  cases hdecode : Header.decode message with
  | error cause => exact ⟨cause, Except.error.inj (he.symm.trans (hheader hdecode))⟩
  | ok found =>
    obtain ⟨answer, rest⟩ := found
    refine (h hdecode).framed ?_ e he
    by_contra hreport
    have hack := Header.isAck_of_report hdecode hreport
    obtain ⟨reserved₁, reserved₀, rfl⟩ := (Header.decode_eq_ok_iff hack).mp hdecode
    exact hnone answer.report ⟨answer, reserved₁, reserved₀, rest, hack, rfl, hreport, rfl⟩

end Refused

/-! ### What is free -/

/-- What is demanded of the header of an answer before its blocks are looked at. -/
def Header.requireAnswer (header : Header) : Except Error Unit := do
  header.requireAck
  header.requireNoReport
  header.requireAckData

/-- The demands are about the kind and the report only. -/
theorem Header.requireAnswer_congr {header header' : Header} (hkind : header.kind = header'.kind)
    (hreport : header.report = header'.report) : header.requireAnswer = header'.requireAnswer := by
  simp only [requireAnswer, requireAck, requireNoReport, requireAckData, hkind, hreport]

/-- Where the blocks are as long as declared, an answer is opened if its header is as demanded. -/
theorem openAnswer_of_blocks {message body parameters data : Bytes} {header : Header}
    (hdecode : Header.decode message = .ok (header, body))
    (hsplit : header.splitBlocks body = .ok (parameters, data)) :
    openAnswer message = header.requireAnswer >>= fun _ => pure (header, parameters, data) := by
  rw [openAnswer, hdecode, Header.requireAnswer]
  simp only [bind_assoc]
  change (liftM header.requireAck >>= fun _ => liftM header.requireNoReport >>= fun _ =>
    liftM header.requireAckData >>= fun _ => liftM (header.splitBlocks body) >>= _ :
      Except Error _) = _
  rw [hsplit]
  rfl

/-- What a header says of itself does not depend on the lengths that it declares. -/
theorem Header.requireAnswer_declaring (header : Header) (parameters data : Bytes) :
    (header.declaring parameters data).told.requireAnswer = header.told.requireAnswer := by
  unfold declaring told
  split <;> exact requireAnswer_congr rfl rfl

/-- A message that was put together is opened to the blocks that were put into it. -/
theorem openAnswer_compose (header : Header) (reserved₁ reserved₀ : UInt8)
    {parameters data : Bytes} (behind : Bytes) (hparameters : parameters.length ≤ 65535)
    (hdata : data.length ≤ 65535) :
    openAnswer (compose header reserved₁ reserved₀ parameters data behind) =
      header.told.requireAnswer >>= fun _ =>
        pure ((header.declaring parameters data).told, parameters, data) := by
  have hlength {n : Nat} (h : n ≤ 65535) : n = (UInt16.ofNat n).toNat := by
    simp
    omega
  have hsplit : (header.declaring parameters data).told.splitBlocks (parameters ++ data ++ behind) =
      .ok (parameters, data) := by
    refine Header.splitBlocks_eq_ok_iff.mpr ⟨behind, rfl, ?_, ?_⟩
    · unfold Header.told
      split <;> exact hlength hparameters
    · unfold Header.told
      split <;> exact hlength hdata
  rw [compose, openAnswer_of_blocks (Header.decode_spell _ reserved₁ reserved₀ _) hsplit,
    Header.requireAnswer_declaring]

section Free

variable {α : Type} {next : Header × Bytes × Bytes → Except Error (Header × α)} (header : Header)
  (reserved₁ reserved₀ : UInt8)

/-- What stands behind the blocks is not looked at. -/
theorem openAnswer_bind_ends {parameters data : Bytes} (behind behind' : Bytes)
    (hparameters : parameters.length ≤ 65535) (hdata : data.length ≤ 65535) :
    openAnswer (compose header reserved₁ reserved₀ parameters data behind) >>= next =
      openAnswer (compose header reserved₁ reserved₀ parameters data behind') >>= next := by
  rw [openAnswer_compose header reserved₁ reserved₀ behind hparameters hdata,
    openAnswer_compose header reserved₁ reserved₀ behind' hparameters hdata]

/-- Neither are the parameters behind the number of items, if nothing else does. -/
theorem openAnswer_bind_ignores
    (hnext : ∀ header header' function count more more' data,
      next (header, function :: count :: more, data) =
        (next (header', function :: count :: more', data)).map fun result => (header, result.2))
    (function count : UInt8) {more more' data : Bytes} (behind : Bytes)
    (hmore : (function :: count :: more).length ≤ 65535)
    (hmore' : (function :: count :: more').length ≤ 65535) (hdata : data.length ≤ 65535) :
    openAnswer (compose header reserved₁ reserved₀ (function :: count :: more) data behind) >>=
        next =
      (openAnswer (compose header reserved₁ reserved₀ (function :: count :: more') data behind) >>=
        next).map fun result =>
          ((header.declaring (function :: count :: more) data).told, result.2) := by
  rw [openAnswer_compose header reserved₁ reserved₀ behind hmore hdata,
    openAnswer_compose header reserved₁ reserved₀ behind hmore' hdata]
  cases header.told.requireAnswer with
  | error e => rfl
  | ok => exact hnext _ _ function count more more' data

end Free

/-- Of the parameters, only function and number matter. -/
theorem Access.decodeCount_cons (access : Access) (function count : UInt8) (more more' : Bytes) :
    access.decodeCount (function :: count :: more) =
      access.decodeCount (function :: count :: more') := rfl

/-- The decoder of answers to requests to read knows their format. -/
theorem recognizes_read : Recognizes decodeReadResponse IsReadAnswer where
  accepts _ _ _ := decodeReadResponse_eq_ok_iff
  reports _ _ := eq_protocol_of_reports Decodes.read
  breaks _ _ := by
    refine eq_framing_of_not_reports Decodes.read fun hheader => ?_
    rw [decodeReadResponse, openAnswer, hheader]
    rfl
  ends header reserved₁ reserved₀ _ _ := openAnswer_bind_ends header reserved₁ reserved₀
  ignores header reserved₁ reserved₀ function count _ _ _ := by
    refine openAnswer_bind_ignores header reserved₁ reserved₀ ?_ function count
    intro header header' function count more more' data
    dsimp only
    rw [Access.decodeCount_cons .read function count more more']
    cases Access.read.decodeCount (function :: count :: more') with
    | error cause => rfl
    | ok number =>
      change liftM (decodeItems 0 number.toNat data) >>= _ =
        Except.map _ (liftM (decodeItems 0 number.toNat data) >>= _)
      cases decodeItems 0 number.toNat data with
      | error cause => rfl
      | ok found =>
        obtain ⟨items, rest⟩ := found
        cases rest <;> rfl

/-- The decoder of answers to requests to write knows theirs. -/
theorem recognizes_write : Recognizes decodeWriteResponse IsWriteAnswer where
  accepts _ _ _ := decodeWriteResponse_eq_ok_iff
  reports _ _ := eq_protocol_of_reports Decodes.write
  breaks _ _ := by
    refine eq_framing_of_not_reports Decodes.write fun hheader => ?_
    rw [decodeWriteResponse, openAnswer, hheader]
    rfl
  ends header reserved₁ reserved₀ _ _ := openAnswer_bind_ends header reserved₁ reserved₀
  ignores header reserved₁ reserved₀ function count _ _ _ := by
    refine openAnswer_bind_ignores header reserved₁ reserved₀ ?_ function count
    intro header header' function count more more' data
    dsimp only
    rw [Access.decodeCount_cons .write function count more more']
    cases Access.write.decodeCount (function :: count :: more') with
    | error cause => rfl
    | ok number =>
      change (if data.length ≠ number.toNat then _ else _) =
        Except.map _ (if data.length ≠ number.toNat then _ else _)
      split <;> rfl

/-- **The decoders know the format of answers.** For each of the two, with its format as
`IsReadAnswer` and `IsWriteAnswer`:

* `decoder message = .ok (header, found) ↔ Format message header found`, for all bytes: what is
  accepted as an answer to a request to read is an acknowledgment with a row of items, and what is
  found are those items; for a request to write it is an acknowledgment with a row of codes.
* What reports an error is refused with the report, whatever else is wrong with it; what reports none
  and is refused breaks the format, and the error says so.
* Bytes behind the blocks change nothing, and parameters behind the number of items change neither
  what is found nor what is wrong. -/
theorem decoders_recognize :
    Recognizes decodeReadResponse IsReadAnswer ∧ Recognizes decodeWriteResponse IsWriteAnswer :=
  ⟨recognizes_read, recognizes_write⟩

/-- The last payload of a block is odd: whether a byte follows it or not, it is found. -/
example : Answered.Row [⟨0xFF, 4, 8, [7], rfl⟩] [0xFF, 4, 0, 8, 7, 1] ∧
    decodeItems 0 1 [0xFF, 4, 0, 8, 7, 1] = decodeItems 0 1 [0xFF, 4, 0, 8, 7] :=
  ⟨.odd rfl .nil, rfl⟩

end Pdu

end S7Comm
