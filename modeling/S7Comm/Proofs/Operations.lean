import S7Comm.Client.Command
import S7Comm.Proofs.Composition

/-!
# What the operations of a client are made of

However they name their places and their values, all operations of a client come down to three ways of
dealing with the other end: reading a list of items, writing one, and a job of control. A property of
calls that these have, and that passes from parts to the whole, every operation has.

* `Channel.ask c request answer`: a reference is taken, the request is made under it and sent, and the
  response is looked at: `allocate`, `request reference`, `exchange`, `accept (answer reference
  response)`. All three ways are of this form.
* `Channel.divides_eq`, `Channel.divided_eq`, `Channel.undivided_eq`: where requests can be sent, a
  list is planned first. If it cannot be divided nothing is done, and if it can, the calls for its
  runs are made one after the other and their results are put together.
* `Client.Law c P`: `P` composes (`Composes`), and it holds of `ensureReady`, `pduBudget`, `readEach`,
  `writeEach` and `control`.
* **Main result** (`Client.Law.perform`): under `Client.Law c P`, `P` holds of `c.perform command` for
  every command. `Client.Law.of_ask` makes a law out of three facts about `ask`.

An operation that is added needs a lemma here, and no other theorem about all operations has to be
touched. Properties for which the order of reading and writing matters, or that hold of some
operations only, are no laws; those go through the commands on their own.

**An error that never occurs.** A single item that was read has an answer. So the error that an answer
has none need not be looked into (`getLast?_of_readAll_singleton`), though the operations have a place
for it.
-/

namespace S7Comm

open Call

/-! ## Causes that are lifted to errors -/

/-- Whether an error was found in the arguments of a call, without the other end. -/
def Error.isLocal : Error → Bool
  | .address _ _ | .invalidArgument _ => true
  | _ => false

/-- A computation without state whose errors are found in the arguments. -/
def Local {α : Type} (result : Except Error α) : Prop :=
  FailsWith (fun e => e.isLocal = true) result

section Lift

variable {α : Type}

/-- What was found in the arguments leaves the session usable. -/
theorem Local.harmless {result : Except Error α} (h : Local result) : Harmless result := by
  refine FailsWith.mono h fun e he => ?_
  cases e <;> first | rfl | cases he

/-- An argument that cannot be expressed. -/
theorem local_argument (result : Except ArgumentError α) :
    Local (result.mapError .invalidArgument) :=
  FailsWith.mapError (fun _ _ => trivial) fun _ _ => rfl

/-- A text that is no address. -/
theorem local_parse (text : String) : Local (Address.parse text) :=
  FailsWith.mapError (fun _ _ => trivial) fun _ _ => rfl

/-- Texts that are no addresses of bits. -/
theorem local_bitItems (addresses : List String) : Local (Client.bitItems addresses) :=
  FailsWith.mapM (fun text => (local_parse text).bind fun _ _ => .ok _) addresses

/-- Texts that are no addresses of bytes. -/
theorem local_byteItems (addresses : List String) (count : UInt16) :
    Local (Client.byteItems addresses count) :=
  FailsWith.mapM (fun text => (local_parse text).bind fun _ _ =>
    (local_argument _).bind fun _ _ => .ok _) addresses

/-- An argument that cannot be expressed leaves the session usable. -/
theorem harmless_argument (result : Except ArgumentError α) :
    Harmless (result.mapError .invalidArgument) :=
  (local_argument result).harmless

/-- So does a payload that is too short. -/
theorem harmless_shortage (result : Except Shortage α) :
    Harmless (result.mapError .insufficientData) :=
  .mapError (fun _ => rfl) result

/-- A text that is no address leaves the session usable. -/
theorem harmless_parse (text : String) : Harmless (Address.parse text) :=
  (local_parse text).harmless

/-- A payload that holds no time of the day leaves the session usable. -/
theorem harmless_decodeTimeOfDay (bytes : Bytes) : Harmless (Payload.decodeTimeOfDay bytes) := by
  unfold Payload.decodeTimeOfDay
  refine (harmless_shortage _).bind fun ms => ?_
  split
  · exact .ok _
  · exact .error rfl

/-- A payload that holds no moment leaves the session usable. -/
theorem harmless_decodeDateTime (bytes : Bytes) : Harmless (Payload.decodeDateTime bytes) := by
  unfold Payload.decodeDateTime
  split
  · dsimp only
    split
    · exact .ok _
    · exact .error rfl
  · exact .error rfl

/-- What breaks the format does so in whatever form the error is given. -/
theorem lift_framing_eq_ok_iff {result : Except FramingError α} {value : α} :
    (liftM result : Except Error α) = .ok value ↔ result = .ok value :=
  mapError_eq_ok_iff

theorem lift_argument_eq_ok_iff {result : Except ArgumentError α} {value : α} :
    (liftM result : Except Error α) = .ok value ↔ result = .ok value :=
  mapError_eq_ok_iff

end Lift

/-! ## Lists of items -/

namespace Batch

variable {S : Type}

/-- An item that is too large, or that failed, leaves the session usable. -/
theorem harmless_plan {α : Type} (demand : α → Demand) (budget : UInt16) (items : List α) :
    Harmless (plan demand budget items) := by
  unfold plan
  dsimp only
  split
  · exact .error rfl
  · exact .ok _

/-- Return codes that are no success leave the session usable. -/
theorem harmless_checkCodes (codes : List ReturnCode) : Harmless (checkCodes codes) := by
  unfold checkCodes
  split
  · exact .ok _
  · exact .error rfl

/-- An answer is accepted exactly if it can be decoded, repeats the reference, and has the items
that were asked for. -/
theorem checkReadResponse_eq_ok_iff {response : Bytes} {reference : UInt16}
    {requested : List RequestItem} {items : List DataItem} :
    checkReadResponse response reference requested = .ok items ↔
      ∃ header, Pdu.decodeReadResponse response = .ok (header, items) ∧
        header.requireReference reference = .ok () ∧ items.length = requested.length ∧
        checkPayloads 0 requested items = .ok () := by
  simp only [checkReadResponse, except_bind_eq_ok_iff, guard_eq_ok_iff, lift_framing_eq_ok_iff]
  constructor
  · rintro ⟨⟨header, found⟩, hdecode, ⟨⟩, hreference, hlength, ⟨⟩, hpayloads, h⟩
    cases h
    exact ⟨header, hdecode, hreference, not_not.mp hlength, hpayloads⟩
  · rintro ⟨header, hdecode, hreference, hlength, hpayloads⟩
    exact ⟨(header, items), hdecode, (), hreference, not_not.mpr hlength, (), hpayloads, rfl⟩

end Batch

/-- A request, and what is made of its answer: the one way in which a channel is used. -/
def Channel.ask {S α : Type} (c : Channel S) (request : UInt16 → Except Error Bytes)
    (answer : UInt16 → Bytes → Except Error α) : Call S α := do
  let reference ← c.allocate
  let request ← request reference
  let response ← c.exchange request
  c.accept (answer reference response)

/-- A request that can be expressed and is answered well ends with what the answer says. -/
theorem Channel.request_ok {S α : Type} {c : Channel S} {request : UInt16 → Except Error Bytes}
    {answer : UInt16 → Bytes → Except Error α} {s s' : S} {message response : Bytes} {value : α}
    (hrequest : request (c.nextReference s).1 = .ok message)
    (hexchange : c.exchange message (c.nextReference s).2 = .ok response s')
    (hanswer : answer (c.nextReference s).1 response = .ok value) :
    c.ask request answer s = .ok value s' := by
  have hallocate : c.allocate s = .ok (c.nextReference s).1 (c.nextReference s).2 := rfl
  rw [ask, bind_of_ok hallocate, hrequest]
  change (ofExcept (.ok message) >>= _) (c.nextReference s).2 = _
  rw [bind_of_ok (ofExcept_ok message _), bind_of_ok hexchange, hanswer]
  rfl

/-- Where requests can be sent, what is done to the runs of a list begins with its division:
`ensureReady` passes, the budget is that of the state, and both leave the state as it is. -/
theorem Channel.divides_eq {S α β : Type} {c : Channel S} {s : S} (hready : c.checkReady s = .ok ())
    (demand : α → Batch.Demand) (call : List α → Call S (List β)) (items : List α) :
    (do
      c.ensureReady
      let runs ← Batch.plan demand (← c.pduBudget) items
      let results ← runs.mapM call
      return results.flatten) s =
        (ofExcept (Batch.plan demand (c.budget s) items) >>= fun runs =>
          runs.mapM call >>= fun results => pure results.flatten) s := by
  have hensure : c.ensureReady s = .ok () s := by
    rw [Channel.ensureReady, hready]
    rfl
  have hbudget : c.pduBudget s = .ok (c.budget s) s := rfl
  rw [bind_of_ok hensure, bind_of_ok hbudget]
  rfl

/-- Where requests can be sent and a list can be divided, what is done is done to its runs, one
after the other. -/
theorem Channel.divided_eq {S α β : Type} {c : Channel S} {demand : α → Batch.Demand}
    {call : List α → Call S (List β)} {items : List α} {parts : List (List α)} {s : S}
    (hready : c.checkReady s = .ok ()) (hplan : Batch.plan demand (c.budget s) items = .ok parts) :
    (do
      c.ensureReady
      let runs ← Batch.plan demand (← c.pduBudget) items
      let results ← runs.mapM call
      return results.flatten) s = (parts.mapM call >>= fun results => pure results.flatten) s := by
  rw [Channel.divides_eq hready, hplan]
  exact bind_of_ok (ofExcept_ok parts s) _

/-- Where a list cannot be divided, nothing is done. -/
theorem Channel.undivided_eq {S α β : Type} {c : Channel S} {demand : α → Batch.Demand}
    {call : List α → Call S (List β)} {items : List α} {e : Error} {s : S}
    (hready : c.checkReady s = .ok ()) (hplan : Batch.plan demand (c.budget s) items = .error e) :
    (do
      c.ensureReady
      let runs ← Batch.plan demand (← c.pduBudget) items
      let results ← runs.mapM call
      return results.flatten) s = .error e s := by
  rw [Channel.divides_eq hready, hplan]
  exact bind_of_error (ofExcept_error e s) _

/-- A list that is divided into runs, each of which ends with results, ends with all of them. -/
theorem Channel.divided_ok {S α β : Type} {c : Channel S} {demand : α → Batch.Demand}
    {call : List α → Call S (List β)} {items : List α} {parts : List (List α)}
    {results : List (List β)} {s s' : S} (hready : c.checkReady s = .ok ())
    (hplan : Batch.plan demand (c.budget s) items = .ok parts)
    (hruns : parts.mapM call s = .ok results s') :
    (do
      c.ensureReady
      let runs ← Batch.plan demand (← c.pduBudget) items
      let results ← runs.mapM call
      return results.flatten) s = .ok results.flatten s' := by
  rw [Channel.divided_eq hready hplan, bind_of_ok hruns]
  rfl

/-- A request errs as its parts do. -/
theorem Channel.errs_ask {S α : Type} {c : Channel S} {P : Error → Prop}
    {request : UInt16 → Except Error Bytes} {answer : UInt16 → Bytes → Except Error α}
    (hexchange : ∀ message, Errs P (c.exchange message))
    (hrequest : ∀ reference, FailsWith P (request reference))
    (hanswer : ∀ reference response, FailsWith P (answer reference response)) :
    Errs P (c.ask request answer) := by
  have hallocate : Errs P c.allocate := by
    rintro s e s' ⟨⟩
  refine hallocate.bind fun reference _ => ?_
  refine .ofExcept_bind (hrequest reference) fun message _ => ?_
  refine (hexchange message).bind fun response _ => ?_
  intro s e s' hrun
  unfold accept at hrun
  cases hresult : answer reference response with
  | ok value =>
    rw [hresult] at hrun
    cases hrun
  | error e' =>
    rw [hresult] at hrun
    dsimp only at hrun
    have herror := hanswer reference response e' hresult
    split at hrun <;> cases hrun <;> exact herror

/-- What is accepted of an answer was found in it. -/
theorem Channel.result_of_yields_accept {S α : Type} {c : Channel S} {result : Except Error α}
    {value : α} (h : Yields (c.accept result) value) : result = .ok value := by
  obtain ⟨s, s', h⟩ := h
  unfold Channel.accept at h
  cases result with
  | ok other =>
    cases h
    rfl
  | error e =>
    dsimp only at h
    split at h <;> cases h

namespace Batch

variable {S : Type} {c : Channel S}

/-- A message that was read has brought an answer for each item. -/
theorem length_of_readRun {items : List RequestItem} {results : List DataItem}
    (h : Yields (readRun c items) results) : results.length = items.length := by
  obtain ⟨reference, -, h⟩ := h.of_bind
  obtain ⟨request, -, h⟩ := h.of_bind
  obtain ⟨response, -, h⟩ := h.of_bind
  obtain ⟨-, -, -, hlength, -⟩ :=
    checkReadResponse_eq_ok_iff.mp (Channel.result_of_yields_accept h)
  exact hlength

/-- The runs of a plan, put together, are the list that was planned. -/
theorem flatten_of_plan {α : Type} {demand : α → Demand} {budget : UInt16} {items : List α}
    {runs : List (List α)} (h : plan demand budget items = .ok runs) : runs.flatten = items := by
  unfold plan at h
  dsimp only at h
  split at h
  · cases h
  · cases h
    exact flatten_runs demand budget.toNat items

/-- Lists of results that are as long as lists of items, one by one, are so put together. -/
theorem length_flatten_of_forall₂ {α β : Type} {runs : List (List α)} {results : List (List β)}
    (h : List.Forall₂ (fun run result => result.length = run.length) runs results) :
    results.flatten.length = runs.flatten.length := by
  induction h with
  | nil => rfl
  | cons hhead _ ih => rw [List.flatten_cons, List.flatten_cons, List.length_append,
      List.length_append, hhead, ih]

/-- A list that was read has brought an answer for each item. -/
theorem length_of_readEach {items : List RequestItem} {results : List DataItem}
    (h : Yields (readEach c items) results) : results.length = items.length := by
  unfold readEach at h
  split at h
  · next hnil => rw [h.of_pure, hnil]; rfl
  · obtain ⟨_, -, h⟩ := h.of_bind
    obtain ⟨budget, -, h⟩ := h.of_bind
    obtain ⟨runs, hplan, h⟩ := h.of_bind
    obtain ⟨answers, hanswers, h⟩ := h.of_bind
    rw [h.of_pure, length_flatten_of_forall₂ (hanswers.of_mapM.imp fun _ _ => length_of_readRun)]
    have hplan : planReads budget items = .ok runs := hplan.of_ofExcept
    exact congrArg List.length (flatten_of_plan hplan)

/-- A list all of which must succeed has brought an answer for each item, too. -/
theorem length_of_readAll {items : List RequestItem} {results : List DataItem}
    (h : Yields (readAll c items) results) : results.length = items.length := by
  obtain ⟨answers, hanswers, h⟩ := h.of_bind
  obtain ⟨_, -, h⟩ := h.of_bind
  rw [h.of_pure]
  exact length_of_readEach hanswers

/-- A list that is not empty is divided, and written run by run. -/
theorem writeEach_pairs {S : Type} (c : Channel S) {pairs : List (RequestItem × DataItem)}
    (hne : pairs ≠ []) :
    writeEach c (pairs.map Prod.fst) (pairs.map Prod.snd) = (do
      c.ensureReady
      let runs ← plan writeDemand (← c.pduBudget) pairs
      let results ← runs.mapM (writeRun c)
      return results.flatten) := by
  have hpaired : (pairs.map Prod.fst).length = (pairs.map Prod.snd).length := by
    rw [List.length_map, List.length_map]
  have hzip : (pairs.map Prod.fst).zip (pairs.map Prod.snd) = pairs :=
    (List.zip_of_prod rfl rfl).symm
  unfold writeEach
  rw [if_neg (not_not_intro hpaired), hzip]
  dsimp only
  rw [if_neg (List.map_eq_nil_iff.not.mpr hne)]
  rfl

/-- A single item that was read has an answer. -/
theorem getLast?_of_readAll_singleton {item : RequestItem} {results : List DataItem}
    (h : Yields (readAll c [item]) results) : ∃ result, results.getLast? = some result := by
  have hlength := length_of_readAll h
  match results, hlength with
  | [result], _ => exact ⟨result, rfl⟩

end Batch

/-! ## Families -/

/-- A family has strings with a header. -/
theorem Family.stringHeaderLength_pos (family : Family) :
    1 ≤ family.profile.stringHeaderLength.toNat := by
  cases family <;> decide

/-! ## Laws

Each lemma of this part is about one operation, in the order of their definitions, and follows its
parts: arguments that are understood or not, then one of the three dealings, then the decoding of what
came back. None of them looks into a channel.
-/

/-- A property of calls that passes from parts to the whole, and that all dealings of a client with
the other end have. The type is a parameter of `P`, as the parts of an operation have values of many
types. -/
structure Client.Law {S : Type} (c : Client S) (P : (α : Type) → Call S α → Prop) : Prop extends
    Composes P where
  /-- Asking whether a request can be sent. -/
  ensureReady : P Unit c.channel.ensureReady
  /-- Asking for the length of messages. -/
  pduBudget : P UInt16 c.channel.pduBudget
  /-- Reading a list of items. -/
  readEach : ∀ items, P (List DataItem) (Batch.readEach c.channel items)
  /-- Writing a list of items. -/
  writeEach : ∀ items data, P (List ReturnCode) (Batch.writeEach c.channel items data)
  /-- A job of control. -/
  control : ∀ job, P Unit (c.control job)

/-- A job of control is a request, if requests can be sent. -/
theorem Client.control_of_ask {S : Type} {c : Client S} {P : (α : Type) → Call S α → Prop}
    (h : Composes P) (ensureReady : P Unit c.channel.ensureReady) {job : Pdu.Control}
    (control : P Pdu.Header (c.channel.ask
      (fun reference => (job.encode reference).mapError .invalidArgument)
      fun reference response => Pdu.Control.validateAck response reference)) :
    P Unit (c.control job) := by
  have hdone := h.bind control fun _ _ => h.pure ()
  simp only [Channel.ask, bind_assoc] at hdone
  exact h.bind ensureReady fun _ _ => hdone

/-- A property that passes from parts to the whole, and that every request has, is a law. -/
theorem Client.Law.of_ask {S : Type} {c : Client S} {P : (α : Type) → Call S α → Prop}
    (h : Composes P) (ensureReady : P Unit c.channel.ensureReady)
    (pduBudget : P UInt16 c.channel.pduBudget)
    (readRun : ∀ run, P (List DataItem) (Batch.readRun c.channel run))
    (writeRun : ∀ run, P (List ReturnCode) (Batch.writeRun c.channel run))
    (control : ∀ job : Pdu.Control, P Pdu.Header (c.channel.ask
      (fun reference => (job.encode reference).mapError .invalidArgument)
      fun reference response => Pdu.Control.validateAck response reference)) : Client.Law c P where
  toComposes := h
  ensureReady := ensureReady
  pduBudget := pduBudget
  -- a list is read by checks and looks, and by one request for each run
  readEach items := by
    unfold Batch.readEach
    split
    · exact h.pure []
    · refine h.bind ensureReady fun _ _ => ?_
      refine h.bind pduBudget fun budget _ => ?_
      refine h.ofExcept_bind (Batch.harmless_plan _ _ _) fun runs _ => ?_
      exact h.bind (h.mapM fun run _ => readRun run) fun results _ => h.pure _
  writeEach items data := by
    unfold Batch.writeEach
    refine h.guard (by rfl) ?_
    dsimp only
    split
    · exact h.pure []
    · refine h.bind ensureReady fun _ _ => ?_
      refine h.bind pduBudget fun budget _ => ?_
      refine h.ofExcept_bind (Batch.harmless_plan _ _ _) fun runs _ => ?_
      exact h.bind (h.mapM fun run _ => writeRun run) fun results _ => h.pure _
  control job := Client.control_of_ask h ensureReady (control job)

namespace Client.Law

variable {S : Type} {c : Client S} {P : (α : Type) → Call S α → Prop} (law : Client.Law c P)

include law

/-- A row of payloads can be decoded if each can. -/
theorem decodeAll {α : Type} {results : List DataItem} (decode : Bytes → Except Shortage α) :
    P (List α) (results.mapM fun item : DataItem =>
      (Call.ofExcept ((decode item.payload).mapError .insufficientData) : Call S α)) :=
  law.mapM fun _ _ => law.ofExcept (harmless_shortage _)

/-! ### Reading -/

/-- Reading a list all of which must succeed. -/
theorem readAll (items : List RequestItem) :
    P (List DataItem) (Batch.readAll c.channel items) := by
  refine law.bind (law.readEach items) fun results _ => ?_
  refine law.ofExcept_bind (Batch.harmless_checkCodes _) fun _ _ => ?_
  exact law.pure results

/-- The payload of a single item. That there is none does not occur. -/
theorem payload_of_single (item : RequestItem) :
    P Bytes (do
      let items ← Batch.readAll c.channel [item]
      match items.getLast? with
      | some item => return item.payload
      | none => throw (.framing .noDataItem)) := by
  refine law.bind (law.readAll [item]) fun results hresults => ?_
  obtain ⟨result, hlast⟩ := Batch.getLast?_of_readAll_singleton hresults
  rw [hlast]
  exact law.pure result.payload

/-- Reading a single item. -/
theorem readItem (item : StandardItem) : P Bytes (c.readItem item) :=
  law.payload_of_single (.standard item)

/-- Reading bytes. -/
theorem readBytesAt (address : Address) (count : Nat) : P Bytes (c.readBytesAt address count) := by
  unfold Client.readBytesAt
  refine law.guard (by rfl) ?_
  dsimp only
  split
  · refine law.guard (by rfl) ?_
    exact law.ofExcept_bind (harmless_argument _) fun item _ => law.readItem item
  · refine law.bind law.ensureReady fun _ _ => ?_
    refine law.bind law.pduBudget fun budget _ => ?_
    refine law.ofExcept_bind (harmless_argument _) fun items _ => ?_
    exact law.bind (law.readAll items) fun results _ => law.pure _

/-- Reading bytes from an address on. -/
theorem readBytes (address : String) (count : Nat) : P Bytes (c.readBytes address count) :=
  law.ofExcept_bind (harmless_parse address) fun address _ => law.readBytesAt address count

/-- Reading elements at a place given by its parts. -/
theorem readRaw (type : ElementType) (count : UInt16) (area : Area) (block : UInt16)
    (byte : UInt32) (bit : UInt8) : P Bytes (c.readRaw type count area block byte bit) := by
  refine law.ofExcept_bind (harmless_argument _) fun address _ => ?_
  exact law.ofExcept_bind (harmless_argument _) fun item _ => law.readItem item

/-- Reading a number in a given order of its bytes. -/
theorem readAs (α : Type) [Numeric α] (order : ByteOrder) (address : String) :
    P α (c.readAs α order address) := by
  have hitem (address : Address) (count : UInt16) :
      Harmless ((StandardItem.bytes address count).mapError Error.invalidArgument) :=
    harmless_argument _
  refine law.ofExcept_bind ((harmless_parse address).bind fun address => hitem address _) ?_
  intro item _
  refine law.bind (law.readItem item) fun bytes _ => ?_
  exact law.ofExcept (harmless_shortage _)

/-- Reading a bit. -/
theorem readBit (address : String) : P Bool (c.readBit address) := by
  refine law.ofExcept_bind (harmless_parse address) fun address _ => ?_
  refine law.bind (law.readItem (.single address)) fun bytes _ => ?_
  exact law.ofExcept (harmless_shortage _)

/-- Reading numbers. -/
theorem readNumbers (α : Type) [Numeric α] (addresses : List String) :
    P (List α) (c.readNumbers α addresses) := by
  refine law.ofExcept_bind (local_byteItems addresses _).harmless fun items _ => ?_
  refine law.bind (law.readAll items) fun results _ => ?_
  exact law.decodeAll (Numeric.decode α c.profile.byteOrder)

/-- Reading bits all of which must succeed. -/
theorem readBits (addresses : List String) : P (List Bool) (c.readBits addresses) := by
  refine law.ofExcept_bind (local_bitItems addresses).harmless fun items _ => ?_
  refine law.bind (law.readAll items) fun results _ => ?_
  exact law.decodeAll isSet

/-- Reading bits as far as they can be read. -/
theorem readEachBit (addresses : List String) :
    P (List (Option Bool)) (c.readEachBit addresses) := by
  refine law.ofExcept_bind (local_bitItems addresses).harmless fun items _ => ?_
  refine law.bind (law.readEach items) fun results _ => ?_
  refine law.mapM fun item _ => ?_
  split
  · exact law.ofExcept_bind (harmless_shortage _) fun bit _ => law.pure (some bit)
  · exact law.pure none

/-- Reading a list of places as far as they can be read. -/
theorem readEachOf (list : ReadList) : P (List (Option Bytes)) (c.readEachOf list) :=
  law.bind (law.readEach _) fun _ _ => law.pure _

/-- Reading a string. -/
theorem readString (address : String) : P String (c.readString address) := by
  refine law.ofExcept_bind (harmless_parse address) fun address _ => ?_
  refine law.bind (law.readBytesAt address _) fun head _ => ?_
  refine law.ofExcept_bind (harmless_shortage _) fun length _ => ?_
  split
  · exact law.pure ""
  · refine law.bind (law.readBytesAt address _) fun bytes _ => ?_
    exact law.ofExcept (harmless_shortage _)

/-- Reading a string up to a length. -/
theorem readStringUpTo (address : String) (length : Nat) :
    P String (c.readStringUpTo address length) := by
  unfold Client.readStringUpTo
  refine law.guard (by rfl) ?_
  refine law.ofExcept_bind (harmless_parse address) fun address _ => ?_
  refine law.bind (law.readBytesAt address _) fun bytes _ => ?_
  refine law.ofExcept_bind (harmless_shortage _) fun actual _ => ?_
  exact law.ofExcept (harmless_shortage _)

/-- Reading bytes that hold a value of some form. -/
theorem readForm {α : Type} {decode : Bytes → Except Error α}
    (harmless : ∀ bytes, Harmless (decode bytes)) (address : String) (length : Nat) :
    P α (c.readBytes address length >>= fun bytes => Call.ofExcept (decode bytes)) :=
  law.bind (law.readBytes address length) fun bytes _ => law.ofExcept (harmless bytes)

/-! ### Writing -/

/-- Writing a list all of which must succeed. -/
theorem writeAll (items : List RequestItem) (data : List DataItem) :
    P (List ReturnCode) (Batch.writeAll c.channel items data) := by
  refine law.bind (law.writeEach items data) fun codes _ => ?_
  refine law.ofExcept_bind (Batch.harmless_checkCodes _) fun _ _ => ?_
  exact law.pure codes

/-- Writing a list of places all of which must succeed. -/
theorem writeMany (list : WriteList) : P Unit (c.writeMany list) :=
  law.bind (law.writeAll _ _) fun _ _ => law.pure ()

/-- Writing a single item. -/
theorem writeItem (item : StandardItem) (data : DataItem) : P Unit (c.writeItem item data) :=
  law.bind (law.writeAll _ _) fun _ _ => law.pure ()

/-- Writing bytes. -/
theorem writeBytesAt (address : Address) (bytes : Bytes) :
    P Unit (c.writeBytesAt address bytes) := by
  unfold Client.writeBytesAt
  split
  · exact law.ofExcept_bind (harmless_argument _) fun pair _ => law.writeItem pair.1 pair.2
  split
  · exact law.refuse rfl
  · refine law.bind law.ensureReady fun _ _ => ?_
    refine law.bind law.pduBudget fun budget _ => ?_
    refine law.ofExcept_bind (harmless_argument _) fun pairs _ => ?_
    exact law.bind (law.writeAll _ _) fun _ _ => law.pure ()

/-- Writing bytes from an address on. -/
theorem writeBytes (address : String) (bytes : Bytes) : P Unit (c.writeBytes address bytes) :=
  law.ofExcept_bind (harmless_parse address) fun address _ => law.writeBytesAt address bytes

/-- Writing bytes that stand for a value, if the value has some. -/
theorem writeForm (bytes : Except ArgumentError Bytes) (address : String) :
    P Unit (Call.ofExcept (bytes.mapError .invalidArgument) >>= c.writeBytes address) :=
  law.ofExcept_bind (harmless_argument _) fun bytes _ => law.writeBytes address bytes

/-- Writing elements to a place given by its parts. -/
theorem writeRaw (type : ElementType) (count : UInt16) (area : Area) (block : UInt16)
    (byte : UInt32) (bit : UInt8) (size : TransportSize) (bytes : Bytes) :
    P Unit (c.writeRaw type count area block byte bit size bytes) := by
  unfold Client.writeRaw
  refine law.guard (by rfl) ?_
  refine law.ofExcept_bind (harmless_argument _) fun address _ => ?_
  exact law.ofExcept_bind (harmless_argument _) fun item _ => law.writeItem item _

/-- Writing a bit. -/
theorem writeBit (address : String) (value : Bool) : P Unit (c.writeBit address value) :=
  law.ofExcept_bind (harmless_parse address) fun _ _ => law.writeItem _ _

/-- Writing a string. -/
theorem writeString (address text : String) : P Unit (c.writeString address text) := by
  refine law.ofExcept_bind (harmless_parse address) fun address _ => ?_
  refine law.ofExcept_bind (harmless_argument _) fun payload _ => ?_
  refine law.guard (by rfl) ?_
  exact law.ofExcept_bind (harmless_argument _) fun start _ => law.writeBytesAt start _

/-! ### Data of a numerical control -/

/-- Reading places of a numerical control. -/
theorem readNck (items : List NckItem) : P (List DataItem) (c.readNck items) :=
  law.readAll (items.map .nck)

/-- Reading a number of a numerical control. -/
theorem readNckAs (α : Type) [Numeric α] (item : NckItem) : P α (c.readNckAs α item) := by
  refine law.bind (law.payload_of_single (.nck item)) fun bytes _ => ?_
  exact law.ofExcept (harmless_shortage _)

/-- Reading a text of a numerical control. -/
theorem readNckText (text : NckText) : P String (c.readNckText text) :=
  law.bind (law.payload_of_single (.nck text.item)) fun _ _ => law.pure _

/-- Reading a position of a numerical control. -/
theorem readNckPosition (position : NckPosition) :
    P (List Real64) (c.readNckPosition position) :=
  law.bind (law.readNck position.items) fun _ _ => law.decodeAll (Numeric.decode Real64 .little)

/-! ### All operations -/

/-- What is returned can be put into an answer. -/
theorem answer {α : Type} {call : Call S α} (h : P α call) (answer : α → Answer) :
    P Answer (call >>= fun value => pure (answer value)) :=
  law.bind h fun value _ => law.pure (answer value)

/-- **Every operation of a client has a property that is a law.** There is one case for each command,
and it names the lemma for its operation; what the value is made into (`Answer`) does not matter. -/
theorem perform (command : Command) : P Answer (c.perform command) := by
  -- a case for each command, in which the lemma for its operation is named
  cases command with
  | readRaw type count area block byte bit =>
    exact law.answer (law.readRaw type count area block byte bit) .bytes
  | readBytes address count => exact law.answer (law.readBytes address count) .bytes
  | readByte address => exact law.answer (law.readAs UInt8 .big address) .byte
  | readBit address => exact law.answer (law.readBit address) .bit
  | readBits addresses => exact law.answer (law.readBits addresses) .bits
  | readEachBit addresses => exact law.answer (law.readEachBit addresses) .maybeBits
  | readNumber type address => exact law.answer (law.readAs type.Value _ address) (.number type)
  | readNumbers type addresses =>
    exact law.answer (law.readNumbers type.Value addresses) (.numbers type)
  | readMany list => exact law.answer (law.readAll _) .items
  | readEachOf list => exact law.answer (law.readEachOf list) .payloads
  | readString address => exact law.answer (law.readString address) .text
  | readStringUpTo address length => exact law.answer (law.readStringUpTo address length) .text
  | readDate address =>
    exact law.answer (law.readForm (fun _ => harmless_shortage _) address 2) .date
  | readTimeOfDay address =>
    exact law.answer (law.readForm harmless_decodeTimeOfDay address 4) .timeOfDay
  | readTime address =>
    exact law.answer (law.readForm (fun _ => harmless_shortage _) address 4) .duration
  | readDateTime address =>
    exact law.answer (law.readForm harmless_decodeDateTime address _) .dateTime
  | writeRaw type count area block byte bit size bytes =>
    exact law.answer (law.writeRaw type count area block byte bit size bytes) fun _ => .nothing
  | writeBytes address bytes =>
    exact law.answer (law.writeBytes address bytes) fun _ => .nothing
  | writeByte address value =>
    exact law.answer (law.writeBytes address [value]) fun _ => .nothing
  | writeBit address value => exact law.answer (law.writeBit address value) fun _ => .nothing
  | writeNumber type address value =>
    exact law.answer (law.writeBytes address _) fun _ => .nothing
  | writeString address text => exact law.answer (law.writeString address text) fun _ => .nothing
  | writeDate address date => exact law.answer (law.writeForm _ address) fun _ => .nothing
  | writeTimeOfDay address time =>
    exact law.answer (law.writeBytes address _) fun _ => .nothing
  | writeTime address duration => exact law.answer (law.writeForm _ address) fun _ => .nothing
  | writeDateTime address moment => exact law.answer (law.writeForm _ address) fun _ => .nothing
  | writeMany list => exact law.answer (law.writeMany list) fun _ => .nothing
  | writeEachOf list => exact law.answer (law.writeEach _ _) .codes
  | control job => exact law.answer (law.control job) fun _ => .nothing
  | readNck items => exact law.answer (law.readNck items) .items
  | readNckText text => exact law.answer (law.readNckText text) .text
  | readNckReal real => exact law.answer (law.readNckAs Real64 real.item) (.number .real64)
  | readNckPosition position =>
    exact law.answer (law.readNckPosition position) (.numbers .real64)
  | readNckWord word => exact law.answer (law.readNckAs UInt16 word.item) (.number .uint16)
  | readFirstAlarm => exact law.answer (law.readNckAs UInt32 .firstAlarm) (.number .uint32)

end Client.Law

end S7Comm
