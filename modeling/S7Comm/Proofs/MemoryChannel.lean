import S7Comm.Proofs.Memory
import S7Comm.Proofs.Ranges
import S7Comm.Proofs.Reading
import S7Comm.Proofs.Writing

/-!
# Reading and writing a memory

A controller with a memory answers requests about bytes of places that exist: with the bytes, if they
are to be read, and after storing the data, if they are to be written.

**What is assumed** is `Channel.Recalls c budget memory good`: while the state of the channel is a
good one, requests can be sent, and there is such a controller behind it, whose memory can be told
from the state. Request and answer keep to the agreed length, and the request fits a packet. Whatever
else the controller is sent, nothing is said of its answer; and under which transport size it sends
the bytes is its own affair.

**Run by run.** `Batch.divided_of_steps`: what holds at the start, and still holds behind a run if it
held in front of it, holds of the whole list. With it `Batch.readAll_recalls` and
`Batch.writeAll_recalls` follow from what is done with one message.

**Main results.**

* `Client.readBytesAt_recalls`: a range of bytes is read as the bytes that the memory has there, and
  the memory is the same afterwards. The agreed length has to be at least 24.
* `Client.writeBytesAt_recalls`: a range that is written is in the memory afterwards, `(memory
  s).write …`, which is the same elsewhere. The agreed length has to be at least 29, and the bytes
  such that their number can be told in bits.

How the range is divided, and which of its pieces share a message, cannot be seen in the result.
-/

namespace S7Comm

open Call

/-! ## Against a channel -/

section Channel

variable {S : Type}

/-- A channel behind which a controller has a memory, while the state of the channel is a good one. It
has to answer requests for places that exist, if request and answer keep to the agreed length. -/
structure Channel.Recalls (c : Channel S) (budget : UInt16) (memory : S → Memory)
    (good : S → Prop) : Prop where
  /-- Requests can be sent. -/
  ready : ∀ s, good s → c.checkReady s = .ok ()
  /-- The agreed length. -/
  agreed : ∀ s, good s → c.budget s = budget
  /-- To take a reference is no harm, and no matter of the controller. -/
  allocate : ∀ s, good s → good (c.nextReference s).2 ∧ memory (c.nextReference s).2 = memory s
  /-- A request to read is answered with what the memory has, and changes nothing. -/
  read : ∀ s, good s → ∀ reference items request,
    Pdu.encodeReadRequest reference items = .ok request → (∀ item ∈ items, item.InMemory) →
    (Batch.planned Batch.readDemand items).fits budget.toNat →
    ∃ answers s', c.exchange request s = .ok (Pdu.readAnswer reference answers) s' ∧
      List.Forall₂ (memory s).Recalled items answers ∧ good s' ∧ memory s' = memory s
  /-- A request to write is answered with success, and the data are stored. -/
  write : ∀ s, good s → ∀ reference (pairs : List (RequestItem × DataItem)) request,
    Pdu.encodeWriteRequest reference (pairs.map Prod.fst) (pairs.map Prod.snd) = .ok request →
    request.length ≤ 65528 → (∀ pair ∈ pairs, Batch.Storable pair) →
    (Batch.planned Batch.writeDemand pairs).fits budget.toNat →
    ∃ s', c.exchange request s =
        .ok (Pdu.writeAnswer reference (pairs.map fun _ => ReturnCode.success.code)) s' ∧
      good s' ∧ memory s' = (memory s).stores pairs

namespace Batch

variable {c : Channel S} {budget : UInt16} {memory : S → Memory} {good : S → Prop}

/-- Where every item succeeded, the look at the return codes finds no failure, so that what was read
or written strictly and otherwise is the same here. -/
theorem checkCodes_eq_ok {codes : List ReturnCode} (h : ∀ code ∈ codes, code = .success) :
    checkCodes codes = .ok () := by
  have hnone : failures codes = [] := by
    refine List.filter_eq_nil_iff.mpr fun pair hpair => ?_
    have hsuccess := h pair.1 (List.fst_mem_of_mem_zipIdx hpair)
    change ¬ (!pair.1.isSuccess) = true
    rw [hsuccess]
    decide
  rw [checkCodes, hnone]

/-! ### Run by run -/

/-- A list each of whose items fits messages of its own is divided and done run by run. What holds at
the start, and still holds behind a run if it held in front of it, holds of the whole list. -/
theorem divided_of_steps {α β : Type} {demand : α → Demand} {call : List α → Call S (List β)}
    {items : List α} (I : List α → List β → S → Prop) {s : S} (hready : c.checkReady s = .ok ())
    (halone : ∀ item ∈ items, (alone demand item).fits (c.budget s).toNat)
    (hstep : ∀ done run results s', run.Sublist items → run ≠ [] →
      run.length ≤ Pdu.Access.maxItems → (planned demand run).fits (c.budget s).toNat →
      I done results s' →
      ∃ result s'', call run s' = .ok result s'' ∧ I (done ++ run) (results ++ result) s'')
    (h : I [] [] s) :
    ∃ results s', I items results s' ∧
      (do
        c.ensureReady
        let runs ← plan demand (← c.pduBudget) items
        let results ← runs.mapM call
        return results.flatten) s = .ok results s' := by
  have hflatten := flatten_runs demand (c.budget s).toNat items
  -- a run of the division is what is asked of a step, with the runs in front of it put together
  have hruns : ∀ done run rest results s',
      done ++ run :: rest = runs demand (c.budget s).toNat items →
      I done.flatten results.flatten s' →
      ∃ result s'', call run s' = .ok result s'' ∧
        I (done ++ [run]).flatten (results ++ [result]).flatten s'' := by
    intro done run rest results s' hposition hdone
    have hrun : run ∈ runs demand (c.budget s).toNat items := by
      rw [← hposition]
      exact List.mem_append_right done List.mem_cons_self
    have hsublist : run.Sublist items := by
      rw [← hflatten]
      exact List.sublist_flatten_of_mem hrun
    obtain ⟨hne, hcount, hfits⟩ := runs_fit halone run hrun
    rw [List.flatten_append, List.flatten_singleton]
    obtain ⟨result, s'', hcall, hbehind⟩ :=
      hstep done.flatten run results.flatten s' hsublist hne hcount hfits hdone
    refine ⟨result, s'', hcall, ?_⟩
    rw [List.flatten_append, List.flatten_singleton]
    exact hbehind
  obtain ⟨results, s', hcalls, hall⟩ :=
    mapM_ok_of_steps (fun done results s' => I done.flatten results.flatten s') hruns h
  rw [hflatten] at hall
  exact ⟨results.flatten, s', hall,
    Channel.divided_ok hready (plan_eq_ok_iff.mpr ⟨halone, rfl⟩) hcalls⟩

/-! ### Reading -/

/-- Something was read of an item, and it is what the memory has. -/
structure Brought (m : Memory) (item : RequestItem) (result : DataItem) : Prop where
  /-- It was read. -/
  success : result.returnCode = .success
  /-- It is what the memory has. -/
  payload : result.payload = m.contents item

/-- What was brought of some items is what the memory has of them, in their order. -/
theorem flatMap_payload_of_brought {m : Memory} {items : List RequestItem} {results : List DataItem}
    (h : List.Forall₂ (Brought m) items results) :
    results.flatMap DataItem.payload = items.flatMap m.contents := by
  induction h with
  | nil => rfl
  | cons hfirst _ ih => rw [List.flatMap_cons, List.flatMap_cons, hfirst.payload, ih]

/-- What the memory answers to a run that fits are answers that suit it, and the whole answer keeps to
the agreed length: 14 bytes and the row of the payloads, which is what `readDemand` has counted. -/
theorem answers_of_recalled {m : Memory} {run : List RequestItem}
    {answers : List Answered} (hfits : (planned readDemand run).fits budget.toNat)
    (hitems : ∀ item ∈ run, item.InMemory) (hanswers : List.Forall₂ m.Recalled run answers)
    (reference : UInt16) :
    List.Forall₂ Suits run answers ∧
      (Pdu.readAnswer reference answers).length ≤ budget.toNat := by
  have hall : List.Forall₂ Suits run answers := by
    refine List.forall₂_iff_get.mpr ⟨hanswers.length_eq, fun i hi hi' => ?_⟩
    exact (hanswers.get hi hi').suits (hitems _ (List.get_mem _ _))
  have hanswer := length_readAnswer_le (fits_iff.mp hfits).2 reference hall
  obtain ⟨places, rfl⟩ := exists_standard_of_inMemory hitems
  rw [nckLength_standard, trailingFill_standard] at hanswer
  exact ⟨hall, hanswer⟩

/-- A run of 1 to 255 items that fits is read with one message: each of the items is brought what the
memory has of it, and the memory is the same afterwards. -/
theorem readRun_recalls (h : c.Recalls budget memory good) {run : List RequestItem} (hne : run ≠ [])
    (hcount : run.length ≤ Pdu.Access.maxItems) (hitems : ∀ item ∈ run, item.InMemory)
    (hfits : (planned readDemand run).fits budget.toNat) {s : S} (hs : good s) :
    ∃ results s', readRun c run s = .ok results s' ∧ List.Forall₂ (Brought (memory s)) run results ∧
      good s' ∧ memory s' = memory s := by
  have hbudget := budget.toNat_lt
  obtain ⟨hgood, hsame⟩ := h.allocate s hs
  obtain ⟨request, hencode, -⟩ := encodeReadRequest_eq_ok (c.nextReference s).1 hne hcount
  obtain ⟨answers, s', hexchange, hanswers, hs', hmemory⟩ :=
    h.read _ hgood _ run request hencode hitems hfits
  rw [hsame] at hanswers hmemory
  obtain ⟨hall, hlength⟩ :=
    answers_of_recalled hfits hitems hanswers (c.nextReference s).1
  have hblock : (Answered.encodeBlock answers).length ≤ 65535 := by
    rw [Pdu.readAnswer, Pdu.length_answer] at hlength
    omega
  refine ⟨answers.map Answered.item, s', Channel.request_ok hencode hexchange
    (checkReadResponse_readAnswer hall hcount hblock), ?_, hs', hmemory⟩
  rw [List.forall₂_map_right_iff]
  exact hanswers.imp fun item a ha => ⟨ha.returnCode, ha.payload⟩

/-- A list of items, each of which fits messages of its own, is read, in however many messages:
`List.Forall₂ (Brought (memory s)) items results`, item by item in their order. As the memory does not
change in between, it does not matter in which message an item is read. -/
theorem readEach_recalls (h : c.Recalls budget memory good) {items : List RequestItem}
    (hne : items ≠ []) (hitems : ∀ item ∈ items, item.InMemory)
    (halone : ∀ item ∈ items, (alone readDemand item).fits budget.toNat) {s : S} (hs : good s) :
    ∃ results s', readEach c items s = .ok results s' ∧
      List.Forall₂ (Brought (memory s)) items results ∧ good s' ∧ memory s' = memory s := by
  rw [← h.agreed s hs] at halone
  -- what has been brought so far is what the memory has of the items so far
  obtain ⟨results, s', ⟨hresults, hs', hmemory⟩, hread⟩ := divided_of_steps
    (fun done results s' => List.Forall₂ (Brought (memory s)) done results ∧ good s' ∧
      memory s' = memory s)
    (h.ready s hs) halone (fun done run results s' hsublist hrun hcount hfits hdone => by
      obtain ⟨hdone, hs', hmemory⟩ := hdone
      rw [h.agreed s hs] at hfits
      have hplaces : ∀ item ∈ run, item.InMemory := fun item hitem =>
        hitems item (hsublist.subset hitem)
      obtain ⟨result, s'', hread, hresult, hs'', hsame⟩ :=
        readRun_recalls h hrun hcount hplaces hfits hs'
      rw [hmemory] at hresult hsame
      exact ⟨result, s'', hread, List.rel_append hdone hresult, hs'', hsame⟩)
    ⟨.nil, hs, rfl⟩
  refine ⟨results, s', ?_, hresults, hs', hmemory⟩
  rw [readEach, if_neg hne]
  exact hread

/-- All of them succeed, so that the same holds where all have to; and the payloads in a row are the
contents of the places in a row. -/
theorem readAll_recalls (h : c.Recalls budget memory good) {items : List RequestItem}
    (hne : items ≠ []) (hitems : ∀ item ∈ items, item.InMemory)
    (halone : ∀ item ∈ items, (alone readDemand item).fits budget.toNat) {s : S} (hs : good s) :
    ∃ results s', readAll c items s = .ok results s' ∧
      results.flatMap DataItem.payload = items.flatMap (memory s).contents ∧ good s' ∧
      memory s' = memory s := by
  obtain ⟨results, s', heach, hresults, hs', hmemory⟩ := readEach_recalls h hne hitems halone hs
  have hcodes : checkCodes (results.map DataItem.returnCode) = .ok () := by
    refine checkCodes_eq_ok (List.forall_mem_map.mpr fun result hresult => ?_)
    obtain ⟨i, hi, rfl⟩ := List.getElem_of_mem hresult
    exact (hresults.get (hresults.length_eq ▸ hi) hi).success
  refine ⟨results, s', ?_, flatMap_payload_of_brought hresults, hs', hmemory⟩
  rw [readAll, bind_of_ok heach, hcodes]
  rfl

/-! ### Writing -/

/-- Beside its payloads, a row of data has four bytes for each of them, and at most one fill byte
each: its length is at most that of the payloads and `5 * data.length`. -/
theorem blockLength_le (data : List DataItem) :
    DataItem.blockLength data ≤ (data.flatMap DataItem.payload).length + 5 * data.length := by
  fun_induction DataItem.blockLength data with
  | case1 => exact Nat.le_refl _
  | case2 item =>
    simp [DataItem.encodedLength, DataItem.headerLength]
    omega
  | case3 item next data ih =>
    have hlength : (item :: next :: data).length = (next :: data).length + 1 := List.length_cons
    rw [List.flatMap_cons, List.length_append, DataItem.encodedLength, DataItem.headerLength, hlength]
    split <;> omega

/-- A request for at most 255 payloads that are together not longer than one item can tell, 8191
bytes, fits a packet. Not every message that keeps to the agreed length does. -/
theorem length_writeRequest_le (reference : UInt16) {run : List (RequestItem × DataItem)}
    (hcount : run.length ≤ Pdu.Access.maxItems)
    (hshort : (payloads run).length ≤ TransportSize.byte.maxLength) :
    (Pdu.writeRequest reference (run.map Prod.fst) (run.map Prod.snd)).length ≤ 65528 := by
  have hitems := itemsLength_le (run.map Prod.fst)
  have hdata := blockLength_le (run.map Prod.snd)
  rw [List.flatMap_map, List.length_map] at hdata
  rw [payloads, TransportSize.maxLength] at hshort
  rw [List.length_map] at hitems
  rw [Pdu.length_writeRequest, Pdu.jobHeaderLength, Pdu.Access.countLength]
  simp only [Pdu.Access.maxItems] at hcount
  omega

/-- A run of 1 to 255 items that fits is written with one message, if its payloads together are not
longer than 8191 bytes: each item is answered with success, and the data are in the memory in the
order of the items. -/
theorem writeRun_recalls (h : c.Recalls budget memory good) {run : List (RequestItem × DataItem)}
    (hne : run ≠ []) (hcount : run.length ≤ Pdu.Access.maxItems)
    (hshort : (payloads run).length ≤ TransportSize.byte.maxLength)
    (hpairs : ∀ pair ∈ run, Storable pair) (hfits : (planned writeDemand run).fits budget.toNat)
    {s : S} (hs : good s) :
    ∃ s', writeRun c run s = .ok (run.map fun _ => .success) s' ∧ good s' ∧
      memory s' = (memory s).stores run := by
  have hbudget := budget.toNat_lt
  have hrequest := (fits_iff.mp hfits).1
  obtain ⟨hgood, hsame⟩ := h.allocate s hs
  obtain ⟨request, hencode, -⟩ :=
    encodeWriteRequest_eq_ok (c.nextReference s).1 hne hcount (by omega)
  have hpacket : request.length ≤ 65528 := by
    obtain ⟨-, -, -, -, rfl⟩ := Pdu.encodeWriteRequest_eq_ok_iff.mp hencode
    exact length_writeRequest_le _ hcount hshort
  obtain ⟨s', hexchange, hs', hmemory⟩ :=
    h.write _ hgood _ run request hencode hpacket hpairs hfits
  rw [hsame] at hmemory
  have hlength : (run.map fun _ => ReturnCode.success.code).length = run.length := List.length_map _
  refine ⟨s', Channel.request_ok hencode hexchange ?_, hs', hmemory⟩
  rw [← hlength, checkWriteResponse_writeAnswer (hlength.trans_le hcount), List.map_map]
  rfl

/-- A list of data, each of which fits messages of its own, is stored in the order of the list,
`(memory s).stores pairs`, in however many messages, if the payloads together are not longer than 8191
bytes. Places may overlap; what was written later stays. -/
theorem writeAll_recalls (h : c.Recalls budget memory good) {pairs : List (RequestItem × DataItem)}
    (hne : pairs ≠ []) (hshort : (payloads pairs).length ≤ TransportSize.byte.maxLength)
    (hpairs : ∀ pair ∈ pairs, Storable pair)
    (halone : ∀ pair ∈ pairs, (alone writeDemand pair).fits budget.toNat) {s : S} (hs : good s) :
    ∃ codes s', writeAll c (pairs.map Prod.fst) (pairs.map Prod.snd) s = .ok codes s' ∧ good s' ∧
      memory s' = (memory s).stores pairs := by
  rw [← h.agreed s hs] at halone
  -- what is stored so far are the pairs so far
  obtain ⟨codes, s', ⟨hcodes, hs', hmemory⟩, hwrite⟩ := divided_of_steps
    (fun done codes s' => (∀ code ∈ codes, code = ReturnCode.success) ∧ good s' ∧
      memory s' = (memory s).stores done)
    (h.ready s hs) halone (fun done run codes s' hsublist hrun hcount hfits hdone => by
      obtain ⟨hcodes, hs', hmemory⟩ := hdone
      rw [h.agreed s hs] at hfits
      have hrunShort : (payloads run).length ≤ TransportSize.byte.maxLength :=
        (hsublist.flatMap _).length_le.trans hshort
      have hrunPairs : ∀ pair ∈ run, Storable pair := fun pair hpair =>
        hpairs pair (hsublist.subset hpair)
      obtain ⟨s'', hwrite, hs'', hstored⟩ :=
        writeRun_recalls h hrun hcount hrunShort hrunPairs hfits hs'
      refine ⟨_, s'', hwrite, ?_, hs'', ?_⟩
      · rw [List.forall_mem_append]
        exact ⟨hcodes, List.forall_mem_map.mpr fun _ _ => rfl⟩
      · rw [hstored, hmemory, Memory.stores_append])
    ⟨List.forall_mem_nil _, hs, rfl⟩
  refine ⟨codes, s', ?_, hs', hmemory⟩
  rw [writeAll, writeEach_pairs c hne, bind_of_ok hwrite, checkCodes_eq_ok hcodes]
  rfl

end Batch

namespace Client

variable {c : Client S} {budget : UInt16} {memory : S → Memory} {good : S → Prop}
  {address : Address}

/-- If a range exists, none of its pieces begins behind the last byte. -/
theorem not_overruns_of_inside {piece total : Nat} (hpiece : 0 < piece)
    (hinside : address.byte.toNat + total ≤ maxByteOffset + 1) : ¬ Overruns address piece total := by
  rintro ⟨part, hpart, hout⟩
  have hbegin := (mem_spans hpiece hpart).1
  omega

/-- The pieces of a range that exists, `byte + total ≤ maxByteOffset + 1`, are a tiling of it, and
each is an item for bytes of the memory. -/
theorem inMemory_of_spans {piece total : Nat} (hpiece : 0 < piece) (hshort : piece ≤ 65535)
    (hmake : Address.make address.area address.block address.byte address.bit = .ok address)
    (harea : address.area.holdsElements = false)
    (hinside : address.byte.toNat + total ≤ maxByteOffset + 1) :
    Tiles address piece 0 ((spans piece total).map (itemAt address)) total ∧
      ∀ item ∈ (spans piece total).map (itemAt address), item.InMemory := by
  have htiles : Tiles address piece 0 ((spans piece total).map (itemAt address)) total :=
    tiles_spans hpiece hshort fun part hpart =>
      Nat.not_lt.mp fun hout => not_overruns_of_inside hpiece hinside ⟨part, hpart, hout⟩
  exact ⟨htiles, htiles.inMemory hmake harea hinside⟩

/-- **Reading a range** brings what the memory has there, `(memory s).read area block byte count`. In
an area of bytes, from an address that can be made on, for 1 or more bytes that all exist, and at an
agreed length of 24 at least. The state is a good one afterwards, with the same memory; so any number
of ranges can be read one after the other. -/
theorem readBytesAt_recalls (h : c.channel.Recalls budget memory good) (hbudget : 24 ≤ budget.toNat)
    (hmake : Address.make address.area address.block address.byte address.bit = .ok address)
    (harea : address.area.holdsElements = false) {count : Nat} (hcount : 1 ≤ count)
    (hinside : address.byte.toNat + count ≤ maxByteOffset + 1) {s : S} (hs : good s) :
    ∃ s', c.readBytesAt address count s =
        .ok ((memory s).read address.area address.block address.byte.toNat count) s' ∧
      good s' ∧ memory s' = memory s := by
  have hpiece := readPiece_pos budget
  have hover := not_overruns_of_inside hpiece hinside
  obtain ⟨htiles, hitems⟩ :=
    inMemory_of_spans hpiece (readPiece_le budget) hmake harea hinside
  have halone : ∀ item ∈ (spans (readPiece budget) count).map (itemAt address),
      (Batch.alone Batch.readDemand item).fits budget.toNat := by
    intro item hitem
    obtain ⟨part, hpart, rfl⟩ := List.mem_map.mp hitem
    have hle := (mem_spans hpiece hpart).2.2
    exact fits_read hbudget address ((Nat.add_le_add_right hle 18).trans (readPiece_add_le hbudget))
  have hne := List.map_eq_nil_iff (f := itemAt address).not.mpr (spans_ne_nil hpiece hcount)
  obtain ⟨results, s', hread, hresults, hs', hmemory⟩ :=
    Batch.readAll_recalls h hne hitems halone hs
  refine ⟨s', ?_, hs', hmemory⟩
  rw [← h.agreed s hs] at hover hread
  rw [readBytesAt_of_inside (h.ready s hs) hmake harea hcount hover, bind_of_ok hread, hresults,
    htiles.flatMap_contents]
  rfl

/-- The pieces of at most 8191 bytes can be stored, if their places exist: each piece has as many
bytes as its item asks for, and a length that can be told in bits. -/
theorem storable_of_writesAt {piece : Nat} {bytes : Bytes} (hpiece : 0 < piece)
    (hshort : piece ≤ 65535) (hbytes : bytes.length ≤ TransportSize.byte.maxLength)
    (hitems : ∀ item ∈ (writesAt address piece bytes).map Prod.fst, item.InMemory) :
    ∀ pair ∈ writesAt address piece bytes, Batch.Storable pair := by
  intro pair hpair
  have hplace := hitems pair.1 (List.mem_map_of_mem hpair)
  have hlength := (mem_writesAt hpiece hshort hpair).2.1
  obtain ⟨part, hpart, rfl⟩ := List.mem_map.mp hpair
  have hle : part.1.length ≤ bytes.length := by
    have hsublist := List.sublist_flatten_of_mem (List.fst_mem_of_mem_zipIdx hpart)
    rw [flatten_pieces] at hsublist
    exact hsublist.length_le
  exact ⟨hplace, rfl, hlength, hle.trans hbytes⟩

/-- **Writing a range** puts the bytes there, and leaves the memory as it was elsewhere: it is
`(memory s).write area block byte bytes` afterwards. In an area of bytes, from an address that can be
made on, for 1 to 8191 bytes whose places exist, and at an agreed length of 29 at least. -/
theorem writeBytesAt_recalls (h : c.channel.Recalls budget memory good) (hbudget : 29 ≤ budget.toNat)
    (hmake : Address.make address.area address.block address.byte address.bit = .ok address)
    (harea : address.area.holdsElements = false) {bytes : Bytes} (hne : bytes ≠ [])
    (hshort : bytes.length ≤ TransportSize.byte.maxLength)
    (hinside : address.byte.toNat + bytes.length ≤ maxByteOffset + 1) {s : S} (hs : good s) :
    ∃ s', c.writeBytesAt address bytes s = .ok () s' ∧ good s' ∧
      memory s' = (memory s).write address.area address.block address.byte.toNat bytes := by
  have hpiece := writePiece_pos budget
  have hpieceShort := writePiece_le budget
  -- the range exists, and so do its pieces; their data can be stored
  have hover := not_overruns_of_inside hpiece hinside
  obtain ⟨htiles, hitems⟩ := inMemory_of_spans hpiece hpieceShort hmake harea hinside
  rw [← map_fst_writesAt _ _ hpiece] at htiles hitems
  have hpairs := storable_of_writesAt hpiece hpieceShort hshort hitems
  have hpayloads := (provided_rangeWrites
    (rangeWrites_of_inside hmake harea hpiece hpieceShort hover)).2
  have hfilled : Filled ((writesAt address (writePiece budget) bytes).map Prod.fst)
      ((writesAt address (writePiece budget) bytes).map Prod.snd) := by
    rw [Filled, List.forall₂_map_left_iff, List.forall₂_map_right_iff, List.forall₂_same]
    exact fun pair hpair => (hpairs pair hpair).length
  obtain ⟨codes, s', hwrite, hs', hmemory⟩ := Batch.writeAll_recalls h
    (writesAt_ne_nil hpiece hne) ((congrArg List.length hpayloads).trans_le hshort) hpairs
    (fun pair hpair => fits_write hbudget hpair) hs
  -- to store the pieces is to write the range
  rw [htiles.stores hfilled, hpayloads, Nat.add_zero] at hmemory
  refine ⟨s', ?_, hs', hmemory⟩
  rw [← h.agreed s hs] at hover hwrite
  rw [writeBytesAt_of_inside (h.ready s hs) hmake harea hne hover, bind_of_ok hwrite]
  rfl

end Client

end Channel

end S7Comm
