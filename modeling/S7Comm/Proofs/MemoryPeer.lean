import S7Comm.Proofs.MemoryChannel
import S7Comm.Proofs.RequestMeaning
import S7Comm.Proofs.WrittenLengths

/-!
# A memory on a network

On a network, a controller with a memory is the other end of a session.

* `Peer.Remembers peer budget memory`: what is asked of it. The packet of a request to read or write
  bytes of places that exist is answered with what `memory state` has there, or after storing the
  data; the answer may come in any fragments, and the connection is kept open.
* `Station.channel_recalls`: a session that is ready on such a connection, on which nothing has
  arrived that was not read, is a channel to the memory.

**There is such a controller.** `Peer.withMemory` takes a request apart (`Memory.serve`), answers each
item from its memory or stores the data, and sends the answer in one packet; so it does all that is
asked of a controller with messages that fit a packet (`Peer.withMemory_remembers`). Therefore nothing
that is proved from `Peer.Remembers` is empty.
-/

namespace S7Comm

open Call

/-! ## Sessions with a memory -/

section Network

variable {σ : Type}

/-- The other end is a controller with a memory, as long as requests are for places that exist, and
request and answer keep to the agreed length. -/
structure Peer.Remembers (peer : Peer σ) (budget : UInt16) (memory : σ → Memory) : Prop where
  /-- What is read is what the memory has, and stays there. -/
  read : ∀ (state : σ) reference items request packet,
    Pdu.encodeReadRequest reference items = .ok request → Iso.wrapData request = .ok packet →
    (∀ item ∈ items, item.InMemory) →
    (Batch.planned Batch.readDemand items).fits budget.toNat →
    ∃ (answers : List Answered) (m : Iso.Fragmented),
      List.Forall₂ (memory state).Recalled items answers ∧
      m.message = Pdu.readAnswer reference answers ∧
      (peer.receive packet state).1 = { bytes := m.bytes } ∧
      memory (peer.receive packet state).2 = memory state
  /-- What is written is stored. -/
  write : ∀ (state : σ) reference (pairs : List (RequestItem × DataItem)) request packet,
    Pdu.encodeWriteRequest reference (pairs.map Prod.fst) (pairs.map Prod.snd) = .ok request →
    Iso.wrapData request = .ok packet → (∀ pair ∈ pairs, Batch.Storable pair) →
    (Batch.planned Batch.writeDemand pairs).fits budget.toNat →
    ∃ m : Iso.Fragmented,
      m.message = Pdu.writeAnswer reference (pairs.map fun _ => ReturnCode.success.code) ∧
      (peer.receive packet state).1 = { bytes := m.bytes } ∧
      memory (peer.receive packet state).2 = (memory state).stores pairs

namespace Station

/-- A session against such a controller is a channel to its memory, while it is quiet. -/
theorem channel_recalls {peer : Peer σ} {budget : UInt16} {memory : σ → Memory}
    (h : peer.Remembers budget memory) :
    (channel peer).Recalls budget (fun st => memory st.network.peer) fun st =>
      st.Quiet ∧ st.session.pduLength = budget where
  ready st hst := checkReady_of_ready peer hst.1.state
  agreed st hst := hst.2
  allocate st hst := ⟨⟨⟨hst.1.state, hst.1.stream⟩, hst.2⟩, rfl⟩
  read st hst reference items request hencode hitems hfits := by
    obtain ⟨-, hcount, rfl⟩ := Pdu.encodeReadRequest_eq_ok_iff.mp hencode
    have hwrap := Iso.wrapData_eq_ok (Pdu.length_readRequest_le reference hcount)
    obtain ⟨answers, m, hanswers, hmessage, hreply, hmemory⟩ :=
      h.read st.network.peer reference items _ _ hencode hwrap hitems hfits
    -- the answer has been read completely, so that the session is quiet again
    obtain ⟨after, hexchange, hquiet, hlength, hpeer⟩ := exchange_ok hst.1 hwrap hreply
    rw [hmessage] at hexchange
    refine ⟨answers, after, hexchange, hanswers, ⟨hquiet, hlength.trans hst.2⟩, ?_⟩
    rw [hpeer, hmemory]
  write st hst reference pairs request hencode hshort hpairs hfits := by
    have hwrap := Iso.wrapData_eq_ok hshort
    obtain ⟨m, hmessage, hreply, hmemory⟩ :=
      h.write st.network.peer reference pairs _ _ hencode hwrap hpairs hfits
    obtain ⟨after, hexchange, hquiet, hlength, hpeer⟩ := exchange_ok hst.1 hwrap hreply
    rw [hmessage] at hexchange
    refine ⟨after, hexchange, ⟨hquiet, hlength.trans hst.2⟩, ?_⟩
    rw [hpeer, hmemory]

end Station

end Network

/-! ## A controller

The controller has only the bytes of a packet to go by. That it finds the items and the data in them
is known from the reading of requests (`RequestItem.decodeRow_of_inMemory`) and from the lengths of
what is written (`decodeItems_of_storable`).
-/

namespace Memory

/-- What the memory answers to an item. -/
def answered (m : Memory) (item : RequestItem) : Answered where
  code := ReturnCode.success.code
  sizeCode := TransportSize.octets.code
  field := UInt16.ofNat (m.contents item).length
  payload := m.contents item
  declared := by
    have hlength : (m.contents item).length < UInt16.size := by
      rcases item with item | lines
      · rw [contents, length_read]
        exact item.count.toNat_lt
      · exact Nat.zero_lt_succ _
    exact UInt16.toNat_ofNat_of_lt' hlength

/-- What the memory answers is what it has: success for each item, with the contents of its place. -/
theorem recalled_answered (m : Memory) (items : List RequestItem) :
    List.Forall₂ m.Recalled items (items.map m.answered) := by
  rw [List.forall₂_map_right_iff, List.forall₂_same]
  exact fun item _ => ⟨rfl, rfl⟩

/-- The answer to a message, and the memory after it; none, if the message is no request to read or
write. -/
def serve (m : Memory) (message : Bytes) : Option (Bytes × Memory) :=
  match Pdu.Header.decode message with
  | .ok (header, function :: count :: rest) =>
    match RequestItem.decodeRow count.toNat rest with
    | .ok (items, block) =>
      if function = Pdu.Access.read.code then
        some (Pdu.readAnswer header.reference (items.map m.answered), m)
      else match Pdu.decodeItems 0 count.toNat block with
        | .ok (data, _) =>
          some (Pdu.writeAnswer header.reference (items.map fun _ => ReturnCode.success.code),
            m.stores (items.zip data))
        | .error _ => none
    | .error _ => none
  | _ => none

end Memory

namespace RequestItem

variable {items : List RequestItem}

/-- An item of the memory has its place. -/
theorem InMemory.placed {item : RequestItem} (h : item.InMemory) : item.Placed := by
  obtain ⟨place, rfl, hplace⟩ := h
  obtain ⟨-, hbyte, heq⟩ := Address.make_eq_ok_iff.mp hplace.place
  have hbit : place.address.bit = 0 := congrArg Address.bit heq
  refine ⟨hbyte, ?_⟩
  rw [hbit]
  decide

/-- An item for bytes means what it says: nothing of it is lost on the way, neither a bit, which it
does not have, nor a part of its place, which three bytes hold. -/
theorem InMemory.meant_eq {item : RequestItem} (h : item.InMemory) : item.meant = item := by
  obtain ⟨place, rfl, hplace⟩ := h
  rw [meant, StandardItem.meant, hplace.type]
  rfl

/-- Items of the memory are read back as they are, in their order, and what stands behind them is
left: so the data block of a request to write is found behind its items. -/
theorem decodeRow_of_inMemory (h : ∀ item ∈ items, item.InMemory) (rest : Bytes) :
    decodeRow items.length (items.flatMap encode ++ rest) = .ok (items, rest) := by
  have hmeant : items.map meant = items.map id :=
    List.map_congr_left fun item hitem => (h item hitem).meant_eq
  rw [decodeRow_encode fun item hitem => (h item hitem).placed, hmeant, List.map_id]

end RequestItem

namespace Memory

/-- A request to read places that exist is answered from the memory, which stays the same. The header
gives the reference, the parameters the items. -/
theorem serve_readRequest (m : Memory) (reference : UInt16) {items : List RequestItem}
    (hcount : items.length ≤ Pdu.Access.maxItems) (hitems : ∀ item ∈ items, item.InMemory) :
    m.serve (Pdu.readRequest reference items) =
      some (Pdu.readAnswer reference (items.map m.answered), m) := by
  have hrow := RequestItem.decodeRow_of_inMemory hitems []
  rw [List.append_nil, ← Pdu.Access.toNat_count hcount] at hrow
  rw [serve, Pdu.readRequest, Pdu.decode_requestHeader, Pdu.Access.parameters]
  dsimp only
  rw [hrow]
  rfl

/-- Data that can be stored are read as they were written, and nothing is left of the block, since
every length in it is right (`DataItem.decodeItems_encodeBlock`). -/
theorem decodeItems_of_storable {pairs : List (RequestItem × DataItem)}
    (hpairs : ∀ pair ∈ pairs, Batch.Storable pair) :
    Pdu.decodeItems 0 (pairs.map Prod.snd).length (DataItem.encodeBlock (pairs.map Prod.snd)) =
      .ok (pairs.map Prod.snd, []) := by
  have hbytes : ∀ item ∈ pairs.map Prod.snd, item = .ofBytes item.payload ∧
      item.payload.length ≤ TransportSize.byte.maxLength :=
    List.forall_mem_map.mpr fun pair hpair => ⟨(hpairs pair hpair).bytes, (hpairs pair hpair).short⟩
  apply DataItem.decodeItems_encodeBlock
  · intro item hitem
    rw [(hbytes item hitem).1]
    rfl
  · intro item hitem
    have hsize : item.size = .byte := congrArg DataItem.size (hbytes item hitem).1
    rw [DataItem.Told, hsize]
    exact TransportSize.payloadLength_lengthField (hbytes item hitem).2

/-- A request to write bytes to places that exist is answered with success for each of them, and the
data are stored in their order, `m.stores pairs`. -/
theorem serve_writeRequest (m : Memory) (reference : UInt16) {pairs : List (RequestItem × DataItem)}
    (hcount : pairs.length ≤ Pdu.Access.maxItems) (hpairs : ∀ pair ∈ pairs, Batch.Storable pair) :
    m.serve (Pdu.writeRequest reference (pairs.map Prod.fst) (pairs.map Prod.snd)) =
      some (Pdu.writeAnswer reference (pairs.map fun _ => ReturnCode.success.code),
        m.stores pairs) := by
  have hplaces : ∀ item ∈ pairs.map Prod.fst, item.InMemory :=
    List.forall_mem_map.mpr fun pair hpair => (hpairs pair hpair).place
  have hrow := RequestItem.decodeRow_of_inMemory hplaces (DataItem.encodeBlock (pairs.map Prod.snd))
  have hdata := decodeItems_of_storable hpairs
  have htold := Pdu.Access.toNat_count hcount
  have hzip : (pairs.map Prod.fst).zip (pairs.map Prod.snd) = pairs :=
    (List.zip_of_prod rfl rfl).symm
  have hcodes : ((pairs.map Prod.fst).map fun _ => ReturnCode.success.code) =
      pairs.map fun _ => ReturnCode.success.code := List.map_map
  rw [List.length_map, ← htold] at hrow hdata
  rw [serve, Pdu.writeRequest, List.append_assoc, Pdu.decode_requestHeader, Pdu.Access.parameters,
    List.length_map, List.cons_append, List.cons_append]
  dsimp only
  rw [hrow]
  dsimp only
  rw [if_neg (by decide), hdata]
  dsimp only
  rw [hzip, hcodes]
  rfl

end Memory

/-- A controller with a memory, which takes every connection and closes it when it is sent anything
but a request to read or write. -/
def Peer.withMemory : Peer Memory where
  accept _ _ _ m := (.taken, m)
  receive packet m :=
    match m.serve (Iso.carried packet) with
    | some (answer, after) =>
      match Iso.wrapData answer with
      | .ok packet => ({ bytes := packet }, after)
      | .error _ => ({ bytes := [], ending := some .unexpectedEof }, m)
    | none => ({ bytes := [], ending := some .unexpectedEof }, m)

/-- An answer of at most 65528 bytes is sent in one packet, and the memory is the one after it. -/
theorem Peer.receive_withMemory {m after : Memory} {message packet answer : Bytes}
    (hwrap : Iso.wrapData message = .ok packet) (hserve : m.serve message = some (answer, after))
    (hshort : answer.length ≤ 65528) :
    Peer.withMemory.receive packet m =
      ({ bytes := (Iso.Fragmented.whole answer hshort).bytes }, after) := by
  rw [withMemory]
  dsimp only
  rw [Iso.carried_of_wrapData hwrap, hserve]
  dsimp only
  rw [Iso.wrapData_eq_ok hshort]
  rfl

/-- It is a controller with a memory, for every agreed length of at most 65528, with which each answer
fits a packet. A request that keeps to the agreed length is served (`Memory.serve_readRequest`,
`Memory.serve_writeRequest`), and the answer is a message in one fragment. -/
theorem Peer.withMemory_remembers {budget : UInt16} (hbudget : budget.toNat ≤ 65528) :
    Peer.withMemory.Remembers budget id where
  read m reference items request packet hencode hwrap hitems hfits := by
    obtain ⟨-, hcount, rfl⟩ := Pdu.encodeReadRequest_eq_ok_iff.mp hencode
    have hrecalled := m.recalled_answered items
    -- the answer keeps to the agreed length, which a packet can have
    have hshort : (Pdu.readAnswer reference (items.map m.answered)).length ≤ 65528 :=
      (Batch.answers_of_recalled hfits hitems hrecalled reference).2.trans hbudget
    have hreceive := receive_withMemory hwrap (m.serve_readRequest reference hcount hitems) hshort
    rw [hreceive]
    exact ⟨_, .whole _ hshort, hrecalled, rfl, rfl, rfl⟩
  write m reference pairs request packet hencode hwrap hpairs hfits := by
    obtain ⟨-, -, hcount, -, rfl⟩ := Pdu.encodeWriteRequest_eq_ok_iff.mp hencode
    rw [List.length_map] at hcount
    have hshort : (Pdu.writeAnswer reference
        (pairs.map fun _ => ReturnCode.success.code)).length ≤ 65528 := by
      rw [Pdu.writeAnswer, Pdu.length_answer, List.length_map]
      simp only [Pdu.Access.maxItems] at hcount
      simp only [Pdu.ackHeaderLength, Pdu.Access.countLength]
      omega
    have hreceive := receive_withMemory hwrap (m.serve_writeRequest reference hcount hpairs) hshort
    rw [hreceive]
    exact ⟨.whole _ hshort, rfl, rfl, rfl⟩

end S7Comm
