import S7Comm.Proofs.Answer
import S7Comm.Proofs.CanonicalAddresses
import S7Comm.Proofs.Tilings
import S7Comm.Proofs.WrittenData

/-!
# Memories

A controller keeps bytes: what is written to a place stays there, and is what is read from it until
something else is written.

* `Memory := Area → UInt16 → Nat → UInt8`, with `Memory.read` and `Memory.write` of bytes from a place
  on. `Memory.write_inside` and `Memory.write_outside` are all that has to be known of a memory that
  was written to.
* `StandardItem.InMemory`, `RequestItem.InMemory`: the item asks for bytes that exist, in an area that
  consists of bytes, from an address that can be made, with `byte + count ≤ maxByteOffset + 1`.
  `Batch.Storable` is such an item with the bytes that it is for, at most as many as can be told in
  bits.
* `Memory.contents`, `Memory.stores`: what the memory has at the place of an item, and what it is
  after data have been stored, one after the other.

**Main results.** To read or write places that lie one behind the other is to read or write them
together (`Memory.read_add`, `Memory.write_append`), and what was written is what is read
(`Memory.read_write`). So the pieces that tile a range do the same together as the range does, whether
they are read (`Tiles.flatMap_contents`) or written (`Tiles.stores`).

Timers, counters and data of a numerical control are left out: their contents change without being
written.
-/

namespace S7Comm

open Call

/-! ## Memories -/

/-- The bytes of each area; those of a data block by its number. -/
def Memory := Area → UInt16 → Nat → UInt8

namespace Memory

variable {m : Memory} {area : Area} {block : UInt16} {start count : Nat} {bytes : Bytes}

/-- Some bytes, from a place on. -/
def read (m : Memory) (area : Area) (block : UInt16) (start count : Nat) : Bytes :=
  (List.range' start count).map (m area block)

/-- The memory with other bytes from a place on. -/
def write (m : Memory) (area : Area) (block : UInt16) (start : Nat) (bytes : Bytes) : Memory :=
  fun area' block' i =>
    if area' = area ∧ block' = block ∧ start ≤ i then bytes.getD (i - start) (m area block i)
    else m area' block' i

/-- As many bytes are read as were asked for. -/
@[simp]
theorem length_read : (m.read area block start count).length = count := by
  rw [read, List.length_map, List.length_range']

/-- What is read of two places that lie one behind the other is what is read of both. -/
theorem read_add (m : Memory) (area : Area) (block : UInt16) (start count more : Nat) :
    m.read area block start (count + more) =
      m.read area block start count ++ m.read area block (start + count) more := by
  rw [read, read, read, ← List.map_append, List.range'_append_1]

/-- The front of what was read. -/
theorem take_read {fewer : Nat} (h : fewer ≤ count) :
    (m.read area block start count).take fewer = m.read area block start fewer := by
  obtain ⟨more, rfl⟩ := Nat.exists_eq_add_of_le h
  rw [read_add]
  exact List.take_left' length_read

/-- What was read, but for its front. -/
theorem drop_read (front : Nat) :
    (m.read area block start (front + count)).drop front =
      m.read area block (start + front) count := by
  rw [read_add]
  exact List.drop_left' length_read

/-- A single byte of what was read. -/
theorem getElem?_read {i : Nat} (h : i < count) :
    (m.read area block start count)[i]? = some (m area block (start + i)) := by
  rw [read, List.getElem?_map, List.getElem?_range' h, Nat.one_mul]
  rfl

/-- Within what was written are the bytes that were written. -/
theorem write_inside {i : Nat} (h : i < bytes.length) :
    m.write area block start bytes area block (start + i) = bytes[i] := by
  rw [write, if_pos ⟨rfl, rfl, Nat.le_add_right start i⟩, Nat.add_sub_cancel_left]
  exact (List.getElem_eq_getD _).symm

/-- Outside of it nothing has changed. -/
theorem write_outside {area' : Area} {block' : UInt16} {i : Nat}
    (h : area' = area → block' = block → start ≤ i → start + bytes.length ≤ i) :
    m.write area block start bytes area' block' i = m area' block' i := by
  rw [write]
  split
  · next hplace =>
    obtain ⟨rfl, rfl, hstart⟩ := hplace
    have hbehind := h rfl rfl hstart
    rw [List.getD_eq_default _ _ (by omega)]
  · rfl

/-- To write nothing changes nothing. -/
@[simp]
theorem write_nil : m.write area block start [] = m := by
  funext area' block' i
  exact write_outside fun _ _ h => h

/-- To write bytes to two places that lie one behind the other is to write all of them. -/
theorem write_append (m : Memory) (area : Area) (block : UInt16) (start : Nat) (bytes more : Bytes) :
    m.write area block start (bytes ++ more) =
      (m.write area block start bytes).write area block (start + bytes.length) more := by
  funext area' block' i
  by_cases hplace : area' = area ∧ block' = block
  · obtain ⟨rfl, rfl⟩ := hplace
    -- in front of the first, in the first, or behind it
    have hlength : (bytes ++ more).length = bytes.length + more.length := List.length_append
    rcases Nat.lt_or_ge i start with hfront | hstart
    · rw [write_outside (by omega), write_outside (by omega), write_outside (by omega)]
    obtain ⟨offset, rfl⟩ := Nat.exists_eq_add_of_le hstart
    rcases Nat.lt_or_ge offset bytes.length with hfirst | hbehind
    · rw [write_outside (m := m.write area' block' start bytes) (by omega), write_inside hfirst,
        write_inside (by omega), List.getElem_append_left]
    obtain ⟨offset, rfl⟩ := Nat.exists_eq_add_of_le hbehind
    rcases Nat.lt_or_ge offset more.length with hsecond | hbeyond
    · rw [write_inside (by omega), ← Nat.add_assoc, write_inside hsecond]
      simp
    · rw [write_outside (by omega), write_outside (by omega), write_outside (by omega)]
  · rw [write_outside fun harea hblock => absurd ⟨harea, hblock⟩ hplace,
      write_outside fun harea hblock => absurd ⟨harea, hblock⟩ hplace,
      write_outside fun harea hblock => absurd ⟨harea, hblock⟩ hplace]

/-- What was written is what is read, also in part. -/
theorem read_write {front : Nat} (h : front + count ≤ bytes.length) :
    (m.write area block start bytes).read area block (start + front) count =
      (bytes.drop front).take count := by
  apply List.ext_getElem
  · rw [length_read, List.length_take, List.length_drop]
    omega
  · intro i hi _
    rw [length_read] at hi
    have hinside : front + i < bytes.length := by omega
    have hread : ((m.write area block start bytes).read area block (start + front) count)[i]? =
        some (m.write area block start bytes area block (start + front + i)) := getElem?_read hi
    rw [Nat.add_assoc, write_inside hinside] at hread
    rw [List.getElem_take, List.getElem_drop]
    exact (List.getElem?_eq_some_iff.mp hread).2

/-- All that was written is read. -/
theorem read_written (m : Memory) (area : Area) (block : UInt16) (start : Nat) (bytes : Bytes) :
    (m.write area block start bytes).read area block start bytes.length = bytes := by
  have hread : (m.write area block start bytes).read area block (start + 0) bytes.length =
      (bytes.drop 0).take bytes.length := read_write (Nat.le_of_eq (Nat.zero_add _))
  rwa [List.drop_zero, List.take_length] at hread

end Memory

/-! ## Items -/

/-- An item asks for bytes of a place that exists. -/
structure StandardItem.InMemory (item : StandardItem) : Prop where
  /-- It asks for bytes, -/
  type : item.type = .byte
  /-- in an area that consists of bytes, -/
  area : item.address.area.holdsElements = false
  /-- from a byte on that exists, -/
  place : Address.make item.address.area item.address.block item.address.byte 0 = .ok item.address
  /-- and for none behind the last. -/
  inside : item.address.byte.toNat + item.count.toNat ≤ maxByteOffset + 1

/-- An item asks for bytes of a place that exists, and not for data of a numerical control. -/
def RequestItem.InMemory (item : RequestItem) : Prop :=
  ∃ place : StandardItem, item = .standard place ∧ place.InMemory

/-- As many bytes are to be written as the item is for, and their number can be told in bits. -/
structure Batch.Storable (pair : RequestItem × DataItem) : Prop where
  /-- The place exists. -/
  place : pair.1.InMemory
  /-- The data are bytes, -/
  bytes : pair.2 = .ofBytes pair.2.payload
  /-- as many as the item is for, -/
  length : pair.1.dataLength? = some pair.2.payload.length
  /-- and not too many. -/
  short : pair.2.payload.length ≤ TransportSize.byte.maxLength

namespace Memory

/-- The bytes that an item asks for. -/
def contents (m : Memory) : RequestItem → Bytes
  | .standard item =>
    m.read item.address.area item.address.block item.address.byte.toNat item.count.toNat
  | .nck _ => []

/-- The memory after storing data where an item is for. -/
def store (m : Memory) (pair : RequestItem × DataItem) : Memory :=
  match pair.1 with
  | .standard item =>
    m.write item.address.area item.address.block item.address.byte.toNat pair.2.payload
  | .nck _ => m

/-- The memory after storing data, one after the other. -/
def stores (m : Memory) (pairs : List (RequestItem × DataItem)) : Memory :=
  pairs.foldl store m

/-- Storing some data, and then others. -/
theorem stores_append (m : Memory) (pairs more : List (RequestItem × DataItem)) :
    m.stores (pairs ++ more) = (m.stores pairs).stores more :=
  List.foldl_append

/-- A controller with this memory has answered an item that was to be read. -/
structure Recalled (m : Memory) (item : RequestItem) (a : Answered) : Prop where
  /-- It was read. -/
  code : a.code = ReturnCode.success.code
  /-- The payload is what the memory has there. -/
  payload : a.payload = m.contents item

/-- An item asks for as many bytes as there are at its place. -/
theorem length_contents (m : Memory) {item : StandardItem} (h : item.InMemory) :
    (m.contents (.standard item)).length = item.dataLength := by
  have hsize : item.type.byteSize = 1 := by
    rw [h.type]
    rfl
  rw [contents, length_read, StandardItem.dataLength, hsize, Nat.mul_one]

namespace Recalled

variable {m : Memory} {item : RequestItem} {a : Answered}

/-- What was answered succeeded. -/
theorem returnCode (h : Recalled m item a) : a.item.returnCode = .success := by
  rw [Answered.item, h.code]
  rfl

/-- It is an answer to the item. -/
theorem suits (h : Recalled m item a) (hitem : item.InMemory) : Suits item a := by
  obtain ⟨place, rfl, hplace⟩ := hitem
  have hsuccess : a.item.isSuccess = true := by
    rw [DataItem.isSuccess, h.returnCode]
    rfl
  rw [Suits, if_pos hsuccess, h.payload]
  exact m.length_contents hplace

end Recalled

end Memory

/-- Items of the memory are items of a CPU. -/
theorem exists_standard_of_inMemory {items : List RequestItem}
    (h : ∀ item ∈ items, item.InMemory) :
    ∃ places : List StandardItem, items = places.map .standard := by
  induction items with
  | nil => exact ⟨[], rfl⟩
  | cons item items ih =>
    obtain ⟨place, rfl, -⟩ := h item List.mem_cons_self
    obtain ⟨places, rfl⟩ := ih fun other hother => h other (List.mem_cons_of_mem _ hother)
    exact ⟨place :: places, rfl⟩

/-! ### Tilings

Both are inductions on the tiling, in which the range that is left begins where the first piece ends.
-/

namespace Tiles

variable {address : Address} {piece offset stop : Nat} {items : List RequestItem}

/-- A tiling goes forward. -/
theorem le (h : Tiles address piece offset items stop) : offset ≤ stop := by
  induction h with
  | done => exact Nat.le_refl _
  | next _ _ _ _ ih => exact (Nat.le_add_right _ _).trans ih

/-- If a range exists, so do the pieces that tile it. -/
theorem inMemory (h : Tiles address piece offset items stop)
    (hmake : Address.make address.area address.block address.byte address.bit = .ok address)
    (harea : address.area.holdsElements = false)
    (hinside : address.byte.toNat + stop ≤ maxByteOffset + 1) : ∀ item ∈ items, item.InMemory := by
  induction h with
  | done => exact List.forall_mem_nil _
  | @next offset stop byte count items hbyte hpos _ hrest ih =>
    have hstop := hrest.le
    refine List.forall_mem_cons.mpr ⟨⟨_, rfl, rfl, harea, ?_, ?_⟩, ih hinside⟩
    · obtain ⟨-, -, heq⟩ := Address.make_eq_ok_iff.mp hmake
      have hblock := congrArg Address.block heq
      refine Address.make_eq_ok_iff.mpr ⟨by decide, ?_, ?_⟩
      · dsimp only
        omega
      · exact congrArg
          (fun block => ({ area := address.area, block, byte, bit := 0 } : Address)) hblock
    · dsimp only
      omega

/-- The bytes of the pieces are the bytes of the range. -/
theorem flatMap_contents (h : Tiles address piece offset items stop) (m : Memory) :
    items.flatMap m.contents =
      m.read address.area address.block (address.byte.toNat + offset) (stop - offset) := by
  induction h with
  | done offset =>
    rw [Nat.sub_self]
    rfl
  | @next offset stop byte count items hbyte hpos _ hrest ih =>
    have hstop := hrest.le
    have hlength : stop - offset = count.toNat + (stop - (offset + count.toNat)) := by omega
    rw [List.flatMap_cons, ih, hlength, Memory.read_add, Memory.contents, hbyte, Nat.add_assoc]

/-- Storing the data of the pieces is writing the bytes of the range. -/
theorem stores {pairs : List (RequestItem × DataItem)}
    (h : Tiles address piece offset (pairs.map Prod.fst) stop)
    (hfilled : Filled (pairs.map Prod.fst) (pairs.map Prod.snd)) (m : Memory) :
    m.stores pairs = m.write address.area address.block (address.byte.toNat + offset)
      (Batch.payloads pairs) := by
  generalize hitems : pairs.map Prod.fst = items at h
  induction h generalizing pairs m with
  | done offset =>
    obtain rfl := List.map_eq_nil_iff.mp hitems
    exact Memory.write_nil.symm
  | @next offset stop byte count items hbyte _ _ hrest ih =>
    obtain ⟨pair, pairs, rfl, hpair, rfl⟩ := List.map_eq_cons_iff.mp hitems
    obtain ⟨hfirst, hbehind⟩ := List.forall₂_cons.mp hfilled
    rw [hpair] at hfirst
    have hlength : count.toNat * 1 = pair.2.payload.length := Option.some.inj hfirst
    have hpayloads : Batch.payloads (pair :: pairs) = pair.2.payload ++ Batch.payloads pairs :=
      List.flatMap_cons
    have hstore : m.store pair = m.write address.area address.block byte.toNat pair.2.payload := by
      rw [Memory.store, hpair]
    rw [hpayloads, Memory.write_append, ← hlength, Nat.mul_one, Nat.add_assoc, ← hbyte, ← hstore]
    exact ih hbehind _ rfl

end Tiles

end S7Comm
