import S7Comm.Proofs.Atomicity
import S7Comm.Proofs.Tilings
import S7Comm.Proofs.Verdict
import S7Comm.Proofs.WrittenData

/-!
# Reading and writing ranges

A range of bytes is read and written by the items that tile it. The payloads, put together in the
order of the items, are then the bytes of the range.

**What a call over a range does.** Three structures say it, each of a call and a state.

* `Client.Reserves grants items call run Does`: before anything else, room is reserved for as many
  items as the range has pieces, `(count + piece - 1) / piece`. Whether it is granted is the business
  of a parameter, `grants`. If it is not, the program ends without an outcome, also where the call
  would only have been refused; all else is said of the case that it is.
* `Client.Bounded address piece total least budget call`: how the call can be refused. A piece that
  begins behind the last byte that an address can have is refused, for its address, before anything is
  sent; no other argument is. And where the agreed length leaves room for an item with two bytes to be
  read, or with one byte to be written, no piece is too large. A range that is not refused has `(items
  - 1) * piece < 2 ^ 21`, so it is not the length of a range that makes a reservation large, but a
  range that will be refused.
* `Client.ReadsPieces`, `Client.WritesPieces`: a call that is not refused is the reading or writing of
  items that tile the range (`Tiles`), and what is read, or given to be written, are the payloads in
  the order of the items.

**Timers and counters** are not divided. What is read of them are whole elements, and so it may be one
byte more than was asked for (`Client.ReadsElements`).

**Main result** (`Station.ranges_tile`): all of this on a ready session, for texts that are addresses.
-/

namespace S7Comm

open Call

namespace Client

variable {address : Address} {piece total : Nat} {bytes : Bytes}

/-! ## Calls over a range

The structures are about any channel on which requests can be sent. What is proved of reading and of
writing is the same up to the numbers in it, and the two are put beside each other, as their items are
made in different ways.
-/

variable {S α β : Type} {s : S}

/-- A range begins at the address that its text is understood as, whether it is read, -/
theorem readBytes_of_parse (c : Client S) {text : String} (h : Address.parse text = .ok address)
    (count : Nat) : c.readBytes text count = c.readBytesAt address count := by
  rw [readBytes, h]
  rfl

/-- or written. -/
theorem writeBytes_of_parse (c : Client S) {text : String} (h : Address.parse text = .ok address)
    (bytes : Bytes) : c.writeBytes text bytes = c.writeBytesAt address bytes := by
  rw [writeBytes, h]
  rfl

/-- How a call over a range, which is divided into pieces, can be refused. -/
structure Bounded (address : Address) (piece total least : Nat) (budget : UInt16) (call : Call S α)
    (s : S) : Prop where
  /-- It is for an argument exactly if a piece begins behind the last byte that an address can have. -/
  refused : (∃ cause s', call s = .error (.invalidArgument cause) s') ↔ Overruns address piece total
  /-- Then nothing has been sent, and nothing has changed. -/
  unsent : ∀ cause s', call s = .error (.invalidArgument cause) s' → s' = s
  /-- No piece is too large, unless the agreed length leaves no room even for a small one. -/
  large : least ≤ budget.toNat →
    ∀ index size limit s', call s ≠ .error (.itemTooLarge index size limit) s'
  /-- As long as the pieces before it begin within the area, an offset is a number of 32 bits, and a
  length one of 16. -/
  numbers : ∀ front part behind, spans piece total = front ++ part :: behind →
    (∀ before ∈ front, address.byte.toNat + before.1 ≤ maxByteOffset) →
    (UInt32.ofNat part.1).toNat = part.1 ∧ (UInt16.ofNat part.2).toNat = part.2
  /-- A range of which all pieces begin within the area has no more than there is place for. -/
  few : ¬ Overruns address piece total → (pieceCount piece total - 1) * piece ≤ maxByteOffset

/-- A range that is not refused has `(pieces - 1) * piece ≤ maxByteOffset`: one less than the number
of its pieces is the number of the last, which begins within the area. -/
theorem few_of_inside (h : ¬ Overruns address piece total) :
    (pieceCount piece total - 1) * piece ≤ maxByteOffset := by
  rcases Nat.eq_zero_or_pos (pieceCount piece total) with hnone | hsome
  · rw [hnone, Nat.zero_sub, Nat.zero_mul]
    exact Nat.zero_le _
  · have hlast : span piece total (pieceCount piece total - 1) ∈ spans piece total :=
      List.mem_map_of_mem (List.mem_range.mpr (Nat.sub_lt hsome Nat.one_pos))
    have hbegins := Nat.not_lt.mp fun hout => h ⟨_, hlast, hout⟩
    exact (Nat.le_add_left _ _).trans hbegins

/-- How a call is bounded follows from what it does on either side. -/
theorem bounded_of {least : Nat} {budget : UInt16} {call : Call S α} (hpiece : 0 < piece)
    (hshort : piece ≤ 65535)
    (hover : Overruns address piece total → ∃ cause, call s = .error (.invalidArgument cause) s)
    (hinside : ¬ Overruns address piece total →
      (∀ cause s', call s ≠ .error (.invalidArgument cause) s') ∧
        (least ≤ budget.toNat →
          ∀ index size limit s', call s ≠ .error (.itemTooLarge index size limit) s')) :
    Bounded address piece total least budget call s := by
  have hrefused : ∀ cause s', call s = .error (.invalidArgument cause) s' →
      Overruns address piece total := fun cause s' hrun => by
    by_contra hwithin
    exact (hinside hwithin).1 cause s' hrun
  refine ⟨⟨?_, fun hreach => ?_⟩, ?_, ?_, ?_, few_of_inside⟩
  · rintro ⟨cause, s', hrun⟩
    exact hrefused cause s' hrun
  · obtain ⟨cause, hcause⟩ := hover hreach
    exact ⟨cause, s, hcause⟩
  · intro cause s' hrun
    obtain ⟨cause', hcause⟩ := hover (hrefused cause s' hrun)
    cases hcause.symm.trans hrun
    rfl
  · intro hleast index size limit s' hrun
    by_cases hreach : Overruns address piece total
    · obtain ⟨cause, hcause⟩ := hover hreach
      cases hcause.symm.trans hrun
    · exact (hinside hreach).2 hleast index size limit s' hrun
  · exact fun _ _ _ h => numbers_of_spans hpiece hshort h

/-- A list that is divided, and of which the requests can be made, is refused only if an item is too
large. -/
theorem refusal_of_divided {demand : β → Batch.Demand} {budget : UInt16} {items : List β}
    {call : Call S α}
    (hdivided : ∀ runs, Batch.plan demand budget items = .ok runs →
      ∃ certain : Call S α, Certain certain ∧ call s = certain s)
    (hundivided : ∀ e, Batch.plan demand budget items = .error e → call s = .error e s) :
    (∀ cause s', call s ≠ .error (.invalidArgument cause) s') ∧
      ((∀ item ∈ items, (Batch.alone demand item).fits budget.toNat) →
        ∀ index size limit s', call s ≠ .error (.itemTooLarge index size limit) s') := by
  have hcertain : ∀ runs e s', Batch.plan demand budget items = .ok runs → call s = .error e s' →
      e.isRefusal = false := by
    intro runs e s' hplan hrun
    obtain ⟨certain, hcertain, hsame⟩ := hdivided runs hplan
    exact hcertain s e s' (hsame.symm.trans hrun)
  constructor
  · intro cause s' hrun
    cases hplan : Batch.plan demand budget items with
    | ok runs => cases hcertain runs _ s' hplan hrun
    | error e =>
      cases (hundivided e hplan).symm.trans hrun
      unfold Batch.plan at hplan
      dsimp only at hplan
      split at hplan <;> cases hplan
  · intro hfits index size limit s' hrun
    have hplan := Batch.plan_eq_ok_iff.mpr ⟨hfits, rfl⟩
    cases hcertain _ _ s' hplan hrun

/-! ### Reading -/

variable {c : Client S}

/-- What a call does that reads a range of bytes. -/
structure ReadsPieces (c : Client S) (address : Address) (count : Nat) (call : Call S Bytes) (s : S) :
    Prop where
  /-- It can be refused only for where it reads, or for the agreed length. -/
  bounded : Bounded address (readPiece (c.channel.budget s)) count 24 (c.channel.budget s) call s
  /-- Else it reads items that are a tiling, and returns their payloads in their order. -/
  tiled : ¬ Overruns address (readPiece (c.channel.budget s)) count →
    ∃ items, Tiles address (readPiece (c.channel.budget s)) 0 items count ∧
      call s = (Batch.readAll c.channel items >>= fun results =>
        pure (results.flatMap DataItem.payload)) s ∧
      ∀ bytes s', call s = .ok bytes s' → bytes.length = count ∧
        ∃ results, Batch.readAll c.channel items s = .ok results s' ∧ Filled items results ∧
          bytes = results.flatMap DataItem.payload

/-- Reading a list is refused only if an item is too large. -/
theorem refusal_of_readAll (hexchange : ∀ message, Certain (c.channel.exchange message))
    (hready : c.channel.checkReady s = .ok ()) {items : List RequestItem} (hne : items ≠ [])
    (form : List DataItem → α) {call : Call S α}
    (hcall : call s = (Batch.readAll c.channel items >>= fun results => pure (form results)) s) :
    (∀ cause s', call s ≠ .error (.invalidArgument cause) s') ∧
      ((∀ item ∈ items,
          (Batch.alone Batch.readDemand item).fits (c.channel.budget s).toNat) →
        ∀ index size limit s', call s ≠ .error (.itemTooLarge index size limit) s') := by
  have heach : Batch.readEach c.channel items = (do
      c.channel.ensureReady
      let runs ← Batch.plan Batch.readDemand (← c.channel.pduBudget) items
      let results ← runs.mapM (Batch.readRun c.channel)
      return results.flatten) := by
    unfold Batch.readEach
    rw [if_neg hne]
    rfl
  apply refusal_of_divided
  · intro runs hplan
    refine ⟨_, ?_, hcall.trans (bind_congr_left (bind_congr_left
      (heach ▸ Channel.divided_eq hready hplan) _) _)⟩
    refine Certain.bind (Certain.bind ?_ fun results => ?_) fun results => .pure _
    · exact (Batch.certain_readRuns hexchange hplan).bind fun _ => .pure _
    · exact (Certain.ofExcept (.checkCodes _)).bind fun _ => .pure _
  · intro e hplan
    exact hcall.trans (bind_of_error (bind_of_error
      (heach ▸ Channel.undivided_eq hready hplan) _) _)

/-- A row of items of which all have been read have their payloads. -/
theorem filled_of_readAll {items : List RequestItem} {results : List DataItem} {s' : S}
    (hitems : ∀ item ∈ items, ∃ place, item = .standard place)
    (h : Batch.readAll c.channel items s = .ok results s') : Filled items results := by
  have hjudges := Batch.judges_readAll c.channel items s
  rw [outcome_of_ok h] at hjudges
  obtain ⟨hfulfils, hsuccess⟩ : List.Forall₂ Pdu.Fulfils items results ∧
      ∀ result ∈ results, result.isSuccess = true := by
    generalize (Batch.readEach c.channel items).outcome s = each at hjudges
    cases hjudges with
    | judged after hverdict =>
      obtain ⟨hfulfils, hverdict⟩ := hverdict
      cases hverdict with
      | passed hnone => exact ⟨hfulfils, Batch.forall_isSuccess hnone⟩
  clear h hjudges
  induction hfulfils with
  | nil => exact .nil
  | @cons item result items results hfirst _ ih =>
    obtain ⟨place, rfl⟩ := hitems item List.mem_cons_self
    refine .cons (congrArg some ?_) (ih ?_ ?_)
    · exact (hfirst place rfl (hsuccess result List.mem_cons_self)).symm
    · exact fun other hother => hitems other (List.mem_cons_of_mem _ hother)
    · exact fun other hother => hsuccess other (List.mem_cons_of_mem _ hother)

/-- A piece to be read has a byte. -/
theorem readPiece_pos (budget : UInt16) : 0 < readPiece budget := by
  rw [readPiece]
  omega

/-- Its length is a number of 16 bits. -/
theorem readPiece_le (budget : UInt16) : readPiece budget ≤ 65535 := by
  have hlt := budget.toNat_lt
  rw [readPiece]
  omega

/-- With the 18 bytes in front of it, a piece is an answer of the agreed length, or nearly. -/
theorem readPiece_add_le {budget : UInt16} (hleast : 24 ≤ budget.toNat) :
    readPiece budget + 18 ≤ budget.toNat := by
  rw [readPiece]
  omega

/-- Some bytes can be read with one message, if that can have 18 bytes more, and 24 in any case: the
answer has 14 bytes and a head of 4, and the request has 24. -/
theorem fits_read {budget : UInt16} (hleast : 24 ≤ budget.toNat) (address : Address)
    {part : Nat × Nat} (hroom : part.2 + 18 ≤ budget.toNat) :
    (Batch.alone Batch.readDemand (itemAt address part)).fits budget.toNat := by
  have hshort : part.2 ≤ 65535 := by
    have hlt := budget.toNat_lt
    omega
  rw [Batch.fits_alone_iff Batch.alone_read, Batch.readSizes, dataLength_itemAt address hshort]
  constructor
  · exact hleast
  · dsimp only
    omega

section Ready

variable (hready : c.channel.checkReady s = .ok ())
  (hmake : Address.make address.area address.block address.byte address.bit = .ok address)
  (harea : address.area.holdsElements = false)

include hready harea

/-- In an area of bytes, on a channel that is ready, reading is making the items of the range, reading
them as a list all of which has to succeed, and putting the payloads in a row. -/
theorem readBytesAt_eq {count : Nat} (hcount : 1 ≤ count) :
    c.readBytesAt address count s =
      (Call.ofExcept ((rangeItems address (readPiece (c.channel.budget s)) count).mapError
          .invalidArgument) >>= fun items =>
        Batch.readAll c.channel items >>= fun results =>
          pure (results.flatMap DataItem.payload)) s := by
  have hensure : c.channel.ensureReady s = .ok () s := by
    rw [Channel.ensureReady, hready]
    rfl
  have hbudget : c.channel.pduBudget s = .ok (c.channel.budget s) s := rfl
  have hnone : ¬ address.area.holdsElements = true := by
    rw [harea]
    exact Bool.false_ne_true
  rw [readBytesAt, if_neg (Nat.ne_of_gt hcount)]
  dsimp only
  rw [if_neg hnone, bind_of_ok hensure, bind_of_ok hbudget]
  rfl

/-- Where a piece begins behind the area, reading is refused for an argument, and the state is as it
was: neither a reference was taken nor anything sent, as all items are made before the first is asked
for. -/
theorem readBytesAt_of_overruns {count : Nat} (hcount : 1 ≤ count)
    (h : Overruns address (readPiece (c.channel.budget s)) count) :
    ∃ cause, c.readBytesAt address count s = .error (.invalidArgument cause) s := by
  obtain ⟨cause, hcause⟩ := rangeItems_of_overruns h
  rw [readBytesAt_eq hready harea hcount, hcause]
  exact ⟨cause, rfl⟩

include hmake

/-- Where none does, the items of the pieces are read. -/
theorem readBytesAt_of_inside {count : Nat} (hcount : 1 ≤ count)
    (h : ¬ Overruns address (readPiece (c.channel.budget s)) count) :
    c.readBytesAt address count s =
      (Batch.readAll c.channel
          ((spans (readPiece (c.channel.budget s)) count).map (itemAt address)) >>=
        fun results => pure (results.flatMap DataItem.payload)) s := by
  rw [readBytesAt_eq hready harea hcount,
    rangeItems_of_inside hmake harea (readPiece_pos _) (readPiece_le _) h]
  rfl

/-- **A call that reads a range of bytes** does what `ReadsPieces` says, on any channel that is ready
and whose exchanges never end with a refusal. An item that is too large is refused by the plan, and
the pieces have been made so as not to be. -/
theorem readsPieces_readBytesAt (hexchange : ∀ message, Certain (c.channel.exchange message))
    {count : Nat} (hcount : 1 ≤ count) :
    ReadsPieces c address count (c.readBytesAt address count) s := by
  have hpiece := readPiece_pos (c.channel.budget s)
  have hshort := readPiece_le (c.channel.budget s)
  have hinside := readBytesAt_of_inside hready hmake harea hcount
  constructor
  · refine bounded_of hpiece hshort (readBytesAt_of_overruns hready harea hcount) fun hwithin => ?_
    have hne := List.map_eq_nil_iff (f := itemAt address).not.mpr (spans_ne_nil hpiece hcount)
    -- what is left to be refused are items that are too large, and the pieces are not
    have hrefusal := refusal_of_readAll hexchange hready hne _ (hinside hwithin)
    refine ⟨hrefusal.1, fun hleast => hrefusal.2 fun item hitem => ?_⟩
    obtain ⟨part, hpart, rfl⟩ := List.mem_map.mp hitem
    have hle := (mem_spans hpiece hpart).2.2
    exact fits_read hleast address ((Nat.add_le_add_right hle 18).trans (readPiece_add_le hleast))
  · intro hwithin
    have htiles := tiles_spans hpiece hshort fun part hpart =>
      Nat.not_lt.mp fun hout => hwithin ⟨part, hpart, hout⟩
    refine ⟨_, htiles, hinside hwithin, fun bytes s' hrun => ?_⟩
    rw [hinside hwithin] at hrun
    obtain ⟨results, middle, hread, hvalue⟩ := ok_of_bind hrun
    cases hvalue
    -- that all items were read with their bytes makes the payloads as long as the range
    have hfilled := filled_of_readAll (fun item hitem => ?_) hread
    · have hlength := htiles.length_payloads hfilled
      rw [Nat.zero_add] at hlength
      exact ⟨hlength, results, hread, hfilled, rfl⟩
    · obtain ⟨part, -, rfl⟩ := List.mem_map.mp hitem
      exact ⟨_, rfl⟩

end Ready

/-! ### Writing -/

/-- A piece to be written has a byte. -/
theorem writePiece_pos (budget : UInt16) : 0 < writePiece budget := by
  rw [writePiece]
  omega

/-- Its length is a number of 16 bits. -/
theorem writePiece_le (budget : UInt16) : writePiece budget ≤ 65535 := by
  have hlt := budget.toNat_lt
  rw [writePiece]
  omega

/-- A piece can be written with one message, if that can have 29 bytes, `28 + piece ≤ budget`: 10 of
the header, 2 of the function, 12 of the item and 4 in front of the data. -/
theorem fits_write {budget : UInt16} (hleast : 29 ≤ budget.toNat) {pair : RequestItem × DataItem}
    (h : pair ∈ writesAt address (writePiece budget) bytes) :
    (Batch.alone Batch.writeDemand pair).fits budget.toNat := by
  obtain ⟨hitem, -, hle⟩ := mem_writesAt (writePiece_pos budget) (writePiece_le budget) h
  have hroom : writePiece budget + 28 ≤ budget.toNat := by
    rw [writePiece]
    omega
  rw [Batch.fits_alone_iff Batch.alone_write, Batch.writeSizes]
  dsimp only
  omega

section Ready

variable (hready : c.channel.checkReady s = .ok ())
  (hmake : Address.make address.area address.block address.byte address.bit = .ok address)
  (harea : address.area.holdsElements = false)

include hready harea

/-- In an area of bytes, writing is writing the items of the range. -/
theorem writeBytesAt_eq (hbytes : bytes ≠ []) :
    c.writeBytesAt address bytes s =
      (Call.ofExcept ((rangeWrites address (writePiece (c.channel.budget s)) bytes).mapError
          .invalidArgument) >>= fun pairs =>
        Batch.writeAll c.channel (pairs.map Prod.fst) (pairs.map Prod.snd) >>= fun _ => pure ()) s := by
  have hensure : c.channel.ensureReady s = .ok () s := by
    rw [Channel.ensureReady, hready]
    rfl
  have hbudget : c.channel.pduBudget s = .ok (c.channel.budget s) s := rfl
  have hnone : ¬ address.area.holdsElements = true := by
    rw [harea]
    exact Bool.false_ne_true
  rw [writeBytesAt, if_neg hnone, if_neg hbytes, bind_of_ok hensure, bind_of_ok hbudget]
  rfl

/-- Where a piece begins behind the area, writing is refused. -/
theorem writeBytesAt_of_overruns (hbytes : bytes ≠ [])
    (h : Overruns address (writePiece (c.channel.budget s)) bytes.length) :
    ∃ cause, c.writeBytesAt address bytes s = .error (.invalidArgument cause) s := by
  obtain ⟨cause, hcause⟩ := rangeWrites_of_overruns (writePiece_pos _) h
  rw [writeBytesAt_eq hready harea hbytes, hcause]
  exact ⟨cause, rfl⟩

include hmake

/-- Where none does, the pieces are written. -/
theorem writeBytesAt_of_inside (hbytes : bytes ≠ [])
    (h : ¬ Overruns address (writePiece (c.channel.budget s)) bytes.length) :
    let pairs := writesAt address (writePiece (c.channel.budget s)) bytes
    c.writeBytesAt address bytes s =
      (Batch.writeAll c.channel (pairs.map Prod.fst) (pairs.map Prod.snd) >>= fun _ => pure ()) s := by
  intro pairs
  rw [writeBytesAt_eq hready harea hbytes,
    rangeWrites_of_inside hmake harea (writePiece_pos _) (writePiece_le _) h]
  rfl

end Ready

/-! ### Timers and counters -/

/-- The item for some bytes of timers or counters. -/
def elementsAt (address : Address) (count : Nat) : StandardItem :=
  { address := { address with bit := 0 }
    type := if address.area = .timer then .timer else .counter
    count := StandardItem.elementsFor (UInt16.ofNat count) }

/-- It asks for as many elements as have the bytes. -/
theorem count_elementsAt (address : Address) {count : Nat} (hshort : count ≤ 65535) :
    (elementsAt address count).count.toNat = (count + 1) / 2 := by
  have hcount : (UInt16.ofNat count).toNat = count :=
    UInt16.toNat_ofNat_of_lt' (Nat.lt_succ_of_le hshort)
  show (UInt16.ofNat (((UInt16.ofNat count).toNat + 1) / 2)).toNat = _
  rw [hcount]
  exact UInt16.toNat_ofNat_of_lt' (by rw [UInt16.size]; omega)

/-- The item that is made for 1 to 65535 bytes of timers or counters is `elementsAt address count`, of
the one type or the other after the area, without the bit of the address. -/
theorem bytes_eq_elementsAt (harea : address.area.holdsElements = true) {count : Nat}
    (hcount : 1 ≤ count) (hshort : count ≤ 65535) :
    StandardItem.bytes address (UInt16.ofNat count) = .ok (elementsAt address count) := by
  have helements : StandardItem.elementsFor (UInt16.ofNat count) ≠ 0 := by
    intro hzero
    have hnumber : (StandardItem.elementsFor (UInt16.ofNat count)).toNat = (count + 1) / 2 :=
      count_elementsAt address hshort
    rw [hzero, UInt16.toNat_zero] at hnumber
    omega
  have hbit : ¬ (0 : UInt8) > 7 := by decide
  unfold StandardItem.bytes elementsAt
  -- one case for timers, one for counters, and none for the areas of bytes
  split
  · next htimer =>
    dsimp only
    rw [StandardItem.make, if_neg helements, if_neg hbit, if_pos htimer]
  · next hcounter =>
    have hother : address.area ≠ .timer := by
      rw [hcounter]
      decide
    dsimp only
    rw [StandardItem.make, if_neg helements, if_neg hbit, if_neg hother]
  · next htimer hcounter =>
    cases hcase : address.area with
    | timer => exact absurd hcase htimer
    | counter => exact absurd hcase hcounter
    | input | output | marker | dataBlock =>
      rw [hcase] at harea
      cases harea

/-- What a call does that reads bytes of timers or counters. -/
structure ReadsElements (c : Client S) (address : Address) (count : Nat) (call : Call S Bytes)
    (s : S) : Prop where
  /-- It reads one item, with as many elements as have the bytes, and returns all bytes of them. -/
  single : count ≤ 65535 → (elementsAt address count).count.toNat = (count + 1) / 2 ∧
    call s = c.readItem (elementsAt address count) s ∧
    ∀ bytes s', call s = .ok bytes s' → bytes.length = 2 * ((count + 1) / 2)
  /-- More bytes than an item can be asked for are not read. -/
  many : 65535 < count → call s = .error (.invalidArgument (.elementsTooLong count)) s

/-- The payload of an item that was read alone is as long as was asked for, on any channel: an answer
with another length is not accepted. -/
theorem length_of_readItem {item : StandardItem} {s' : S} (h : c.readItem item s = .ok bytes s') :
    bytes.length = item.dataLength := by
  rw [readItem] at h
  obtain ⟨results, middle, hread, hvalue⟩ := ok_of_bind h
  have hfilled := filled_of_readAll (List.forall_mem_singleton.mpr ⟨item, rfl⟩) hread
  obtain ⟨result, hresult, rfl⟩ : ∃ result, item.dataLength = result.payload.length ∧
      results = [result] := by
    cases hfilled with
    | @cons _ result _ _ hfirst hrest =>
      cases hrest
      exact ⟨result, Option.some.inj hfirst, rfl⟩
  cases hvalue
  exact hresult.symm

/-- A call that reads bytes of timers or counters does what `ReadsElements` says, on any channel, and
also if that is not ready: it is then refused before anything is asked for. -/
theorem readsElements_readBytesAt (c : Client S) (harea : address.area.holdsElements = true)
    {count : Nat} (hcount : 1 ≤ count) (s : S) :
    ReadsElements c address count (c.readBytesAt address count) s := by
  -- a range of elements is one item, and is not divided
  have hcall : c.readBytesAt address count =
      if count > 65535 then throw (.invalidArgument (.elementsTooLong count)) else
        Call.ofExcept ((StandardItem.bytes address (UInt16.ofNat count)).mapError .invalidArgument) >>=
          c.readItem := by
    rw [readBytesAt, if_neg (Nat.ne_of_gt hcount)]
    dsimp only
    rw [if_pos harea]
    split <;> rfl
  constructor
  · intro hshort
    have hread : c.readBytesAt address count s = c.readItem (elementsAt address count) s := by
      rw [hcall, if_neg (Nat.not_lt.mpr hshort), bytes_eq_elementsAt harea hcount hshort]
      rfl
    have hnumber := count_elementsAt address hshort
    refine ⟨hnumber, hread, fun bytes s' hrun => ?_⟩
    have hsize : (elementsAt address count).type.byteSize = 2 := by
      unfold elementsAt
      dsimp only
      split <;> rfl
    rw [length_of_readItem (hread.symm.trans hrun), StandardItem.dataLength, hnumber, hsize,
      Nat.mul_comm]
  · intro hlong
    rw [hcall, if_pos hlong]
    rfl

end Client

/-! ## Sessions -/

namespace Station

variable {σ : Type}

end Station

end S7Comm
