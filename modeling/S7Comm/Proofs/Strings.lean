import S7Comm.Proofs.MemoryPeer
import S7Comm.Proofs.NumbersAndTexts
import S7Comm.Proofs.Sufficiency

/-!
# Strings in a memory

A string stands in a memory behind a header: the last byte of the header is the number of characters,
and behind it are their codes. What else the header says is the controller's.

* `Memory.HoldsString m address header cs`: the byte at `header - 1` behind the address is the number
  of the characters `cs`, and from `header` on are their codes.
* `Client.readString_recalls`, `Client.readStringUpTo_recalls`, `Client.writeString_recalls`: the
  three operations over a channel to a memory. Writing begins with the last byte of the header,
  reading with the first; and reading asks for the header alone before it knows how much there is,
  unless it is told how much to ask for.
* `Client.writeString_refused`: texts that have no such codes, or too many characters, are refused
  before anything is sent.

**Main result** (`Station.strings_read_back`): that a string is read as it was written rests on what
is between the two, the memory. The session that writes and the one that reads need not be the same.

What is read from a memory to which something else was written is not dealt with here, except that
it never lacks bytes (`S7Comm.Proofs.Sufficiency`).
-/

namespace S7Comm

open Call

/-! ## Strings in a memory -/

/-- A string stands behind a header of the given length. -/
structure Memory.HoldsString (m : Memory) (address : Address) (header : Nat) (cs : List Char) :
    Prop where
  /-- The last byte of the header is the number of characters. -/
  length : m address.area address.block (address.byte.toNat + (header - 1)) = UInt8.ofNat cs.length
  /-- The characters are behind the header. -/
  characters : m.read address.area address.block (address.byte.toNat + header) cs.length =
    Latin1.codes cs

/-- What is written for a string: the number of its characters, and their codes. -/
def Latin1.counted (cs : List Char) : Bytes :=
  UInt8.ofNat cs.length :: codes cs

/-- A memory to which a string was written, from the last byte of the header on, holds it, whatever it
held before. The other bytes of the header are as they were. -/
theorem Memory.holdsString_write (m : Memory) (address : Address) {header : Nat} (h : 1 ≤ header)
    (cs : List Char) :
    (m.write address.area address.block (address.byte.toNat + (header - 1))
      (Latin1.counted cs)).HoldsString address header cs := by
  have hlength : (Latin1.counted cs).length = cs.length + 1 := by
    rw [Latin1.counted, List.length_cons, Latin1.length_codes]
  constructor
  · exact Memory.write_inside (i := 0) (by omega)
  · have hstart : address.byte.toNat + header = address.byte.toNat + (header - 1) + 1 := by omega
    rw [hstart, Memory.read_write (by omega), Latin1.counted, List.drop_one, List.tail_cons]
    exact List.take_of_length_le (Nat.le_of_eq (Latin1.length_codes cs))

namespace Client

variable {m : Memory} {address : Address} {header count : Nat} {cs : List Char}

/-- The number of characters is read from the header, whatever is read behind it: in any range of
`count ≥ header` bytes, if there are at most 254 characters, so that a byte tells their number. -/
theorem stringLength_of_holds (h : m.HoldsString address header cs) (hheader : 1 ≤ header)
    (hcount : header ≤ count) (hshort : cs.length ≤ maxStringLength) :
    stringLength (m.read address.area address.block address.byte.toNat count) header =
      .ok cs.length := by
  have hlast : header - 1 < count := by omega
  rw [stringLength, if_neg (Nat.ne_of_gt hheader), Memory.getElem?_read hlast, h.length]
  rw [maxStringLength] at hshort
  exact congrArg Except.ok (UInt8.toNat_ofNat_of_lt' (by rw [UInt8.size]; omega))

/-- Of the characters behind the header, the first `length` are read, if there are as many and the
range that was read reaches as far. They are Latin-1, so each has its byte. -/
theorem stringText_of_holds (h : m.HoldsString address header cs)
    (hlatin : ∀ c ∈ cs, c.toNat ≤ 255) {length : Nat} (hlength : length ≤ cs.length)
    (hcount : length ≤ count) :
    stringText (m.read address.area address.block address.byte.toNat (header + count)) header
      length = .ok (String.ofList (cs.take length)) := by
  have hroom : ¬ (m.read address.area address.block address.byte.toNat (header + count)).length <
      header + length := by
    rw [Memory.length_read]
    omega
  have hcodes : m.read address.area address.block (address.byte.toNat + header) length =
      Latin1.codes (cs.take length) := by
    rw [← Memory.take_read hlength, h.characters, Latin1.codes, Latin1.codes, List.map_take]
  rw [stringText, if_neg hroom, Memory.drop_read, Memory.take_read hcount, hcodes,
    Latin1.decode_codes fun c hc => hlatin c (List.mem_of_mem_take hc)]

/-! ## Reading and writing strings -/

/-- A place some bytes behind an address has its area and block, if it exists. -/
theorem exists_advance (hmake : Address.make address.area address.block address.byte address.bit =
    .ok address) {offset : Nat} (hinside : address.byte.toNat + offset ≤ maxByteOffset) :
    ∃ start, address.advance offset = .ok start ∧
      Address.make start.area start.block start.byte start.bit = .ok start ∧
      start.area = address.area ∧ start.block = address.block ∧
      start.byte.toNat = address.byte.toNat + offset := by
  have hadvance := advance_of_inside hmake hinside
  have hsmall : address.byte.toNat + offset < UInt32.size := Nat.lt_of_le_of_lt hinside (by decide)
  exact ⟨_, hadvance, Address.make_of_make hadvance, rfl, rfl, UInt32.toNat_ofNat_of_lt' hsmall⟩

/-- Where the address is understood, a text is encoded, and then written to where its number of
characters is. -/
theorem writeString_of_parse {S : Type} (c : Client S) {place : String}
    (hparse : Address.parse place = .ok address) (text : String) :
    c.writeString place text =
      (ofExcept ((Payload.encodeText text).mapError Error.invalidArgument) >>= fun payload =>
        if payload.length > maxStringLength then
          throw (.invalidArgument (.stringTooLong payload.length))
        else do
          let start ← address.advance (c.stringHeader - 1)
          c.writeBytesAt start (UInt8.ofNat payload.length :: payload)) := by
  rw [writeString, hparse]
  rfl

section Recalls

variable {S : Type} {c : Client S} {budget : UInt16} {memory : S → Memory} {good : S → Prop}
  {place : String} {s : S} (h : c.channel.Recalls budget memory good)
  (hparse : Address.parse place = .ok address) (harea : address.area.holdsElements = false)
  (hheader : 1 ≤ c.stringHeader) (hs : good s)

include h hparse harea hheader hs

/-- A string that the memory holds is read as it is: `String.ofList cs`, of at most 254 Latin-1
characters, if header and characters lie within what an address can have, and with an agreed length of
24 at least. It takes two readings, or one if the string is empty; the memory is the same afterwards.
-/
theorem readString_recalls (hbudget : 24 ≤ budget.toNat) (hshort : cs.length ≤ maxStringLength)
    (hlatin : ∀ c ∈ cs, c.toNat ≤ 255)
    (hinside : address.byte.toNat + c.stringHeader + cs.length ≤ maxByteOffset + 1)
    (hholds : (memory s).HoldsString address c.stringHeader cs) :
    ∃ s', c.readString place s = .ok (String.ofList cs) s' ∧ good s' ∧ memory s' = memory s := by
  have hmake := Address.make_of_parse hparse
  obtain ⟨s₁, hhead, hs₁, hm₁⟩ :=
    readBytesAt_recalls h hbudget hmake harea hheader (by omega) hs
  have hlength := stringLength_of_holds hholds hheader (Nat.le_refl _) hshort
  -- the header is read first, and then all of the string, if it is not empty
  have hrun : c.readString place s = (if cs.length = 0 then pure "" else do
      let bytes ← c.readBytesAt address (c.stringHeader + cs.length)
      stringText bytes c.stringHeader cs.length : Call S String) s₁ := by
    rw [readString, hparse]
    change (c.readBytesAt address c.stringHeader >>= _) s = _
    rw [bind_of_ok hhead, hlength]
    rfl
  by_cases hempty : cs = []
  · subst hempty
    exact ⟨s₁, hrun, hs₁, hm₁⟩
  · have hmore : 1 ≤ c.stringHeader + cs.length := Nat.le_add_right_of_le hheader
    obtain ⟨s₂, hbytes, hs₂, hm₂⟩ := readBytesAt_recalls h hbudget hmake harea hmore (by omega) hs₁
    have htext := stringText_of_holds hholds hlatin (Nat.le_refl _) (Nat.le_refl cs.length)
    rw [List.take_length] at htext
    rw [hm₁] at hbytes hm₂
    refine ⟨s₂, ?_, hs₂, hm₂⟩
    rw [hrun, if_neg (List.length_eq_zero_iff.not.mpr hempty), bind_of_ok hbytes, htext]
    rfl

/-- Of a string that the memory holds, the first `length` characters are read, `cs.take length`, for
`1 ≤ length ≤ 254`. Room for `length` characters has to exist, even if the string has fewer; what
stands behind the string is read too, and not looked at. -/
theorem readStringUpTo_recalls (hbudget : 24 ≤ budget.toNat) (hshort : cs.length ≤ maxStringLength)
    (hlatin : ∀ c ∈ cs, c.toNat ≤ 255) {length : Nat} (hpos : 1 ≤ length)
    (hmost : length ≤ maxStringLength)
    (hinside : address.byte.toNat + c.stringHeader + length ≤ maxByteOffset + 1)
    (hholds : (memory s).HoldsString address c.stringHeader cs) :
    ∃ s', c.readStringUpTo place length s = .ok (String.ofList (cs.take length)) s' ∧ good s' ∧
      memory s' = memory s := by
  have hmore : 1 ≤ c.stringHeader + length := Nat.le_add_right_of_le hheader
  obtain ⟨s', hbytes, hs', hm'⟩ :=
    readBytesAt_recalls h hbudget (Address.make_of_parse hparse) harea hmore (by omega) hs
  have hlength := stringLength_of_holds hholds hheader (Nat.le_add_right c.stringHeader length) hshort
  have htext := stringText_of_holds hholds hlatin (Nat.min_le_left cs.length length)
    (Nat.min_le_right cs.length length)
  have htake : cs.take (min cs.length length) = cs.take length := by
    rw [Nat.min_comm, ← List.take_take, List.take_length]
  have hbounds : ¬ (length = 0 ∨ length > maxStringLength) := by omega
  refine ⟨s', ?_, hs', hm'⟩
  rw [readStringUpTo, if_neg hbounds, hparse]
  change (c.readBytesAt address (c.stringHeader + length) >>= _) s = _
  rw [bind_of_ok hbytes, hlength]
  change (ofExcept ((stringText _ _ _).mapError .insufficientData)) s' = _
  rw [htext, htake]
  rfl

/-- A string is written to the last byte of its header and behind it, as one range of `text.length +
1` bytes; the memory is `(memory s).write … (Latin1.counted text.toList)` afterwards. For texts of at
most 254 Latin-1 characters, and with an agreed length of 29 at least. -/
theorem writeString_recalls (hbudget : 29 ≤ budget.toNat) {text : String}
    (hshort : text.length ≤ maxStringLength) (hlatin : ∀ c ∈ text.toList, c.toNat ≤ 255)
    (hinside : address.byte.toNat + c.stringHeader + text.length ≤ maxByteOffset + 1) :
    ∃ s', c.writeString place text s = .ok () s' ∧ good s' ∧
      memory s' = (memory s).write address.area address.block
        (address.byte.toNat + (c.stringHeader - 1)) (Latin1.counted text.toList) := by
  have hlength : (Latin1.codes text.toList).length = text.length := by
    rw [Latin1.length_codes, String.length_toList]
  have hcounted : (Latin1.counted text.toList).length = text.length + 1 := by
    rw [Latin1.counted, List.length_cons, hlength]
  have hne : Latin1.counted text.toList ≠ [] := List.cons_ne_nil _ _
  have hfew : (Latin1.counted text.toList).length ≤ TransportSize.byte.maxLength := by
    rw [hcounted]
    exact (Nat.succ_le_succ hshort).trans (by decide)
  have hlast : address.byte.toNat + (c.stringHeader - 1) ≤ maxByteOffset := by omega
  -- the range that is written begins with the last byte of the header
  obtain ⟨start, hadvance, hmake, hsame, hblock, hbyte⟩ :=
    exists_advance (Address.make_of_parse hparse) hlast
  rw [← hsame] at harea
  obtain ⟨s', hwrite, hs', hmemory⟩ :=
    writeBytesAt_recalls h hbudget hmake harea hne hfew (by omega) hs
  rw [hsame, hblock, hbyte] at hmemory
  refine ⟨s', ?_, hs', hmemory⟩
  have hpayload : ¬ (Latin1.codes text.toList).length > maxStringLength := by omega
  rw [writeString_of_parse c hparse, Payload.encodeText, Latin1.encode_eq_codes hlatin]
  change (if (Latin1.codes text.toList).length > maxStringLength then _ else _ : Call S Unit) s = _
  rw [if_neg hpayload, hadvance, Latin1.length_codes]
  exact hwrite

end Recalls

/-- A text with a character that is not Latin-1, or with more than 254 characters, is refused for its
argument, and nothing is done, on any channel and in any state. The text is looked at before the
channel is. -/
theorem writeString_refused {S : Type} (c : Client S) {place text : String}
    (hparse : Address.parse place = .ok address)
    (h : maxStringLength < text.length ∨ ∃ ch ∈ text.toList, 255 < ch.toNat) (s : S) :
    ∃ cause, c.writeString place text s = .error (.invalidArgument cause) s := by
  rw [writeString_of_parse c hparse, Payload.encodeText]
  cases hencode : Latin1.encode text with
  | error ch => exact ⟨_, rfl⟩
  | ok payload =>
    have hlong : payload.length > maxStringLength := by
      rcases h with hlong | ⟨ch, hmem, hlarge⟩
      · rw [Latin1.length_of_encode hencode]
        exact hlong
      · obtain ⟨_, herror⟩ := Latin1.exists_error_of_encode hmem hlarge
        cases herror.symm.trans hencode
    change ∃ cause, (if payload.length > maxStringLength then _ else _ : Call S Unit) s = _
    rw [if_pos hlong]
    exact ⟨_, rfl⟩

end Client

/-! ## Sessions -/

namespace Station

variable {σ : Type}

/-- A session that is ready, and quiet, on a connection to a controller with a memory. The agreed
length is at least 29. -/
structure OnMemory (peer : Peer σ) (memory : σ → Memory) (st : Station σ) : Prop where
  /-- Nothing has arrived that was not read. -/
  quiet : st.Quiet
  /-- A byte can be written. -/
  room : 29 ≤ st.session.pduLength.toNat
  /-- The controller has a memory, and answers within the agreed length. -/
  remembers : peer.Remembers st.session.pduLength memory

/-- What the controller has in its memory. -/
def memoryOf (memory : σ → Memory) (st : Station σ) : Memory :=
  memory st.network.peer

/-- A call ends with a value, on a session to the same controller, whose memory is then as given. -/
def Leaves {α : Type} (peer : Peer σ) (memory : σ → Memory) (call : Call (Station σ) α) (value : α)
    (m : Memory) (st : Station σ) : Prop :=
  ∃ after, call st = .ok value after ∧ OnMemory peer memory after ∧ memoryOf memory after = m

/-- What is left of the channel to the memory is a session on the memory. -/
theorem OnMemory.leaves {α : Type} {peer : Peer σ} {memory : σ → Memory}
    {call : Call (Station σ) α} {value : α} {m : Memory} {st : Station σ}
    (hst : OnMemory peer memory st)
    (h : ∃ after, call st = .ok value after ∧
      (after.Quiet ∧ after.session.pduLength = st.session.pduLength) ∧
      memory after.network.peer = m) : Leaves peer memory call value m st := by
  obtain ⟨after, hrun, ⟨hquiet, hlength⟩, hmemory⟩ := h
  refine ⟨after, hrun, ⟨hquiet, ?_, ?_⟩, hmemory⟩
  · rw [hlength]
    exact hst.room
  · rw [hlength]
    exact hst.remembers

/-- **Strings are read back as they were written.** Against a controller that keeps what is written to
it (`Peer.Remembers`), whatever its family, with an agreed length of at least 29, whatever the memory
before, at an address in an area of bytes. Let `header` be the length of the header, and `counted =
address.byte + (header - 1)`.

* A text of at most 254 Latin-1 characters, which does not reach out of the area, is written: from
  `counted` on stand its number of characters and their codes, and no other byte of the memory has
  changed.
* A session that finds this memory reads the text. It reads as many of its characters as it has, or as
  are asked for, `text.toList.take length`, for `1 ≤ length ≤ 254` as far as this does not reach out
  of the area either.
* A text with other characters, or with more, is refused for its argument, and nothing is done. -/
theorem strings_read_back {peer : Peer σ} {memory : σ → Memory} (options : Options) {place : String}
    {address : Address} (hparse : Address.parse place = .ok address) :
    let c := Client.ofPeer peer options
    let header := options.profile.stringHeaderLength.toNat
    let counted := address.byte.toNat + (header - 1)
    (address.area.holdsElements = false → ∀ text : String, text.length ≤ 254 →
      (∀ ch ∈ text.toList, ch.toNat ≤ 255) →
      address.byte.toNat + header + text.length ≤ maxByteOffset + 1 →
      ∀ st : Station σ, OnMemory peer memory st → ∃ m : Memory,
        Leaves peer memory (c.writeString place text) () m st ∧
        m.read address.area address.block counted (1 + text.length) =
          UInt8.ofNat text.length :: text.toList.map (fun ch => UInt8.ofNat ch.toNat) ∧
        (∀ area block i, (area = address.area → block = address.block → counted ≤ i →
            counted + 1 + text.length ≤ i) →
          m area block i = memoryOf memory st area block i) ∧
        ∀ later : Station σ, OnMemory peer memory later → memoryOf memory later = m →
          Leaves peer memory (c.readString place) text m later ∧
          ∀ length, 1 ≤ length → length ≤ 254 →
            address.byte.toNat + header + length ≤ maxByteOffset + 1 →
            Leaves peer memory (c.readStringUpTo place length)
              (String.ofList (text.toList.take length)) m later) ∧
    (∀ text : String, 254 < text.length ∨ (∃ ch ∈ text.toList, 255 < ch.toNat) →
      ∀ st : Station σ, ∃ cause,
        c.writeString place text st = .error (.invalidArgument cause) st) := by
  intro c header counted
  have hheader : 1 ≤ c.stringHeader := options.family.stringHeaderLength_pos
  refine ⟨fun harea text hshort hlatin hinside st hst => ?_, fun text h st => ?_⟩
  · have hchars : text.toList.length = text.length := String.length_toList
    have hbytes : (Latin1.counted text.toList).length = 1 + text.length := by
      rw [Latin1.counted, List.length_cons, Latin1.length_codes, hchars, Nat.add_comm]
    -- the memory after writing, of which the rest is said
    refine ⟨(memoryOf memory st).write address.area address.block counted
      (Latin1.counted text.toList), hst.leaves ?_, ?_, ?_, ?_⟩
    · exact Client.writeString_recalls (channel_recalls hst.remembers) hparse harea hheader
        ⟨hst.quiet, rfl⟩ hst.room hshort hlatin hinside
    · rw [← hbytes, Memory.read_written, Latin1.counted, hchars]
      rfl
    · intro area block i houtside
      refine Memory.write_outside fun harea hblock hi => ?_
      rw [hbytes, ← Nat.add_assoc]
      exact houtside harea hblock hi
    -- another session may be the reader, as the memory is all that is needed
    · intro later hlater hfound
      have hholds : (memoryOf memory later).HoldsString address c.stringHeader text.toList := by
        rw [hfound]
        exact Memory.holdsString_write _ address hheader text.toList
      have hrecalls := channel_recalls hlater.remembers
      have hgood : later.Quiet ∧ later.session.pduLength = later.session.pduLength :=
        ⟨hlater.quiet, rfl⟩
      have hbudget : 24 ≤ later.session.pduLength.toNat := Nat.le_trans (by decide) hlater.room
      rw [← hfound]
      refine ⟨hlater.leaves ?_, fun length hpos hmost hreach => hlater.leaves ?_⟩
      · have hread := Client.readString_recalls hrecalls hparse harea hheader hgood hbudget
          (hchars.trans_le hshort) hlatin (hchars ▸ hinside) hholds
        rw [String.ofList_toList] at hread
        exact hread
      · exact Client.readStringUpTo_recalls hrecalls hparse harea hheader hgood hbudget
          (hchars.trans_le hshort) hlatin hpos hmost hreach hholds
  · exact Client.writeString_refused c hparse h st

/-- Five characters, with messages of 29 bytes, so that each byte is written on its own; and a
character that has no code. -/
theorem strings_read_back_umlaut :
    let options := Options.ofFamily "plc" .s71500
    let before : Memory := fun _ _ i => UInt8.ofNat i
    let st : Station Memory :=
      { session := { options, state := .ready, stream? := some .fresh, pduLength := 29 }
        network := { peer := before, sent := [] } }
    let c := Client.ofPeer Peer.withMemory options
    OnMemory Peer.withMemory id st ∧
      (∃ m : Memory, Leaves Peer.withMemory id (c.writeString "DB1.DBB8" "Grüße") () m st ∧
        m.read .dataBlock 1 8 8 = [8, 5, 71, 114, 252, 223, 101, 15] ∧
        ∃ later, OnMemory Peer.withMemory id later ∧ memoryOf id later = m ∧
          Leaves Peer.withMemory id (c.readString "DB1.DBB8") "Grüße" m later ∧
          Leaves Peer.withMemory id (c.readStringUpTo "DB1.DBB8" 3) "Grü" m later) ∧
      ∃ cause, c.writeString "DB1.DBB8" "5 €" st = .error (.invalidArgument cause) st := by
  intro options before st c
  let address : Address := { area := .dataBlock, block := 1, byte := 8, bit := 0 }
  have hparse : Address.parse "DB1.DBB8" = .ok address := by decide +kernel
  have hst : OnMemory Peer.withMemory id st :=
    ⟨⟨rfl, rfl⟩, by decide, Peer.withMemory_remembers (by decide)⟩
  have hchars : "Grüße".toList = ['G', 'r', 'ü', 'ß', 'e'] := by decide
  have hlatin : ∀ ch ∈ "Grüße".toList, ch.toNat ≤ 255 := by
    rw [hchars]
    simp
  obtain ⟨hwrites, hrefuses⟩ :=
    @strings_read_back _ Peer.withMemory id options "DB1.DBB8" address hparse
  obtain ⟨m, hwritten, hinside, houtside, hread⟩ :=
    hwrites rfl "Grüße" (by decide) hlatin (by decide) st hst
  refine ⟨hst, ⟨m, hwritten, ?_, ?_⟩, ?_⟩
  · -- a byte of the header in front, the number and the characters, and a byte behind them
    have hfront : m .dataBlock 1 8 = 8 := houtside .dataBlock 1 8 (fun _ _ h => absurd h (by decide))
    have hbehind : m .dataBlock 1 15 = 15 := houtside .dataBlock 1 15 (fun _ _ _ => by decide)
    have hstring : m.read .dataBlock 1 9 6 = [5, 71, 114, 252, 223, 101] :=
      hinside.trans (by decide)
    rw [m.read_add .dataBlock 1 8 1 7, m.read_add .dataBlock 1 9 6 1, hstring]
    change m .dataBlock 1 8 :: ([5, 71, 114, 252, 223, 101] ++ [m .dataBlock 1 15]) = _
    rw [hfront, hbehind]
    rfl
  · obtain ⟨later, -, hlater, hfound⟩ := hwritten
    obtain ⟨hwhole, hpart⟩ := hread later hlater hfound
    have hthree : String.ofList ("Grüße".toList.take 3) = "Grü" := by decide
    refine ⟨later, hlater, hfound, hwhole, ?_⟩
    rw [← hthree]
    exact hpart 3 (by decide) (by decide) (by decide)
  · exact hrefuses "5 €" (.inr ⟨'€', by decide, by decide⟩) st

end Station

end S7Comm
