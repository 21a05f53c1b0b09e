import S7Comm.Proofs.Days
import S7Comm.Proofs.NumbersAndTexts

/-!
# Moments in twelve bytes

A DTL has a field for each part of a moment, and one for the weekday.

* `Payload.field bytes offset width`: the number of a field. `Payload.Tells bytes m`: the fields are
  the parts of the moment `m`.
* `Payload.IsMoment bytes`: there are twelve bytes, and their fields name a day of the calendar and a
  time, of which only the last second of a minute can be a leap second. The weekday is passed over.
* `Payload.layout m`: the bytes of a moment, with the nanoseconds reduced to those of a second, which
  is `Calendar.DateTime.withoutLeap`; the form has no room for a leap second.

**Reading.** What is read from some bytes is the moment they tell, and nothing is read from bytes that
tell none (`Payload.decodeDateTime_eq_ok_iff`, `Payload.exists_tells_iff`).

**Writing.** What is written for a moment tells it again, but for the leap second
(`Payload.tells_layout`), and what was read is written as it was, but for the weekday and a leap
second (`Payload.layout_of_tells`).

**Main result** (`Payload.dateTime_round_trip`): the two ways put together.
-/

namespace S7Comm

open Calendar

/-! ## Without leap seconds -/

namespace Calendar

/-- The time within its second: a leap second repeats the second before it. -/
def TimeOfDay.withoutLeap (t : TimeOfDay) : TimeOfDay where
  hour := t.hour
  minute := t.minute
  second := t.second
  nanosecond := t.nanosecond % 1000000000
  hour_lt := t.hour_lt
  minute_lt := t.minute_lt
  second_lt := t.second_lt
  nanosecond_lt := Nat.lt_trans (Nat.mod_lt _ (by decide)) (by decide : 1000000000 < 2000000000)

/-- The moment within its second. -/
def DateTime.withoutLeap (m : DateTime) : DateTime :=
  { m with time := m.time.withoutLeap }

/-- Only leap seconds are changed. -/
theorem DateTime.withoutLeap_eq {m : DateTime} (h : m.time.nanosecond < 1000000000) :
    m.withoutLeap = m := by
  rcases m with ⟨date, ⟨hour, minute, second, nanosecond, _, _, _, _⟩⟩
  have hmod : nanosecond % 1000000000 = nanosecond := Nat.mod_eq_of_lt h
  simp only [withoutLeap, TimeOfDay.withoutLeap, hmod]

/-- A date is that of its year, month and day. -/
theorem Date.ofParts?_eq_some_iff {year : Int} {month day : Nat} {d : Date} :
    Date.ofParts? year month day = some d ↔ d.year = year ∧ d.month = month ∧ d.day = day := by
  constructor
  · intro h
    unfold Date.ofParts? at h
    split at h
    · split at h
      · cases h
        exact ⟨rfl, rfl, rfl⟩
      · cases h
    · cases h
  · rintro ⟨rfl, rfl, rfl⟩
    rw [Date.ofParts?, dif_pos d.month_mem, dif_pos d.day_mem]

/-- A time is put together of its hour, minute, second and nanosecond, unless it lies in a leap second
that is not at the end of a minute. -/
theorem TimeOfDay.ofParts?_eq_some_iff {hour minute second nanosecond : Nat} {t : TimeOfDay} :
    TimeOfDay.ofParts? hour minute second nanosecond = some t ↔
      (t.hour = hour ∧ t.minute = minute ∧ t.second = second ∧ t.nanosecond = nanosecond) ∧
        Proper second nanosecond := by
  constructor
  · intro h
    unfold TimeOfDay.ofParts? at h
    split at h
    · next hparts =>
      cases h
      exact ⟨⟨rfl, rfl, rfl, rfl⟩, hparts.2.2.2⟩
    · cases h
  · rintro ⟨⟨rfl, rfl, rfl, rfl⟩, hproper⟩
    rw [TimeOfDay.ofParts?, dif_pos ⟨t.hour_lt, t.minute_lt, t.second_lt, hproper⟩]

/-- Where there is no leap second, none is at the wrong place. -/
theorem TimeOfDay.proper_withoutLeap (t : TimeOfDay) :
    Proper t.withoutLeap.second t.withoutLeap.nanosecond :=
  .inl (Nat.mod_lt _ (by decide))

end Calendar

namespace Payload

/-! ## The fields

Twelve bytes are named once (`exists_fields`), and then fields are looked up in them; so no lemma
about reading has more than the fields to deal with.
-/

/-- The number that some bytes spell from an offset on. -/
def field (bytes : Bytes) (offset width : Nat) : Nat :=
  spelled ((bytes.drop offset).take width)

/-- The fields of some bytes are the parts of a moment. -/
structure Tells (bytes : Bytes) (m : DateTime) : Prop where
  /-- All fields are there. -/
  length : dateTimeLength ≤ bytes.length
  /-- The year is that of the first two bytes. -/
  year : m.date.year = field bytes 0 2
  /-- The month is that of the third. -/
  month : m.date.month = field bytes 2 1
  /-- The day is that of the fourth. -/
  day : m.date.day = field bytes 3 1
  /-- The hour stands behind the weekday. -/
  hour : m.time.hour = field bytes 5 1
  /-- The minute stands behind the hour. -/
  minute : m.time.minute = field bytes 6 1
  /-- The second stands behind the minute. -/
  second : m.time.second = field bytes 7 1
  /-- The nanoseconds are those of the last four bytes. -/
  nanosecond : m.time.nanosecond = field bytes 8 4

/-- The fields of some bytes are a day of the calendar and a time. -/
structure IsMoment (bytes : Bytes) : Prop where
  /-- All fields are there. -/
  length : dateTimeLength ≤ bytes.length
  /-- The month is one of twelve. -/
  month : 1 ≤ field bytes 2 1 ∧ field bytes 2 1 ≤ 12
  /-- The day is one of its month. -/
  day : 1 ≤ field bytes 3 1 ∧ field bytes 3 1 ≤ daysInMonth (field bytes 0 2) (field bytes 2 1)
  /-- A day has 24 hours. -/
  hour : field bytes 5 1 < 24
  /-- An hour has 60 minutes. -/
  minute : field bytes 6 1 < 60
  /-- A minute has 60 seconds. -/
  second : field bytes 7 1 < 60
  /-- The nanoseconds are those of a second, or of the last of a minute and a leap second. -/
  nanosecond : field bytes 8 4 < 1000000000 ∨ field bytes 7 1 = 59 ∧ field bytes 8 4 < 2000000000

/-- A byte spells its number. -/
theorem spelled_singleton (byte : UInt8) : spelled [byte] = byte.toNat := by
  simp [spelled]

/-- Two bytes spell the number of their word. -/
theorem toNat_word (upper lower : UInt8) : (word upper lower).toNat = spelled [upper, lower] := by
  have hupper := upper.toNat_lt
  have hlower := lower.toNat_lt
  have hlt : upper.toNat * 256 + lower.toNat < 65536 := by omega
  rw [word, UInt16.toNat_ofNat_of_lt' hlt]
  simp [spelled]

/-- Twelve bytes can be named. -/
theorem exists_fields {bytes : Bytes} (h : dateTimeLength ≤ bytes.length) :
    ∃ year₁ year₀ month day weekday hour minute second nano₃ nano₂ nano₁ nano₀ rest,
      bytes = year₁ :: year₀ :: month :: day :: weekday :: hour :: minute :: second ::
        nano₃ :: nano₂ :: nano₁ :: nano₀ :: rest := by
  unfold dateTimeLength at h
  rcases bytes with _ | ⟨year₁, _ | ⟨year₀, _ | ⟨month, _ | ⟨day, _ | ⟨weekday, _ | ⟨hour, _ |
    ⟨minute, _ | ⟨second, _ | ⟨nano₃, _ | ⟨nano₂, _ | ⟨nano₁, _ | ⟨nano₀, rest⟩⟩⟩⟩⟩⟩⟩⟩⟩⟩⟩⟩
  case cons.cons.cons.cons.cons.cons.cons.cons.cons.cons.cons.cons =>
    exact ⟨year₁, year₀, month, day, weekday, hour, minute, second, nano₃, nano₂, nano₁, nano₀, rest,
      rfl⟩
  all_goals simp at h

/-- The reader goes by the fields. -/
theorem decodeDateTime_of_length {bytes : Bytes} (h : dateTimeLength ≤ bytes.length) :
    decodeDateTime bytes =
      match Date.ofParts? (field bytes 0 2) (field bytes 2 1) (field bytes 3 1),
        TimeOfDay.ofParts? (field bytes 5 1) (field bytes 6 1) (field bytes 7 1)
          (field bytes 8 4) with
      | some date, some time => .ok ⟨date, time⟩
      | _, _ => .error (.invalidArgument .notDateTime) := by
  obtain ⟨year₁, year₀, month, day, weekday, hour, minute, second, nano₃, nano₂, nano₁, nano₀, rest,
    rfl⟩ := exists_fields h
  simp only [decodeDateTime, toNat_word, ← spelled_singleton]
  rfl

/-- Nothing is read from fewer than twelve bytes. -/
theorem length_of_decodeDateTime {bytes : Bytes} {m : DateTime} (h : decodeDateTime bytes = .ok m) :
    dateTimeLength ≤ bytes.length := by
  unfold decodeDateTime at h
  split at h
  · simp [dateTimeLength]
  · cases h

/-! ## Reading -/

/-- What is read is what the bytes tell, if they put a leap second where one can be. -/
theorem decodeDateTime_eq_ok_iff {bytes : Bytes} {m : DateTime} :
    decodeDateTime bytes = .ok m ↔
      Tells bytes m ∧ TimeOfDay.Proper m.time.second m.time.nanosecond := by
  constructor
  · intro h
    have hlength := length_of_decodeDateTime h
    rw [decodeDateTime_of_length hlength] at h
    split at h
    · next date time hdate htime =>
      cases h
      obtain ⟨hyear, hmonth, hday⟩ := Date.ofParts?_eq_some_iff.mp hdate
      obtain ⟨⟨hhour, hminute, hsecond, hnanosecond⟩, hproper⟩ :=
        TimeOfDay.ofParts?_eq_some_iff.mp htime
      refine ⟨⟨hlength, hyear, hmonth, hday, hhour, hminute, hsecond, hnanosecond⟩, ?_⟩
      rwa [hsecond, hnanosecond]
    · cases h
  · rintro ⟨h, hproper⟩
    have hdate := Date.ofParts?_eq_some_iff.mpr ⟨h.year, h.month, h.day⟩
    rw [h.second, h.nanosecond] at hproper
    have htime := TimeOfDay.ofParts?_eq_some_iff.mpr
      ⟨⟨h.hour, h.minute, h.second, h.nanosecond⟩, hproper⟩
    rw [decodeDateTime_of_length h.length, hdate, htime]

/-- Bytes tell a moment, with a leap second where one can be, if their fields are one. -/
theorem exists_tells_iff {bytes : Bytes} :
    (∃ m, Tells bytes m ∧ TimeOfDay.Proper m.time.second m.time.nanosecond) ↔ IsMoment bytes := by
  constructor
  · rintro ⟨m, h, hproper⟩
    have hday := m.date.day_mem
    rw [h.year, h.month, h.day] at hday
    rw [h.second, h.nanosecond] at hproper
    exact ⟨h.length, h.month ▸ m.date.month_mem, hday, h.hour ▸ m.time.hour_lt,
      h.minute ▸ m.time.minute_lt, h.second ▸ m.time.second_lt, hproper⟩
  · intro h
    have hproper : TimeOfDay.Proper (field bytes 7 1) (field bytes 8 4) := h.nanosecond
    exact ⟨⟨⟨field bytes 0 2, field bytes 2 1, field bytes 3 1, h.month, h.day⟩,
      ⟨field bytes 5 1, field bytes 6 1, field bytes 7 1, field bytes 8 4, h.hour, h.minute, h.second,
        hproper.lt⟩⟩, ⟨h.length, rfl, rfl, rfl, rfl, rfl, rfl, rfl⟩, hproper⟩

/-! ## Writing -/

/-- The bytes of a moment, whatever its year. -/
def layout (m : DateTime) : Bytes :=
  wordBytes (UInt16.ofNat m.date.year.toNat) ++
    [m.date.month, m.date.day, m.date.weekday, m.time.hour, m.time.minute, m.time.second].map
      UInt8.ofNat ++ bigEndian 4 (m.time.nanosecond % 1000000000)

/-- A moment is written if its year is one of those that are stored. -/
theorem encodeDateTime_eq_ok_iff {m : DateTime} {bytes : Bytes} :
    encodeDateTime m = .ok bytes ↔
      (1970 ≤ m.date.year ∧ m.date.year ≤ 2262) ∧ bytes = layout m := by
  unfold encodeDateTime
  dsimp only
  split
  · next hyear =>
    rw [and_iff_right hyear, Except.ok.injEq, eq_comm]
    rfl
  · next hyear => simp [hyear]

theorem length_layout (m : DateTime) : (layout m).length = dateTimeLength := by
  simp [layout, wordBytes, length_bigEndian, dateTimeLength]

/-- No month has more than 31 days. -/
theorem daysInMonth_le (year : Int) (month : Nat) : daysInMonth year month ≤ 31 := by
  unfold daysInMonth
  split
  · split <;> decide
  · decide
  · decide
  · decide
  · decide
  · decide

/-- What is written for a moment tells it, with or without bytes behind it, but for a leap second. -/
theorem tells_layout {m : DateTime} (hyear : 1970 ≤ m.date.year ∧ m.date.year ≤ 2262) (rest : Bytes) :
    Tells (layout m ++ rest) m.withoutLeap := by
  have hmonth := m.date.month_mem
  have hday := m.date.day_mem
  have hlong := daysInMonth_le m.date.year m.date.month
  have hhour := m.time.hour_lt
  have hminute := m.time.minute_lt
  have hsecond := m.time.second_lt
  have hbyte : ∀ n < 256, spelled [UInt8.ofNat n] = n := by
    intro n hn
    rw [spelled_singleton, UInt8.toNat_ofNat_of_lt' hn]
  have hword : ∀ w : UInt16, spelled (wordBytes w) = w.toNat := by
    intro w
    rw [wordBytes, ← toNat_word, word_wordBytes]
  -- every part but the year and the nanoseconds is a byte of its own
  refine ⟨?_, ?_, ?_, ?_, ?_, ?_, ?_, ?_⟩
  · rw [List.length_append, length_layout]
    exact Nat.le_add_right _ _
  · change m.date.year = (spelled (wordBytes _) : Nat)
    have hlt : m.date.year.toNat < 65536 := by omega
    rw [hword, UInt16.toNat_ofNat_of_lt' hlt]
    omega
  · exact (hbyte m.date.month (by omega)).symm
  · exact (hbyte m.date.day (by omega)).symm
  · exact (hbyte m.time.hour (by omega)).symm
  · exact (hbyte m.time.minute (by omega)).symm
  · exact (hbyte m.time.second (by omega)).symm
  · change m.time.nanosecond % 1000000000 = spelled (bigEndian 4 (m.time.nanosecond % 1000000000))
    have hcapacity : capacity 4 = 4294967296 := rfl
    rw [spelled_bigEndian, hcapacity]
    omega

/-- What was read is written as it was, but for the weekday and a leap second. -/
theorem layout_of_tells {bytes : Bytes} {m : DateTime} (h : Tells bytes m) :
    layout m = bytes.take 4 ++ UInt8.ofNat m.date.weekday :: (bytes.drop 5).take 3 ++
      bigEndian 4 (field bytes 8 4 % 1000000000) := by
  have hbyte : ∀ {n : Nat} {byte : UInt8}, n = spelled [byte] → UInt8.ofNat n = byte := by
    rintro n byte rfl
    rw [spelled_singleton, UInt8.ofNat_toNat]
  obtain ⟨year₁, year₀, month, day, weekday, hour, minute, second, nano₃, nano₂, nano₁, nano₀, rest,
    rfl⟩ := exists_fields h.length
  have hyear : UInt16.ofNat m.date.year.toNat = word year₁ year₀ := by
    have hfield : m.date.year = (spelled [year₁, year₀] : Nat) := h.year
    rw [hfield, Int.toNat_natCast, ← toNat_word, UInt16.ofNat_toNat]
  rw [layout, hyear, wordBytes_word, h.nanosecond]
  simp only [List.map_cons, List.map_nil, hbyte h.month, hbyte h.day, hbyte h.hour, hbyte h.minute,
    hbyte h.second]
  rfl

/-- **Moments and the twelve bytes of a DTL.**

* A moment is written exactly if its year is one from 1970 to 2262. Twelve bytes are written; read
  back, with whatever behind them, they yield the moment with its nanoseconds reduced to those of a
  second, `m.withoutLeap`, which is the moment itself unless it lies in a leap second. The fifth byte
  is the weekday, `(days + 4) % 7 + 1` for the date that comes `days` after the first of January 1970,
  a Thursday; so it counts from one for Sunday.
* Some bytes are read exactly if there are twelve and their fields are a day of the calendar and a
  time (`IsMoment`), and what is read has these parts (`Tells`).
* Written again, if its year permits, the bytes are as they were, except that the weekday is the one
  of the date and that the nanoseconds are reduced. -/
theorem dateTime_round_trip :
    (∀ m : DateTime,
      ((∃ bytes, encodeDateTime m = .ok bytes) ↔ 1970 ≤ m.date.year ∧ m.date.year ≤ 2262) ∧
      ∀ bytes, encodeDateTime m = .ok bytes →
        bytes.length = dateTimeLength ∧
        (∀ rest, decodeDateTime (bytes ++ rest) = .ok m.withoutLeap) ∧
        (m.time.nanosecond < 1000000000 → m.withoutLeap = m) ∧
        ∃ days, (Date.newYear 1970).plus days = m.date ∧
          bytes[4]? = some (UInt8.ofNat ((days + 4) % 7 + 1))) ∧
    ∀ bytes,
      ((∃ m, decodeDateTime bytes = .ok m) ↔ IsMoment bytes) ∧
      ∀ m, decodeDateTime bytes = .ok m →
        Tells bytes m ∧
        (1970 ≤ m.date.year → m.date.year ≤ 2262 →
          encodeDateTime m = .ok (bytes.take 4 ++ UInt8.ofNat m.date.weekday ::
            (bytes.drop 5).take 3 ++ bigEndian 4 (field bytes 8 4 % 1000000000))) := by
  refine ⟨fun m => ⟨?_, ?_⟩, fun bytes => ⟨?_, ?_⟩⟩
  · simp only [encodeDateTime_eq_ok_iff, exists_and_left, exists_eq, and_true]
  · intro bytes hencode
    obtain ⟨hyear, rfl⟩ := encodeDateTime_eq_ok_iff.mp hencode
    obtain ⟨days, hdays⟩ := Date.exists_plus_newYear hyear.1
    refine ⟨length_layout m, ?_, DateTime.withoutLeap_eq, days, hdays, ?_⟩
    · intro rest
      exact decodeDateTime_eq_ok_iff.mpr ⟨tells_layout hyear rest, m.time.proper_withoutLeap⟩
    · rw [← Date.weekday_plus_newYear, hdays]
      rfl
  · simp only [decodeDateTime_eq_ok_iff, exists_tells_iff]
  · intro m hdecode
    have htells := (decodeDateTime_eq_ok_iff.mp hdecode).1
    refine ⟨htells, ?_⟩
    intro hlow hhigh
    exact encodeDateTime_eq_ok_iff.mpr ⟨⟨hlow, hhigh⟩, (layout_of_tells htells).symm⟩

/-- The middle of the leap second at the end of 2016, a Saturday. -/
def leapSecond : DateTime where
  date := ⟨2016, 12, 31, by decide, by decide⟩
  time := ⟨23, 59, 59, 1500000000, by decide, by decide, by decide, by decide⟩

/-- It is written as the middle of the second before it, and that is read; with a wrong weekday it is
read as well, and the weekday is mended when it is written again. -/
theorem dateTime_round_trip_leapSecond :
    decodeDateTime [0x07, 0xE0, 12, 31, 7, 23, 59, 59, 0x1D, 0xCD, 0x65, 0x00, 0xFF] =
        .ok leapSecond.withoutLeap ∧
      encodeDateTime leapSecond.withoutLeap =
        .ok [0x07, 0xE0, 12, 31, 7, 23, 59, 59, 0x1D, 0xCD, 0x65, 0x00] := by
  have hencode : encodeDateTime leapSecond =
      .ok [0x07, 0xE0, 12, 31, 7, 23, 59, 59, 0x1D, 0xCD, 0x65, 0x00] := by
    decide +kernel
  have hdecode : decodeDateTime [0x07, 0xE0, 12, 31, 1, 23, 59, 59, 0x1D, 0xCD, 0x65, 0x00] =
      .ok leapSecond.withoutLeap := by
    decide +kernel
  have hagain := ((dateTime_round_trip.2 _).2 _ hdecode).2 (by decide) (by decide)
  exact ⟨((dateTime_round_trip.1 leapSecond).2 _ hencode).2.1 [0xFF], hagain.trans (by decide +kernel)⟩

end Payload

end S7Comm
