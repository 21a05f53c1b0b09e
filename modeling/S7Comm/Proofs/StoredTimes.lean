import S7Comm.Proofs.Moments
import S7Comm.Proofs.PartialSteps

/-!
# Times in four bytes

A TIME_OF_DAY is the number of milliseconds since midnight, a TIME a number of milliseconds with a
sign, and both take four bytes.

* `Calendar.TimeOfDay.truncated`, `Calendar.Duration.truncated`: what is finer than a millisecond is
  dropped on writing, and so is that a second is a leap second, at the end of a minute or within one.
* `Calendar.TimeOfDay.milliseconds_lt`: every time of day has fewer than 86400000 milliseconds, so
  that writing one cannot fail; but four bytes can spell more milliseconds than a day has.
* `Calendar.Duration.milliseconds_mem_iff`: with durations it is the other way round. Any four bytes
  are one, but of some durations the number of milliseconds needs more than four bytes. Parts of a
  millisecond are dropped toward zero before that is decided, so that a duration may go beyond the
  last number on either side by less than one.

**Main result** (`Payload.times_count_milliseconds`): both forms, in both directions. That no product
or sum on the way to the milliseconds needs more than four bytes is part of it
(`Calendar.TimeOfDay.millisecondSteps`).
-/

namespace S7Comm

open Calendar Call

namespace Calendar

/-! ## Times of day in milliseconds -/

namespace TimeOfDay

/-- The time at the beginning of its millisecond; a leap second repeats the second before it. -/
def truncated (t : TimeOfDay) : TimeOfDay where
  hour := t.hour
  minute := t.minute
  second := t.second
  nanosecond := t.nanosecond % 1000000000 / 1000000 * 1000000
  hour_lt := t.hour_lt
  minute_lt := t.minute_lt
  second_lt := t.second_lt
  nanosecond_lt := by omega

/-- No time has as many milliseconds as the day, not even in a leap second. -/
theorem milliseconds_lt (t : TimeOfDay) : t.milliseconds < millisecondsPerDay := by
  have hhour := t.hour_lt
  have hminute := t.minute_lt
  have hsecond := t.second_lt
  unfold milliseconds seconds millisecondsPerDay
  omega

/-- The milliseconds since midnight, step by step: what is multiplied and added is kept in four
bytes. -/
def millisecondSteps (t : TimeOfDay) : Partial Error Nat := do
  let whole ← Partial.times t.seconds 1000
  Partial.plus whole (t.nanosecond % 1000000000 / 1000000)

/-- Neither the product nor the sum exceeds a day, let alone four bytes. -/
theorem millisecondSteps_eq (t : TimeOfDay) :
    t.millisecondSteps = Partial.defined (.ok t.milliseconds) := by
  have hlt := t.milliseconds_lt
  have hday : millisecondsPerDay < capacity 4 := by decide
  have hsum : t.seconds * 1000 + t.nanosecond % 1000000000 / 1000000 < capacity 4 :=
    Nat.lt_trans hlt hday
  have hproduct : t.seconds * 1000 < capacity 4 :=
    Nat.lt_of_le_of_lt (Nat.le_add_right _ _) hsum
  rw [millisecondSteps, Partial.times_eq hproduct, pure_bind, Partial.plus_eq hsum]
  rfl

/-- The time that many milliseconds after midnight begins with its millisecond. -/
theorem ofMilliseconds_milliseconds (t : TimeOfDay) :
    ofMilliseconds t.milliseconds t.milliseconds_lt = t.truncated := by
  have hminute := t.minute_lt
  have hsecond := t.second_lt
  have hfraction : t.nanosecond % 1000000000 / 1000000 < 1000 := by omega
  simp only [ofMilliseconds, truncated, milliseconds, seconds, mk.injEq]
  omega

/-- It is as many milliseconds after midnight. -/
theorem milliseconds_ofMilliseconds {ms : Nat} (h : ms < millisecondsPerDay) :
    (ofMilliseconds ms h).milliseconds = ms := by
  unfold milliseconds seconds ofMilliseconds
  dsimp only
  omega

end TimeOfDay

/-! ## Durations in milliseconds -/

namespace Duration

/-- The duration without the part of a millisecond that it goes beyond the last whole one. -/
def truncated (d : Duration) : Duration where
  nanoseconds := d.nanoseconds - d.nanoseconds.tmod 1000000

/-- It is the duration of the whole milliseconds. -/
theorem ofMilliseconds_milliseconds (d : Duration) : ofMilliseconds d.milliseconds = d.truncated := by
  have hsplit := Int.tdiv_mul_add_tmod d.nanoseconds 1000000
  simp only [ofMilliseconds, milliseconds, truncated, mk.injEq]
  omega

/-- The whole milliseconds of some milliseconds are these. -/
theorem milliseconds_ofMilliseconds (ms : Int) : (ofMilliseconds ms).milliseconds = ms :=
  Int.mul_tdiv_cancel ms (by decide)

/-- A duration has a number of milliseconds with a sign and four bytes if it does not reach the next
number beyond either end. -/
theorem milliseconds_mem_iff (d : Duration) :
    -2147483648 ≤ d.milliseconds ∧ d.milliseconds ≤ 2147483647 ↔
      -2147483649000000 < d.nanoseconds ∧ d.nanoseconds < 2147483648000000 := by
  have hsign : Int.sign 1000000 = 1 := rfl
  -- Toward zero is downward, and one up from there where a part is lost of a negative number.
  rw [milliseconds, Int.tdiv_eq_ediv, hsign]
  split
  · omega
  · omega

end Duration

end Calendar

namespace Payload

variable {bytes : Bytes}

/-! ## Four bytes and a time of day -/

/-- What is written for a time spells its milliseconds, in four bytes. -/
theorem encodeTimeOfDay_eq_iff {t : TimeOfDay} :
    encodeTimeOfDay t = bytes ↔ bytes.length = 4 ∧ spelled bytes = t.milliseconds := by
  have hword : (UInt32.ofNat t.milliseconds).toNat = t.milliseconds :=
    UInt32.toNat_ofNat_of_lt' (Nat.lt_trans t.milliseconds_lt (by decide))
  have hcode : encodeTimeOfDay t = bytes ↔
      bytes.length = 4 ∧ spelled bytes = (UInt32.ofNat t.milliseconds).toNat :=
    Numeric.encode_eq_iff
  rwa [hword] at hcode

/-- Four bytes are read as the time after the milliseconds that they spell, if a day has as many. -/
theorem decodeTimeOfDay_append (h : bytes.length = 4) (rest : Bytes) :
    decodeTimeOfDay (bytes ++ rest) =
      if hday : spelled bytes < TimeOfDay.millisecondsPerDay then
        .ok (.ofMilliseconds (spelled bytes) hday)
      else .error (.invalidArgument (.notTimeOfDay (spelled bytes))) := by
  have hread : Numeric.decode UInt32 .big (bytes ++ rest) = .ok (UInt32.ofNat (spelled bytes)) :=
    Numeric.decode_append h rest
  have hword : (UInt32.ofNat (spelled bytes)).toNat = spelled bytes :=
    UInt32.toNat_ofNat_of_lt' (spelled_lt_of_length h)
  unfold decodeTimeOfDay
  rw [hread]
  -- The check is made on the number of the word that was read, which is the one that the bytes spell.
  change (if hday : (UInt32.ofNat (spelled bytes)).toNat < TimeOfDay.millisecondsPerDay then
      (.ok (.ofMilliseconds _ hday) : Except Error TimeOfDay)
    else .error (.invalidArgument (.notTimeOfDay (UInt32.ofNat (spelled bytes)).toNat))) = _
  rw [hword]

/-- What is read from four bytes is the time after the milliseconds that they spell. -/
theorem decodeTimeOfDay_eq_ok_iff (h : bytes.length = 4) {rest : Bytes} {t : TimeOfDay} :
    decodeTimeOfDay (bytes ++ rest) = .ok t ↔
      ∃ hday : spelled bytes < TimeOfDay.millisecondsPerDay,
        TimeOfDay.ofMilliseconds (spelled bytes) hday = t := by
  rw [decodeTimeOfDay_append h]
  split
  · next hday =>
    constructor
    · rintro ⟨⟩
      exact ⟨hday, rfl⟩
    · rintro ⟨_, rfl⟩
      rfl
  · next hday =>
    constructor
    · rintro ⟨⟩
    · rintro ⟨hless, -⟩
      exact absurd hless hday

/-- What is read from what was written for a time is the time, truncated. -/
theorem decodeTimeOfDay_encode (t : TimeOfDay) (rest : Bytes) :
    decodeTimeOfDay (encodeTimeOfDay t ++ rest) = .ok t.truncated := by
  obtain ⟨hlength, hspelled⟩ := encodeTimeOfDay_eq_iff.mp (Eq.refl (encodeTimeOfDay t))
  rw [decodeTimeOfDay_eq_ok_iff hlength]
  refine ⟨hspelled ▸ t.milliseconds_lt, ?_⟩
  rw [← t.ofMilliseconds_milliseconds]
  congr 1

/-! ## Four bytes and a duration -/

/-- The numbers with a sign that four bytes can hold. -/
theorem exists_toInt_iff {ms : Int} :
    (∃ value : Int32, value.toInt = ms) ↔ -2147483648 ≤ ms ∧ ms ≤ 2147483647 := by
  constructor
  · rintro ⟨value, rfl⟩
    exact ⟨value.le_toInt, Int.le_of_lt_add_one value.toInt_lt⟩
  · rintro ⟨hlow, hhigh⟩
    exact ⟨Int32.ofInt ms, Int32.toInt_ofInt_of_le hlow (Int.lt_add_one_of_le hhigh)⟩

/-- What is written for a duration is the code of its milliseconds. -/
theorem encodeTime_eq_ok_iff {d : Duration} :
    encodeTime d = .ok bytes ↔
      ∃ value : Int32, value.toInt = d.milliseconds ∧ Numeric.encode .big value = bytes := by
  constructor
  · intro h
    unfold encodeTime at h
    dsimp only at h
    split at h
    · next hrange =>
      cases h
      exact ⟨_, Int32.toInt_ofInt_of_le hrange.1 (Int.lt_add_one_of_le hrange.2), rfl⟩
    · cases h
  · rintro ⟨value, htoInt, rfl⟩
    have hrange := exists_toInt_iff.mp ⟨value, htoInt⟩
    rw [encodeTime, if_pos hrange, ← htoInt, Int32.ofInt_toInt]

/-- A duration is written if four bytes with a sign can hold the number of its milliseconds. -/
theorem exists_encodeTime_iff {d : Duration} :
    (∃ bytes, encodeTime d = .ok bytes) ↔
      -2147483648 ≤ d.milliseconds ∧ d.milliseconds ≤ 2147483647 := by
  simp only [← exists_toInt_iff, encodeTime_eq_ok_iff]
  constructor
  · rintro ⟨_, value, htoInt, -⟩
    exact ⟨value, htoInt⟩
  · rintro ⟨value, htoInt⟩
    exact ⟨_, value, htoInt, rfl⟩

/-- What is read behind the code of a number is the duration of as many milliseconds. -/
theorem decodeTime_encode (value : Int32) (rest : Bytes) :
    decodeTime (Numeric.encode .big value ++ rest) = .ok (.ofMilliseconds value.toInt) := by
  rw [decodeTime, Numeric.decode_encode_append]
  rfl

/-- **Times and their four bytes.**

* For every time of day, leap seconds included wherever they are, four bytes are written, and no
  product or sum on the way needs more. Whatever follows them, what is read back is `t.truncated`, the
  time without the part of a millisecond, and without the second that a leap second adds.
* Four bytes are read as a time of day exactly if they spell fewer than 86400000 milliseconds, and
  they are what is written for what was read.
* A duration is written exactly if its whole milliseconds, toward zero, are a number from -2³¹ to 2³¹
  - 1; that is, if `-2147483649000000 < d.nanoseconds < 2147483648000000`. Four bytes are written, and
  what is read back is `d.truncated`, the duration without the part of a millisecond.
* Any four bytes are read as a duration, and are written for it. -/
theorem times_count_milliseconds :
    (∀ t : TimeOfDay,
      t.millisecondSteps = Partial.defined (.ok t.milliseconds) ∧
      (encodeTimeOfDay t).length = 4 ∧
      ∀ rest, decodeTimeOfDay (encodeTimeOfDay t ++ rest) = .ok t.truncated) ∧
    (∀ bytes rest : Bytes, bytes.length = 4 →
      ((∃ t, decodeTimeOfDay (bytes ++ rest) = .ok t) ↔ spelled bytes < 86400000) ∧
      ∀ t, decodeTimeOfDay (bytes ++ rest) = .ok t → encodeTimeOfDay t = bytes) ∧
    (∀ d : Duration,
      ((∃ bytes, encodeTime d = .ok bytes) ↔
        -2147483648 ≤ d.milliseconds ∧ d.milliseconds ≤ 2147483647) ∧
      ((∃ bytes, encodeTime d = .ok bytes) ↔
        -2147483649000000 < d.nanoseconds ∧ d.nanoseconds < 2147483648000000) ∧
      ∀ bytes, encodeTime d = .ok bytes →
        bytes.length = 4 ∧ ∀ rest, decodeTime (bytes ++ rest) = .ok d.truncated) ∧
    ∀ bytes rest : Bytes, bytes.length = 4 →
      ∃ d, decodeTime (bytes ++ rest) = .ok d ∧ encodeTime d = .ok bytes := by
  refine ⟨?_, ?_, ?_, ?_⟩
  · intro t
    obtain ⟨hlength, -⟩ := encodeTimeOfDay_eq_iff.mp (Eq.refl (encodeTimeOfDay t))
    exact ⟨t.millisecondSteps_eq, hlength, decodeTimeOfDay_encode t⟩
  · intro bytes rest hlength
    simp only [decodeTimeOfDay_eq_ok_iff hlength]
    constructor
    · constructor
      · rintro ⟨t, hday, -⟩
        exact hday
      · intro hday
        exact ⟨_, hday, rfl⟩
    · rintro t ⟨hday, rfl⟩
      exact encodeTimeOfDay_eq_iff.mpr ⟨hlength, (TimeOfDay.milliseconds_ofMilliseconds hday).symm⟩
  · intro d
    refine ⟨exists_encodeTime_iff, ?_, ?_⟩
    · rw [exists_encodeTime_iff, Duration.milliseconds_mem_iff]
    · intro bytes hencode
      obtain ⟨value, htoInt, rfl⟩ := encodeTime_eq_ok_iff.mp hencode
      refine ⟨Numeric.length_encode .big value, fun rest => ?_⟩
      rw [decodeTime_encode, htoInt, Duration.ofMilliseconds_milliseconds]
  -- the duration is that of the number whose code the bytes are
  · intro bytes rest hlength
    let value : Int32 := Numeric.ofBits (spelled bytes)
    have hcode : Numeric.encode .big value = bytes := Numeric.encode_ofBits hlength
    refine ⟨.ofMilliseconds value.toInt, ?_, ?_⟩
    · rw [← hcode, decodeTime_encode]
    · have hms := Duration.milliseconds_ofMilliseconds value.toInt
      exact encodeTime_eq_ok_iff.mpr ⟨value, hms.symm, hcode⟩

/-- The middle of a leap second in the middle of a minute. -/
def leapWithinMinute : TimeOfDay :=
  { leapSecond.time with second := 30, second_lt := by decide }

/-- The longest duration backwards that is written, to the nanosecond. -/
def farthestBack : Duration where
  nanoseconds := -2147483648999999

/-- A leap second is stored as the second before it, at the end of a minute or within one; the
milliseconds of a whole day are no time of it; and a duration may go beyond the last whole millisecond,
by less than another. -/
theorem times_count_milliseconds_leapSecond :
    encodeTimeOfDay leapSecond.time.truncated = [0x05, 0x26, 0x5A, 0x0C] ∧
      decodeTimeOfDay [0x05, 0x25, 0xE8, 0xC4] = .ok leapWithinMinute.truncated ∧
      (¬ ∃ t, decodeTimeOfDay [0x05, 0x26, 0x5C, 0x00] = .ok t) ∧
      decodeTime [0x80, 0x00, 0x00, 0x00, 0xFF] = .ok farthestBack.truncated ∧
      ∃ d, decodeTime [0xFF, 0xFF, 0xFA, 0x24] = .ok d ∧
        encodeTime d = .ok [0xFF, 0xFF, 0xFA, 0x24] := by
  obtain ⟨htime, hread, hduration, hback⟩ := times_count_milliseconds
  have hleap : encodeTimeOfDay leapSecond.time = [0x05, 0x26, 0x5A, 0x0C] := by decide +kernel
  have hfarthest : encodeTime farthestBack = .ok [0x80, 0x00, 0x00, 0x00] := by decide +kernel
  have hwithin : encodeTimeOfDay leapWithinMinute = [0x05, 0x25, 0xE8, 0xC4] := by decide +kernel
  have hdecode := (htime leapSecond.time).2.2 []
  have hdecode' := (htime leapWithinMinute).2.2 []
  rw [hleap] at hdecode
  rw [hwithin] at hdecode'
  refine ⟨(hread _ [] rfl).2 _ hdecode, hdecode', ?_, ?_, hback [0xFF, 0xFF, 0xFA, 0x24] [] rfl⟩
  · exact mt (hread [0x05, 0x26, 0x5C, 0x00] [] rfl).1.mp (by decide)
  · exact ((hduration farthestBack).2.2 _ hfarthest).2 [0xFF]

end Payload

end S7Comm
