import S7Comm.Proofs.Days
import S7Comm.Proofs.NumbersAndTexts

/-!
# Dates in two bytes

A DATE is the number of days since the first of January 1990, so that two bytes reach to the sixth of
June 2169. Reading counts days one after the other, and writing takes a difference of two sums over
years, months and days. By what is known of days, both say the same of two bytes: that the date comes
as many days after the first as they spell.

* `Payload.IsStored d`: the date is not before the first and not after the last that is stored; the
  same as `0 ≤ d.ordinal - epoch.ordinal ≤ 65535` (`Payload.isStored_iff`).
* `Payload.decodeDate_append`: `decodeDate (bytes ++ rest) = .ok (epoch.plus (spelled bytes))` for two
  bytes.
* `Payload.encodeDate_eq_ok_iff`: `encodeDate d = .ok bytes ↔ bytes.length = 2 ∧ epoch.plus (spelled
  bytes) = d`.

**Main result** (`Payload.dates_count_days`): all dates between the two ends are written, and none
that is before or after them, however far away it is; each pair of bytes is the code of one date;
later dates have larger codes; and codes that follow each other belong to dates that do
(`Calendar.Date.Consecutive`).
-/

namespace S7Comm

open Calendar Call

/-! ## Dates that follow each other -/

namespace Calendar.Date

/-- A date is later than another, and no date lies between them. -/
structure Consecutive (d e : Date) : Prop where
  /-- The one is later. -/
  precedes : d.Precedes e
  /-- Nothing lies between. -/
  gapless (between : Date) : ¬ (d.Precedes between ∧ between.Precedes e)

/-- Dates with consecutive numbers are consecutive. -/
theorem consecutive_of_ordinal {d e : Date} (h : e.ordinal = d.ordinal + 1) : d.Consecutive e := by
  constructor
  · rw [← ordinal_lt_iff]
    omega
  · intro between
    rw [← ordinal_lt_iff, ← ordinal_lt_iff]
    omega

end Calendar.Date

namespace Payload

variable {d : Date} {bytes : Bytes}

/-! ## The dates that are stored -/

/-- The first of January 1990, the first date that is stored. -/
def firstDate : Date :=
  Date.newYear 1990

/-- The sixth of June 2169, the last date that is stored. -/
def lastDate : Date where
  year := 2169
  month := 6
  day := 6
  month_mem := by decide
  day_mem := by decide

/-- A date is not before the first and not after the last date that is stored. -/
def IsStored (d : Date) : Prop :=
  ¬ d.Precedes firstDate ∧ ¬ lastDate.Precedes d

/-- These are the dates whose distance from the first fits two bytes. -/
theorem isStored_iff :
    IsStored d ↔ 0 ≤ d.ordinal - epoch.ordinal ∧ d.ordinal - epoch.ordinal ≤ 65535 := by
  -- Both ends are turned into numbers of days, between which only arithmetic is left.
  have hfirst : firstDate = epoch := rfl
  have hlast : lastDate.ordinal = epoch.ordinal + 65535 := by decide +kernel
  rw [IsStored, ← Date.ordinal_lt_iff, ← Date.ordinal_lt_iff, hfirst, hlast]
  omega

/-- They are the dates that come after the first by what two bytes spell. -/
theorem isStored_iff_exists :
    IsStored d ↔ ∃ bytes, bytes.length = 2 ∧ epoch.plus (spelled bytes) = d := by
  rw [isStored_iff]
  constructor
  · intro h
    let days := (d.ordinal - epoch.ordinal).toNat
    have hspelled : spelled (bigEndian 2 days) = days := by
      have hlt : days < capacity 2 := show days < 65536 by omega
      rw [spelled_bigEndian, Nat.mod_eq_of_lt hlt]
    refine ⟨bigEndian 2 days, length_bigEndian 2 days, ?_⟩
    rw [hspelled]
    exact Date.plus_of_le (by omega)
  · rintro ⟨bytes, hlength, rfl⟩
    have hlt : spelled bytes < 65536 := spelled_lt_of_length hlength
    rw [Date.ordinal_plus]
    omega

/-! ## Reading and writing -/

/-- What is read from two bytes is the date as many days after the first as they spell. -/
theorem decodeDate_append (h : bytes.length = 2) (rest : Bytes) :
    decodeDate (bytes ++ rest) = .ok (epoch.plus (spelled bytes)) := by
  have hdays : Numeric.decode UInt16 .big (bytes ++ rest) = .ok (UInt16.ofNat (spelled bytes)) :=
    Numeric.decode_append h rest
  have hlt : spelled bytes < UInt16.size := spelled_lt_of_length h
  rw [decodeDate, hdays, ← UInt16.toNat_ofNat_of_lt' hlt, UInt16.ofNat_toNat]
  rfl

/-- Two bytes are written for the date as many days after the first as they spell. -/
theorem encodeDate_plus (h : bytes.length = 2) :
    encodeDate (epoch.plus (spelled bytes)) = .ok bytes := by
  have hlt : spelled bytes < 65536 := spelled_lt_of_length h
  have hdays : (epoch.plus (spelled bytes)).ordinal - epoch.ordinal = spelled bytes := by
    rw [Date.ordinal_plus]
    omega
  have hrange : 0 ≤ (spelled bytes : Int) ∧ (spelled bytes : Int) ≤ 65535 := by omega
  have hcode : Numeric.encode .big (UInt16.ofNat (spelled bytes)) = bytes := Numeric.encode_ofBits h
  rw [encodeDate, hdays, if_pos hrange, Int.toNat_natCast, hcode]

/-- A date that is not stored is refused, and named. -/
theorem encodeDate_of_not_isStored (h : ¬ IsStored d) : encodeDate d = .error (.dateRange d) :=
  if_neg (mt isStored_iff.mpr h)

/-- What is written for a date spells how many days after the first it is, in two bytes. -/
theorem encodeDate_eq_ok_iff :
    encodeDate d = .ok bytes ↔ bytes.length = 2 ∧ epoch.plus (spelled bytes) = d := by
  constructor
  · intro h
    by_cases hstored : IsStored d
    · obtain ⟨written, hlength, rfl⟩ := isStored_iff_exists.mp hstored
      rw [encodeDate_plus hlength] at h
      cases h
      exact ⟨hlength, rfl⟩
    · rw [encodeDate_of_not_isStored hstored] at h
      cases h
  · rintro ⟨hlength, rfl⟩
    exact encodeDate_plus hlength

/-- **Dates and the two bytes of a DATE.**

* A date is written exactly if it is one from 1990-01-01 to 2169-06-06, and any other is refused and
  named, `.dateRange d`. Two bytes are written, and with whatever behind them the date is read back.
* A date is earlier than another exactly if its code spells the smaller number.
* Any two bytes are read, as a date that is stored and has them as its code.
* Where two bytes spell the number after that of two others, the one date is the day after the other,
  with none between them. -/
theorem dates_count_days :
    (∀ d : Date,
      ((∃ bytes, encodeDate d = .ok bytes) ↔ IsStored d) ∧
      (¬ IsStored d → encodeDate d = .error (.dateRange d)) ∧
      ∀ bytes, encodeDate d = .ok bytes →
        bytes.length = 2 ∧ ∀ rest, decodeDate (bytes ++ rest) = .ok d) ∧
    (∀ (d e : Date) (bytes later : Bytes), encodeDate d = .ok bytes → encodeDate e = .ok later →
      (d.Precedes e ↔ spelled bytes < spelled later)) ∧
    (∀ upper lower rest, ∃ d, decodeDate (upper :: lower :: rest) = .ok d ∧ IsStored d ∧
      encodeDate d = .ok [upper, lower]) ∧
    ∀ (bytes later rest rest' : Bytes) (d e : Date), bytes.length = 2 → later.length = 2 →
      decodeDate (bytes ++ rest) = .ok d → decodeDate (later ++ rest') = .ok e →
        spelled later = spelled bytes + 1 → d.Consecutive e := by
  refine ⟨fun d => ⟨?_, encodeDate_of_not_isStored, ?_⟩, ?_, ?_, ?_⟩
  · simp only [encodeDate_eq_ok_iff, isStored_iff_exists]
  · intro bytes hencode
    obtain ⟨hlength, rfl⟩ := encodeDate_eq_ok_iff.mp hencode
    exact ⟨hlength, decodeDate_append hlength⟩
  -- both are counted from the same day, so that the order is that of the numbers
  · intro d e bytes later hd he
    obtain ⟨-, rfl⟩ := encodeDate_eq_ok_iff.mp hd
    obtain ⟨-, rfl⟩ := encodeDate_eq_ok_iff.mp he
    rw [← Date.ordinal_lt_iff, Date.ordinal_plus, Date.ordinal_plus]
    omega
  · intro upper lower rest
    have hlength : [upper, lower].length = 2 := rfl
    exact ⟨_, decodeDate_append hlength rest, isStored_iff_exists.mpr ⟨_, hlength, rfl⟩,
      encodeDate_plus hlength⟩
  · intro bytes later rest rest' d e hbytes hlater hd he hsucc
    rw [decodeDate_append hbytes] at hd
    rw [decodeDate_append hlater] at he
    cases hd
    cases he
    apply Date.consecutive_of_ordinal
    rw [Date.ordinal_plus, Date.ordinal_plus, hsucc]
    omega

/-- The last day of February 2100, which is no leap year. -/
def lastOfFebruary : Date where
  year := 2100
  month := 2
  day := 28
  month_mem := by decide
  day_mem := by decide

/-- The first day of the month after. -/
def firstOfMarch : Date where
  year := 2100
  month := 3
  day := 1
  month_mem := by decide
  day_mem := by decide

/-- The two are consecutive, as are their codes; and four thousand years earlier nothing is stored. -/
theorem dates_count_days_century :
    decodeDate [0x9D, 0x2B, 0xFF] = .ok lastOfFebruary ∧
      lastOfFebruary.Consecutive firstOfMarch ∧
      (lastOfFebruary.Precedes firstOfMarch ↔ spelled [0x9D, 0x2B] < spelled [0x9D, 0x2C]) ∧
      encodeDate (Date.newYear (-1990)) = .error (.dateRange (Date.newYear (-1990))) := by
  obtain ⟨hdate, horder, -, hnext⟩ := dates_count_days
  have hfebruary : encodeDate lastOfFebruary = .ok [0x9D, 0x2B] := by decide +kernel
  have hmarch : encodeDate firstOfMarch = .ok [0x9D, 0x2C] := by decide +kernel
  have hlast := ((hdate lastOfFebruary).2.2 _ hfebruary).2
  have hfirst := ((hdate firstOfMarch).2.2 _ hmarch).2
  have hearly : (Date.newYear (-1990)).Precedes firstDate := .inl (by decide)
  exact ⟨hlast [0xFF], hnext _ _ [] [] _ _ rfl rfl (hlast []) (hfirst []) (by decide),
    horder _ _ _ _ hfebruary hmarch, (hdate _).2.1 fun h => h.1 hearly⟩

end Payload

end S7Comm
