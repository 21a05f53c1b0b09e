import Mathlib.Order.Monotone.Basic
import S7Comm.Calendar.Date

/-!
# Days and their numbers

Dates are counted in two ways: day after day (`Date.next`, `Date.plus`), which is the calendar itself,
and in one sum over years, months and days (`Date.ordinal`), which is what is computed with. Years are
integers, without a first or a last one. Here the two ways are tied together.

* `Date.ordinal_next`: `d.next.ordinal = d.ordinal + 1`. This rests on the two closed forms: a year is
  as long as the days before the year after it exceed those before it, and so is a month
  (`daysBeforeYear_succ`, `daysBeforeMonth_succ`).
* `Date.ordinal_lt_iff`: earlier dates have smaller numbers, so that a number has one date
  (`Date.ordinal_injective`).
* `Date.plus_of_le`: hence the days after a date are the dates with the numbers after its own, `d.plus
  (e.ordinal - d.ordinal) = e`, and their weekdays follow each other (`Date.weekday_plus_newYear`).
-/

namespace S7Comm.Calendar

/-! ## The lengths of years and months -/

/-- Days of a year. -/
def daysInYear (year : Int) : Nat :=
  if isLeap year then 366 else 365

/-- A quotient grows where the divisor is met. -/
theorem ediv_eq_pred_ediv_add (n : Int) {d : Int} (hd : d = 4 ∨ d = 100 ∨ d = 400) :
    n / d = (n - 1) / d + if n % d = 0 then 1 else 0 := by
  rcases hd with rfl | rfl | rfl
  all_goals split <;> omega

/-- The years follow each other, each as long as it is. -/
theorem daysBeforeYear_succ (year : Int) :
    daysBeforeYear (year + 1) = daysBeforeYear year + daysInYear year := by
  have hfour := ediv_eq_pred_ediv_add year (.inl rfl)
  have hcentury := ediv_eq_pred_ediv_add year (.inr (.inl rfl))
  have hcycle := ediv_eq_pred_ediv_add year (.inr (.inr rfl))
  have hleap : isLeap year = true ↔ year % 4 = 0 ∧ (year % 100 ≠ 0 ∨ year % 400 = 0) := by
    simp [isLeap]
  unfold daysBeforeYear daysInYear
  rw [Int.add_sub_cancel, hfour, hcentury, hcycle]
  -- The remainders by 4, 100 and 400 are tied, so only four of the cases can happen.
  by_cases h : isLeap year = true
  · have := hleap.mp h
    rw [if_pos h]
    split <;> split <;> split <;> omega
  · have := mt hleap.mpr h
    rw [if_neg h]
    split <;> split <;> split <;> omega

/-- The months of a year fill it. -/
theorem daysBeforeMonth_december (year : Int) :
    daysBeforeMonth year 12 + daysInMonth year 12 = daysInYear year := by
  unfold daysInYear
  by_cases h : isLeap year = true
  · simp [daysBeforeMonth, daysInMonth, h]
  · simp [daysBeforeMonth, daysInMonth, h]

/-- The months follow each other, each as long as it is. -/
theorem daysBeforeMonth_succ (year : Int) {month : Nat} (h : 1 ≤ month) :
    daysBeforeMonth year (month + 1) = daysBeforeMonth year month + daysInMonth year month := by
  obtain ⟨before, rfl⟩ := Nat.exists_eq_add_of_le' h
  rfl

/-- Later months begin later. -/
theorem daysBeforeMonth_mono (year : Int) : Monotone (daysBeforeMonth year) := by
  apply monotone_nat_of_le_succ
  intro month
  rcases month with _ | month
  · exact Nat.le_refl 0
  · exact Nat.le_add_right _ _

/-- Later years begin later. -/
theorem daysBeforeYear_mono {year later : Int} (h : year ≤ later) :
    daysBeforeYear year ≤ daysBeforeYear later := by
  have hmono : Monotone daysBeforeYear := by
    apply monotone_int_of_le_succ
    intro year
    rw [daysBeforeYear_succ]
    exact Int.le_add_of_nonneg_right (Int.natCast_nonneg _)
  exact hmono h

namespace Date

/-! ## The next day -/

/-- The number of the first day of a year. -/
theorem ordinal_newYear (year : Int) : (newYear year).ordinal = daysBeforeYear year + 1 := by
  simp [ordinal, newYear, daysBeforeMonth]

/-- The day after has the number after. -/
theorem ordinal_next (d : Date) : d.next.ordinal = d.ordinal + 1 := by
  have hmonth := d.month_mem
  have hday := d.day_mem
  unfold next
  split
  · simp only [ordinal]
    omega
  · next hlast =>
    split
    · -- The first of a month comes after the last day of the month before.
      have hsucc := daysBeforeMonth_succ d.year hmonth.1
      simp only [ordinal, hsucc]
      omega
    · -- New year comes after the last day of December.
      have hdecember : d.month = 12 := by omega
      have hfill := daysBeforeMonth_december d.year
      rw [hdecember] at hlast hday
      rw [ordinal_newYear, daysBeforeYear_succ, ordinal, hdecember]
      omega

/-- The number of a day grows with the days that pass. -/
theorem ordinal_plus (d : Date) (days : Nat) : (d.plus days).ordinal = d.ordinal + days := by
  induction days generalizing d with
  | zero => simp [plus]
  | succ days ih =>
    rw [plus, ih, ordinal_next]
    omega

/-! ## The order of dates

The order is that of the parts, year before month before day, and says nothing of numbers; so that the
codes of dates are in their order is a fact about the closed forms.
-/

/-- A date is earlier than another: by its year, in one year by its month, in one month by its day. -/
def Precedes (d e : Date) : Prop :=
  d.year < e.year ∨ d.year = e.year ∧ (d.month < e.month ∨ d.month = e.month ∧ d.day < e.day)

/-- Of two different dates one is earlier. -/
theorem precedes_trichotomy (d e : Date) : d.Precedes e ∨ d = e ∨ e.Precedes d := by
  rcases d with ⟨year, month, day, _, _⟩
  rcases e with ⟨year', month', day', _, _⟩
  simp only [Precedes, mk.injEq]
  omega

/-- No day of a year lies beyond it. -/
theorem ordinal_le_daysBeforeYear (d : Date) : d.ordinal ≤ daysBeforeYear (d.year + 1) := by
  have hmonth := d.month_mem
  have hday := d.day_mem
  have hsucc := daysBeforeMonth_succ d.year hmonth.1
  have hmono := daysBeforeMonth_mono d.year (Nat.succ_le_succ hmonth.2)
  have hfill := daysBeforeMonth_december d.year
  have hend := daysBeforeMonth_succ d.year (by decide : 1 ≤ 12)
  rw [daysBeforeYear_succ, ordinal]
  simp only [Nat.succ_eq_add_one] at hmono
  omega

/-- Every day of a year lies behind those before it. -/
theorem daysBeforeYear_lt_ordinal (d : Date) : daysBeforeYear d.year < d.ordinal := by
  have hday := d.day_mem
  rw [ordinal]
  omega

/-- An earlier date has a smaller number. -/
theorem ordinal_lt_of_precedes {d e : Date} (h : d.Precedes e) : d.ordinal < e.ordinal := by
  rcases h with hyear | ⟨hyear, hmonth | ⟨hmonth, hday⟩⟩
  · calc d.ordinal ≤ daysBeforeYear (d.year + 1) := ordinal_le_daysBeforeYear d
      _ ≤ daysBeforeYear e.year := daysBeforeYear_mono hyear
      _ < e.ordinal := daysBeforeYear_lt_ordinal e
  · have hsucc := daysBeforeMonth_succ d.year d.month_mem.1
    have hmono : daysBeforeMonth d.year (d.month + 1) ≤ daysBeforeMonth d.year e.month :=
      daysBeforeMonth_mono d.year hmonth
    have hd := d.day_mem
    have he := e.day_mem
    rw [ordinal, ordinal, ← hyear]
    omega
  · rw [ordinal, ordinal, ← hyear, ← hmonth]
    omega

/-- Of two dates the one with the smaller number is the earlier one. -/
theorem ordinal_lt_iff {d e : Date} : d.ordinal < e.ordinal ↔ d.Precedes e := by
  constructor
  · intro hlt
    rcases precedes_trichotomy d e with h | rfl | h
    · exact h
    · exact absurd hlt (Int.lt_irrefl _)
    · exact absurd hlt (Int.lt_asymm (ordinal_lt_of_precedes h))
  · exact ordinal_lt_of_precedes

/-- A number is that of one date. -/
theorem ordinal_injective : Function.Injective ordinal := by
  intro d e heq
  rcases precedes_trichotomy d e with h | h | h
  · exact absurd heq (Int.ne_of_lt (ordinal_lt_of_precedes h))
  · exact h
  · exact absurd heq (Int.ne_of_gt (ordinal_lt_of_precedes h))

/-! ## Days after a day -/

/-- What has no smaller number comes after that many days. -/
theorem plus_of_le {d e : Date} (h : d.ordinal ≤ e.ordinal) :
    d.plus (e.ordinal - d.ordinal).toNat = e := by
  apply ordinal_injective
  rw [ordinal_plus]
  omega

/-- A date in a year, or in one after it, comes some days after new year. -/
theorem exists_plus_newYear {year : Int} {d : Date} (h : year ≤ d.year) :
    ∃ days, (newYear year).plus days = d := by
  refine ⟨_, plus_of_le ?_⟩
  have hmono := daysBeforeYear_mono h
  have hlt := daysBeforeYear_lt_ordinal d
  rw [ordinal_newYear]
  omega

/-- The first of January 1970 was a Thursday, the fifth day of the week, and from there the weekdays
follow each other. -/
theorem weekday_plus_newYear (days : Nat) :
    ((newYear 1970).plus days).weekday = (days + 4) % 7 + 1 := by
  have hfirst : (newYear 1970).ordinal = 719163 := by decide +kernel
  rw [weekday, ordinal_plus, hfirst]
  omega

end Date

end S7Comm.Calendar
