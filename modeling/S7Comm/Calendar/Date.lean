import S7Comm.Text.Decimal

/-!
# Dates of the Gregorian calendar

Controllers keep dates either as a number of days or as year, month and day. Both readings rest on
one calendar: the Gregorian one, continued before its introduction and for years without bound in
both directions (a year zero and negative years included).

**What is given here.** A `Date` carries the proof that its month and day exist. `Date.next` is the
day after, `Date.plus` repeats it; `Date.ordinal` counts days from the first of January of the year
one, and the weekday is its remainder by seven. Reading a number of days as a date goes by `plus`,
the way back by a difference of ordinals: the two are tied by the fact that `next` raises the ordinal
by one.

**Text.** A date prints as `YYYY-MM-DD`. A year outside 0 to 9999 has a sign and at least four digits.
-/

namespace S7Comm.Calendar

/-! ## Years and months -/

/-- Every fourth year is a leap year, of the centuries only every fourth. -/
def isLeap (year : Int) : Bool :=
  year % 4 == 0 && (year % 100 != 0 || year % 400 == 0)

/-- The length of a month; months count from one. -/
def daysInMonth (year : Int) (month : Nat) : Nat :=
  match month with
  | 2 => if isLeap year then 29 else 28
  | 4 | 6 | 9 | 11 => 30
  | _ => 31

/-- Every month has a first day. -/
theorem daysInMonth_pos (year : Int) (month : Nat) : 1 ≤ daysInMonth year month := by
  unfold daysInMonth
  split <;> (try split) <;> decide

/-- A day of the calendar. -/
structure Date where
  /-- The year; the one before the year one is zero. -/
  year : Int
  /-- The month, from one. -/
  month : Nat
  /-- The day of the month, from one. -/
  day : Nat
  /-- The month is one of twelve. -/
  month_mem : 1 ≤ month ∧ month ≤ 12
  /-- The day is one of its month. -/
  day_mem : 1 ≤ day ∧ day ≤ daysInMonth year month
  deriving DecidableEq

/-- The date with the given year, month and day, if there is one. -/
def Date.ofParts? (year : Int) (month day : Nat) : Option Date :=
  if hm : 1 ≤ month ∧ month ≤ 12 then
    if hd : 1 ≤ day ∧ day ≤ daysInMonth year month then some ⟨year, month, day, hm, hd⟩ else none
  else none

/-- The first of January of a year. -/
def Date.newYear (year : Int) : Date :=
  ⟨year, 1, 1, by decide, ⟨Nat.le_refl 1, daysInMonth_pos ..⟩⟩

/-! ## Counting days -/

/-- Days from the first of January of the year one to the first of January of `year`. -/
def daysBeforeYear (year : Int) : Int :=
  365 * (year - 1) + (year - 1) / 4 - (year - 1) / 100 + (year - 1) / 400

/-- Days of a year in front of one of its months. -/
def daysBeforeMonth (year : Int) : (month : Nat) → Nat
  | 0 => 0
  | 1 => 0
  | month + 2 => daysBeforeMonth year (month + 1) + daysInMonth year (month + 1)

/-- The number of a day: one for the first of January of the year one. -/
def Date.ordinal (d : Date) : Int :=
  daysBeforeYear d.year + daysBeforeMonth d.year d.month + d.day

/-- The day after. -/
def Date.next (d : Date) : Date :=
  if hd : d.day < daysInMonth d.year d.month then
    ⟨d.year, d.month, d.day + 1, d.month_mem, by omega⟩
  else if hm : d.month < 12 then
    ⟨d.year, d.month + 1, 1, by omega, ⟨Nat.le_refl 1, daysInMonth_pos ..⟩⟩
  else Date.newYear (d.year + 1)

/-- The day some days later. -/
def Date.plus (d : Date) : (days : Nat) → Date
  | 0 => d
  | days + 1 => d.next.plus days

/-- The day of the week, from one for Sunday to seven for Saturday. -/
def Date.weekday (d : Date) : Nat :=
  (d.ordinal % 7).toNat + 1

/-! ## Text -/

/-- Four digits, and in front of them a sign where four digits would not do. -/
def yearText (year : Int) : String :=
  if 0 ≤ year ∧ year ≤ 9999 then Decimal.padded 4 year.toNat
  else (if year < 0 then "-" else "+") ++ Decimal.padded 4 year.natAbs

/-- The date as `YYYY-MM-DD`. -/
def Date.text (d : Date) : String :=
  yearText d.year ++ "-" ++ Decimal.padded 2 d.month ++ "-" ++ Decimal.padded 2 d.day

end S7Comm.Calendar
