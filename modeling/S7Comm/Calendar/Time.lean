import S7Comm.Calendar.Date

/-!
# Times of day, moments and durations

**Leap seconds.** A time of day (`TimeOfDay`) is an hour, a minute, a second and a nanosecond, where
the nanoseconds may run to 2·10⁹: from 10⁹ on they belong to a leap second that follows the second.
Any second can have one: in a zone that is off by part of a minute, a leap second does not come at
the end of a minute. A time that is put together of its parts is held to more: `TimeOfDay.ofParts?`
takes a leap second behind second 59 only. A leap second prints as the number behind that of its
second, which may be 60.

**Durations** are signed numbers of nanoseconds. Whole milliseconds are taken toward zero, so the
durations strictly between -1 ms and 1 ms all have none.

**Text.** A time prints as `HH:MM:SS` with a fraction of 0, 3, 6 or 9 digits, the fewest that are
exact; a moment as its date, a blank and its time; a duration as `PT` and its seconds with as many
decimals as it takes, with a minus in front if it is negative, and as `P0D` if it is zero.
-/

namespace S7Comm.Calendar

/-! ## Times of day -/

/-- A time of day, to the nanosecond. -/
structure TimeOfDay where
  /-- Hours since midnight. -/
  hour : Nat
  /-- Minutes of the hour. -/
  minute : Nat
  /-- Seconds of the minute. -/
  second : Nat
  /-- Nanoseconds of the second; from 10⁹ on, those of the leap second behind it. -/
  nanosecond : Nat
  /-- A day has 24 hours. -/
  hour_lt : hour < 24
  /-- An hour has 60 minutes. -/
  minute_lt : minute < 60
  /-- A leap second is not counted here. -/
  second_lt : second < 60
  /-- A leap second is no longer than others. -/
  nanosecond_lt : nanosecond < 2000000000
  deriving DecidableEq

namespace TimeOfDay

/-- A leap second is there only behind the last second of a minute. -/
def Proper (second nanosecond : Nat) : Prop :=
  nanosecond < 1000000000 ∨ second = 59 ∧ nanosecond < 2000000000

instance (second nanosecond : Nat) : Decidable (Proper second nanosecond) :=
  inferInstanceAs (Decidable (_ ∨ _))

/-- In any case it is no longer than others. -/
theorem Proper.lt {second nanosecond : Nat} (h : Proper second nanosecond) :
    nanosecond < 2000000000 := by
  rcases h with h | ⟨-, h⟩
  · exact Nat.lt_trans h (by decide)
  · exact h

/-- The time with the given parts, if there is one: each part is in its range, and a leap second is
behind second 59. -/
def ofParts? (hour minute second nanosecond : Nat) : Option TimeOfDay :=
  if h : hour < 24 ∧ minute < 60 ∧ second < 60 ∧ Proper second nanosecond then
    some ⟨hour, minute, second, nanosecond, h.1, h.2.1, h.2.2.1, h.2.2.2.lt⟩
  else none

/-- Milliseconds in a day. -/
def millisecondsPerDay : Nat := 86400000

/-- The time that many milliseconds after midnight. -/
def ofMilliseconds (ms : Nat) (h : ms < millisecondsPerDay) : TimeOfDay where
  hour := ms / 3600000
  minute := ms / 60000 % 60
  second := ms / 1000 % 60
  nanosecond := ms % 1000 * 1000000
  hour_lt := by unfold millisecondsPerDay at h; omega
  minute_lt := by omega
  second_lt := by omega
  nanosecond_lt := by omega

/-- Whole seconds since midnight. -/
def seconds (t : TimeOfDay) : Nat :=
  t.hour * 3600 + t.minute * 60 + t.second

/-- Whole milliseconds since midnight; a leap second repeats the second before it. -/
def milliseconds (t : TimeOfDay) : Nat :=
  t.seconds * 1000 + t.nanosecond % 1000000000 / 1000000

/-- The fraction of a second, in the fewest of 0, 3, 6 and 9 digits that are exact. -/
def fractionText (nanosecond : Nat) : String :=
  if nanosecond = 0 then ""
  else if nanosecond % 1000000 = 0 then "." ++ Decimal.padded 3 (nanosecond / 1000000)
  else if nanosecond % 1000 = 0 then "." ++ Decimal.padded 6 (nanosecond / 1000)
  else "." ++ Decimal.padded 9 nanosecond

/-- The time as `HH:MM:SS` and its fraction. -/
def text (t : TimeOfDay) : String :=
  Decimal.padded 2 t.hour ++ ":" ++ Decimal.padded 2 t.minute ++ ":" ++
    Decimal.padded 2 (t.second + t.nanosecond / 1000000000) ++
    fractionText (t.nanosecond % 1000000000)

end TimeOfDay

/-! ## Moments -/

/-- A date and a time of day. -/
structure DateTime where
  /-- The day. -/
  date : Date
  /-- The time within it. -/
  time : TimeOfDay
  deriving DecidableEq

/-- The date, a blank and the time. -/
def DateTime.text (m : DateTime) : String :=
  m.date.text ++ " " ++ m.time.text

/-! ## Durations -/

/-- A signed span of time. -/
structure Duration where
  /-- Its length; negative for a span backwards. -/
  nanoseconds : Int
  deriving DecidableEq

namespace Duration

/-- The duration of some milliseconds. -/
def ofMilliseconds (ms : Int) : Duration :=
  ⟨ms * 1000000⟩

/-- Whole milliseconds, toward zero. -/
def milliseconds (d : Duration) : Int :=
  d.nanoseconds.tdiv 1000000

/-- The digits of a fraction of a second, without the zeros at their end. -/
def decimals (nanosecond : Nat) : List Char :=
  let digits := (Decimal.digits nanosecond).leftpad 9 '0'
  (digits.reverse.dropWhile (· == '0')).reverse

/-- The duration as `PT…S`, or `P0D` if it is zero. -/
def text (d : Duration) : String :=
  let size := d.nanoseconds.natAbs
  if size = 0 then "P0D"
  else
    let sign := if d.nanoseconds < 0 then "-" else ""
    let fraction := if size % 1000000000 = 0 then []
      else '.' :: decimals (size % 1000000000)
    sign ++ "PT" ++ String.ofList (Decimal.digits (size / 1000000000) ++ fraction) ++ "S"

end Duration

end S7Comm.Calendar
