import S7Comm.Error
import S7Comm.Text.Latin1

/-!
# Dates, times and texts in a payload

Beside numbers, a program variable can hold

* a DATE: the days since the first of January 1990, in two bytes;
* a TIME_OF_DAY: the milliseconds since midnight, in four;
* a TIME: a signed number of milliseconds, in four;
* a DTL: year, month, day, weekday, hour, minute, second and nanoseconds, in twelve.

All are big-endian, whatever the order of the numbers of the family.

**What is lost and what is refused.** Writing drops what the form does not have: parts of a
millisecond, and for a time of day and a DTL that a second is a leap second. It refuses what is
outside of the form. Reading a DTL takes the weekday as it is, so it is not compared with the date;
writing states the one of the date, from one for Sunday.
-/

namespace S7Comm.Payload

open Calendar

/-! ## Days -/

/-- The day from which a DATE counts. -/
def epoch : Date := Date.newYear 1990

/-- The date that a DATE holds. -/
def decodeDate (bytes : Bytes) : Except Shortage Date := do
  let days ← Numeric.decode UInt16 .big bytes
  return epoch.plus days.toNat

/-- The DATE of a date from 1990-01-01 to 2169-06-06. -/
def encodeDate (date : Date) : Except ArgumentError Bytes :=
  let days := date.ordinal - epoch.ordinal
  if 0 ≤ days ∧ days ≤ 65535 then .ok (Numeric.encode .big (UInt16.ofNat days.toNat))
  else .error (.dateRange date)

/-! ## Times -/

/-- The time that a TIME_OF_DAY holds. -/
def decodeTimeOfDay (bytes : Bytes) : Except Error TimeOfDay := do
  let ms ← Numeric.decode UInt32 .big bytes
  if h : ms.toNat < TimeOfDay.millisecondsPerDay then
    return TimeOfDay.ofMilliseconds ms.toNat h
  else
    throw (.invalidArgument (.notTimeOfDay ms.toNat))

/-- The TIME_OF_DAY of a time. -/
def encodeTimeOfDay (time : TimeOfDay) : Bytes :=
  Numeric.encode .big (UInt32.ofNat time.milliseconds)

/-- The duration that a TIME holds. -/
def decodeTime (bytes : Bytes) : Except Shortage Duration := do
  let ms ← Numeric.decode Int32 .big bytes
  return Duration.ofMilliseconds ms.toInt

/-- The TIME of a duration of less than 2³¹ milliseconds in either direction, or of exactly that
many backwards. -/
def encodeTime (duration : Duration) : Except ArgumentError Bytes :=
  let ms := duration.milliseconds
  if -2147483648 ≤ ms ∧ ms ≤ 2147483647 then .ok (Numeric.encode .big (Int32.ofInt ms))
  else .error (.durationRange duration)

/-! ## Moments -/

/-- Bytes of a DTL. -/
def dateTimeLength : Nat := 12

/-- The moment that a DTL holds. -/
def decodeDateTime (bytes : Bytes) : Except Error DateTime :=
  match bytes with
  | year₁ :: year₀ :: month :: day :: _ :: hour :: minute :: second ::
      nano₃ :: nano₂ :: nano₁ :: nano₀ :: _ =>
    let date? := Date.ofParts? (word year₁ year₀).toNat month.toNat day.toNat
    let time? := TimeOfDay.ofParts? hour.toNat minute.toNat second.toNat
      (spelled [nano₃, nano₂, nano₁, nano₀])
    match date?, time? with
    | some date, some time => .ok ⟨date, time⟩
    | _, _ => .error (.invalidArgument .notDateTime)
  | _ => .error (.insufficientData ⟨dateTimeLength, bytes.length⟩)

/-- The DTL of a moment in the years 1970 to 2262. -/
def encodeDateTime (moment : DateTime) : Except ArgumentError Bytes :=
  let date := moment.date
  let time := moment.time
  if 1970 ≤ date.year ∧ date.year ≤ 2262 then
    .ok (wordBytes (UInt16.ofNat date.year.toNat) ++
      [date.month, date.day, date.weekday, time.hour, time.minute, time.second].map UInt8.ofNat ++
      bigEndian 4 (time.nanosecond % 1000000000))
  else .error (.dateTimeRange moment)

/-! ## Texts -/

/-- The bytes of a text, all of whose characters must be Latin-1. -/
def encodeText (text : String) : Except ArgumentError Bytes :=
  (Latin1.encode text).mapError .notLatin1

end S7Comm.Payload
