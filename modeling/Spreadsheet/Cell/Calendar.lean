import Spreadsheet.Decimal.Notation
import Spreadsheet.Error

/-!
# Dates and times

Days of the calendar from year 1 to year 9999, and times of day to the microsecond.

## Main definitions

* `Date`, `TimeOfDay` — points in time; `Date.of`, `TimeOfDay.of` check their parts.
* `Date.text`, `TimeOfDay.text` — the written forms.
-/

namespace Spreadsheet

/-! ## Dates -/

/-- Whether a year has a day more than others. -/
def isLeapYear (year : Nat) : Bool :=
  year % 4 = 0 && (year % 100 ≠ 0 || year % 400 = 0)

/-- The number of days of a month. -/
def daysIn (year month : Nat) : Nat :=
  if month = 2 then if isLeapYear year then 29 else 28
  else if [4, 6, 9, 11].contains month then 30
  else 31

/-- A day of the calendar. -/
structure Date where
  year : Nat
  month : Nat
  day : Nat
  year_mem : 1 ≤ year ∧ year ≤ 9999
  month_mem : 1 ≤ month ∧ month ≤ 12
  day_mem : 1 ≤ day ∧ day ≤ daysIn year month
deriving DecidableEq, Repr

/-- The day with the given parts. The first part that is out of range is reported. -/
def Date.of (year month day : Nat) : Except Error Date :=
  if hy : 1 ≤ year ∧ year ≤ 9999 then
    if hm : 1 ≤ month ∧ month ≤ 12 then
      if hd : 1 ≤ day ∧ day ≤ daysIn year month then .ok ⟨year, month, day, hy, hm, hd⟩
      else .error .dayOutOfRange
    else .error .monthOutOfRange
  else .error (.yearOutOfRange year)

/-- The year in four digits, month and day in two. -/
def Date.text (d : Date) : String :=
  Decimal.paddedText 4 d.year ++ "-" ++ Decimal.paddedText 2 d.month ++ "-" ++
    Decimal.paddedText 2 d.day

/-! ## Times of day -/

/-- A time of day. -/
structure TimeOfDay where
  hour : Nat
  minute : Nat
  second : Nat
  microsecond : Nat
  hour_lt : hour < 24
  minute_lt : minute < 60
  second_lt : second < 60
  microsecond_lt : microsecond < 1000000
deriving DecidableEq, Repr

/-- The time with the given parts. The first part that is out of range is reported. -/
def TimeOfDay.of (hour minute second microsecond : Nat) : Except Error TimeOfDay :=
  if hh : hour < 24 then
    if hm : minute < 60 then
      if hs : second < 60 then
        if hu : microsecond < 1000000 then
          .ok ⟨hour, minute, second, microsecond, hh, hm, hs, hu⟩
        else .error (.clockOutOfRange "microsecond" 999999)
      else .error (.clockOutOfRange "second" 59)
    else .error (.clockOutOfRange "minute" 59)
  else .error (.clockOutOfRange "hour" 23)

/-- Hour, minute and second in two digits, and the microseconds in six if there are any. -/
def TimeOfDay.text (t : TimeOfDay) : String :=
  Decimal.paddedText 2 t.hour ++ ":" ++ Decimal.paddedText 2 t.minute ++ ":" ++
    Decimal.paddedText 2 t.second ++
    if t.microsecond = 0 then "" else "." ++ Decimal.paddedText 6 t.microsecond

/-- The parts of a time of day that are shown in a message: seconds and microseconds are left out
if nothing but zeros follows. -/
def TimeOfDay.parts (t : TimeOfDay) : List Nat :=
  if t.microsecond ≠ 0 then [t.hour, t.minute, t.second, t.microsecond]
  else if t.second ≠ 0 then [t.hour, t.minute, t.second]
  else [t.hour, t.minute]

end Spreadsheet
