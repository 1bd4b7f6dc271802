/-!
# The calendar

Dates of the Gregorian calendar, reckoned back before its introduction as well.

* `dayNumber` — how many days after 1 January 1970 a date is;
* `weekday` — the day of the week of a day number, Monday being the first;
* `weekdayNames`, `monthNames` — English abbreviations.
-/

namespace Blocklist.Calendar

/-- Whether a year has a 29 February. -/
def isLeap (year : Nat) : Bool :=
  year % 4 == 0 && (year % 100 != 0 || year % 400 == 0)

/-- How many days the years from 1 up to but not including a year have. -/
def daysBeforeYear (year : Nat) : Nat :=
  let y := year - 1
  y * 365 + y / 4 - y / 100 + y / 400

/-- How many days the months before a month have in a year without leap day. -/
def daysBeforeMonth (month : Nat) : Nat :=
  [0, 31, 59, 90, 120, 151, 181, 212, 243, 273, 304, 334].getD (month - 1) 0

/-- The number of a date, where 1 January of the year 1 has number 1. -/
def ordinal (year month day : Nat) : Nat :=
  daysBeforeYear year + daysBeforeMonth month + (if 2 < month && isLeap year then 1 else 0) + day

/-- The ordinal of 1 January 1970. -/
def epochOrdinal : Nat := ordinal 1970 1 1

example : epochOrdinal = 719163 := by decide

/-- How many days after 1 January 1970 a date is. -/
def dayNumber (year month day : Nat) : Int :=
  (ordinal year month day : Int) - epochOrdinal

/-- The day of the week of a day number, from 0 for Monday to 6 for Sunday; day 0 was a Thursday. -/
def weekday (day : Int) : Nat := ((day + 3).emod 7).toNat

/-- The days of the week. -/
def weekdayNames : List String := ["Mon", "Tue", "Wed", "Thu", "Fri", "Sat", "Sun"]

/-- The months. -/
def monthNames : List String :=
  ["Jan", "Feb", "Mar", "Apr", "May", "Jun", "Jul", "Aug", "Sep", "Oct", "Nov", "Dec"]

/-- 15 January 2025 was a Wednesday. -/
example : weekdayNames[weekday (dayNumber 2025 1 15)]? = some "Wed" := by decide

end Blocklist.Calendar
