import Blocklist.Calendar
import Blocklist.Text.Fields
import Blocklist.Text.Grouped

/-!
# Moments

A moment is a date and a time of day, in a time zone or in none. Only a moment in a zone denotes an
instant.

* `Moment.unixMicros?` — the instant, in microseconds after the beginning of 1970;
* `Moment.unixSeconds`, `Moment.unixMillis` — the same in coarser units, rounded down;
* `Moment.inUtc` — a moment without zone taken as one of universal time;
* `Moment.datestamp` — the form that browsers print a date in, with `+` for each blank, up to the
  first NUL.
-/

namespace Blocklist

/-- What a moment cannot do. -/
inductive MomentError where
  | noZone
  | beforeYearOne
deriving DecidableEq, Repr

def MomentError.message : MomentError → String
  | .noZone => "can't subtract offset-naive and offset-aware datetimes"
  | .beforeYearOne => "year 0 is out of range"

/-- A time zone: how many microseconds its clocks are ahead of universal time, and its name. -/
structure Zone where
  offset : Int
  name : String
deriving DecidableEq, Repr

namespace Zone

/-- The hours, minutes, seconds and microseconds of an offset, which has no more than a day. -/
def parts (offset : Int) : Nat × Nat × Nat × Nat :=
  let micros := offset.natAbs
  let seconds := micros / 1000000
  (seconds / 3600, seconds / 60 % 60, seconds % 60, micros % 1000000)

/-- **The digits of an offset** after its sign: hours and minutes, then the seconds if there are
any, then the microseconds if there are any. -/
def digits (colon : String) (offset : Int) : String :=
  let (h, m, s, us) := parts offset
  let two := Text.zeroPadded 2
  let sign := if offset < 0 then "-" else "+"
  let minutes := sign ++ two h ++ colon ++ two m
  if us ≠ 0 then minutes ++ colon ++ two s ++ "." ++ Text.zeroPadded 6 us
  else if s ≠ 0 then minutes ++ colon ++ two s
  else minutes

def utc : Zone := ⟨0, "UTC"⟩

/-- The zone of an offset, named after it. -/
def ofOffset (offset : Int) : Zone :=
  if offset = 0 then utc else ⟨offset, "UTC" ++ digits ":" offset⟩

end Zone

/-- **A moment.** -/
structure Moment where
  year : Nat
  month : Nat := 1
  day : Nat := 1
  hour : Nat := 0
  minute : Nat := 0
  second : Nat := 0
  micro : Nat := 0
  zone : Option Zone := none
deriving DecidableEq, Repr

namespace Moment

/-- The number of the day by the clocks of the moment. -/
def dayNumber (m : Moment) : Int := Calendar.dayNumber m.year m.month m.day

/-- Seconds after the beginning of 1970, by the clocks of the moment. -/
def localSeconds (m : Moment) : Int :=
  m.dayNumber * 86400 + (m.hour * 3600 + m.minute * 60 + m.second : Nat)

/-- **The instant of a moment**, in microseconds after the beginning of 1970. -/
def unixMicros? (m : Moment) : Except MomentError Int :=
  match m.zone with
  | none => .error .noZone
  | some zone => .ok (m.localSeconds * 1000000 + m.micro - zone.offset)

/-- The instant in seconds, rounded down. -/
def unixSeconds (m : Moment) : Except MomentError Int :=
  m.unixMicros?.map (Int.fdiv · 1000000)

/-- The instant in milliseconds, rounded down. -/
def unixMillis (m : Moment) : Except MomentError Int :=
  m.unixMicros?.map (Int.fdiv · 1000)

/-- **A moment in a zone.** One without zone is in universal time; on the first day of the calendar
that cannot be settled, as it takes a look at the day before. -/
def inUtc (m : Moment) : Except MomentError Moment :=
  match m.zone with
  | some _ => .ok m
  | none =>
    if m.year = 1 ∧ m.month = 1 ∧ m.day = 1 then .error .beforeYearOne
    else .ok { m with zone := some .utc }

/-- The offset and the name of the zone, both empty where there is none. -/
def zoneTexts (m : Moment) : String × String :=
  match m.zone with
  | some zone => (Zone.digits "" zone.offset, zone.name)
  | none => ("", "")

/-- The whole of a datestamp. -/
def fullDatestamp (m : Moment) : String :=
  let two := Text.zeroPadded 2
  let weekday := Calendar.weekdayNames.getD (Calendar.weekday m.dayNumber) ""
  let month := Calendar.monthNames.getD (m.month - 1) ""
  let (offset, zone) := m.zoneTexts
  let time := ":".intercalate [two m.hour, two m.minute, two m.second]
  "+".intercalate
    [weekday, month, two m.day, toString m.year, time, "GMT" ++ offset, "(" ++ zone ++ ")"]

/-- **The datestamp**, as in `Wed+Jan+15+2025+12:30:45+GMT+0000+(UTC)`. It ends before a NUL, which
only the name of the zone can hold. -/
def datestamp (m : Moment) : String :=
  String.ofList (Text.cutAt '\x00' m.fullDatestamp.toList).1

end Moment

end Blocklist
