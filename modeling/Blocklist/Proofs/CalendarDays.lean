import Blocklist.Calendar
import Mathlib.Logic.Function.Iterate
import Mathlib.Tactic.IntervalCases

/-!
# Days one after the other

`Calendar.dayNumber` computes with a table of months and with quotients of the year. People count
differently: the months have their lengths, February one day more every fourth year but three times
in four centuries, and behind the last day of a month or a year comes the first of the next. This
is the calendar as people count it, and the two agree on every date.

* `daysInMonth`, `Date.Valid` — the lengths of the months, and the dates there are;
* `Date.next` — the day after a date;
* `Date.DaysAfterEpoch` — a date is so many days after 1 January 1970, or, for a negative number,
  before it;
* `Date.daysAfterEpoch_iff` — that number is the day number and no other;
* `weekdayOn` — the weekdays, which come round from the Thursday that day 0 was.

The two counts meet in `Date.Valid.ordinal_next`: a day later, the ordinal is one more. Every date
is reached from 1 January of the year 1 (`Date.Valid.iterate_next_firstDay`), so that a date is
determined by its ordinal.
-/

namespace Blocklist.Calendar

/-- How many days a month has. -/
def daysInMonth (year month : Nat) : Nat :=
  if month = 2 then if 4 ∣ year ∧ (100 ∣ year → 400 ∣ year) then 29 else 28
  else if month ∈ [4, 6, 9, 11] then 30
  else 31

/-- A day of a month of a year. -/
structure Date where
  year : Nat
  month : Nat
  day : Nat
deriving DecidableEq, Repr

namespace Date

/-- The calendar has the date. -/
structure Valid (d : Date) : Prop where
  one_le_year : 1 ≤ d.year
  one_le_month : 1 ≤ d.month
  month_le : d.month ≤ 12
  one_le_day : 1 ≤ d.day
  day_le : d.day ≤ daysInMonth d.year d.month

/-- The day after a date. -/
def next (d : Date) : Date :=
  if d.day < daysInMonth d.year d.month then { d with day := d.day + 1 }
  else if d.month < 12 then ⟨d.year, d.month + 1, 1⟩
  else ⟨d.year + 1, 1, 1⟩

/-- The first day of the calendar. -/
def firstDay : Date := ⟨1, 1, 1⟩

/-- The day that days are numbered from. -/
def epoch : Date := ⟨1970, 1, 1⟩

/-- **A date is `n` days after 1 January 1970**, or that many days before it where `n` is negative:
so many steps lead from the one to the other. -/
def DaysAfterEpoch (d : Date) (n : Int) : Prop :=
  ∃ k : Nat, (n = k ∧ next^[k] epoch = d) ∨ (n = -k ∧ next^[k] d = epoch)

/-- The ordinal of a date. -/
def ordinal (d : Date) : Nat := Calendar.ordinal d.year d.month d.day

end Date

/-! ### Years and months -/

section Lengths

variable {year month : Nat}

/-- **The rule of leap years.** -/
theorem isLeap_iff : isLeap year = true ↔ 4 ∣ year ∧ (100 ∣ year → 400 ∣ year) := by
  simp only [isLeap, Bool.and_eq_true, Bool.or_eq_true, beq_iff_eq, bne_iff_ne]
  omega

/-- February by the leap years of the ordinals. -/
theorem daysInMonth_february : daysInMonth year 2 = if isLeap year then 29 else 28 := by
  simp only [daysInMonth, if_true, isLeap_iff]

theorem daysInMonth_december : daysInMonth year 12 = 31 := by
  simp [daysInMonth]

theorem one_le_daysInMonth : 1 ≤ daysInMonth year month := by
  unfold daysInMonth
  split_ifs <;> omega

/-- A year has 365 days, a leap year 366. -/
theorem daysBeforeYear_succ (h : 1 ≤ year) :
    daysBeforeYear (year + 1) = daysBeforeYear year + 365 + if isLeap year then 1 else 0 := by
  obtain ⟨y, rfl⟩ := Nat.exists_eq_add_of_le' h
  have hle : y / 100 ≤ y * 365 := by omega
  -- Each quotient grows by one where the divisor divides; beyond that the three do not matter.
  simp only [daysBeforeYear, isLeap_iff, Nat.add_sub_cancel, Nat.succ_div]
  generalize y / 4 = q4, y / 100 = q100, y / 400 = q400 at *
  split_ifs <;> omega

/-- How many days a year has before a month. -/
def daysBefore (year month : Nat) : Nat :=
  daysBeforeMonth month + if 2 < month && isLeap year then 1 else 0

/-- Up to the next month there are the days of this one more. -/
theorem daysBefore_succ (h : 1 ≤ month) (hm : month < 12) :
    daysBefore year (month + 1) = daysBefore year month + daysInMonth year month := by
  -- The table of months is finite; of the lengths only February's depends on the year.
  obtain rfl | other := eq_or_ne month 2
  · cases hl : isLeap year <;> simp [daysBefore, daysBeforeMonth, daysInMonth_february, hl]
  · interval_cases month <;> simp_all [daysBefore, daysBeforeMonth, daysInMonth] <;> omega

theorem daysBefore_one : daysBefore year 1 = 0 := by
  simp [daysBefore, daysBeforeMonth]

/-- With December, the days of a year are all there. -/
theorem daysBefore_december :
    daysBefore year 12 + daysInMonth year 12 = 365 + if isLeap year then 1 else 0 := by
  cases hl : isLeap year <;> simp [daysBefore, daysBeforeMonth, daysInMonth_december, hl]

/-- The days up to a date are those of the years, the months and the month. -/
theorem ordinal_eq (day : Nat) :
    ordinal year month day = daysBeforeYear year + daysBefore year month + day := by
  simp only [ordinal, daysBefore, Nat.add_assoc]

end Lengths

/-! ### From a date to the next -/

namespace Date

variable {d e : Date}

theorem epoch_valid : epoch.Valid := ⟨by decide, by decide, by decide, by decide, by decide⟩

namespace Valid

/-- The day after a date is a date. -/
theorem next (h : d.Valid) : d.next.Valid := by
  unfold Date.next
  -- the next day of the month, the first of the next month, or 1 January
  split_ifs with hd hm
  · exact ⟨h.one_le_year, h.one_le_month, h.month_le, by simp, hd⟩
  · exact ⟨h.one_le_year, by simp, hm, le_rfl, one_le_daysInMonth⟩
  · exact ⟨by simp, le_rfl, by simp, le_rfl, one_le_daysInMonth⟩

theorem iterate_next (h : d.Valid) (k : Nat) : (Date.next^[k] d).Valid := by
  induction k with
  | zero => exact h
  | succ k ih =>
    rw [Function.iterate_succ_apply']
    exact ih.next

/-- **A day later, the ordinal is one more.** -/
theorem ordinal_next (h : d.Valid) : d.next.ordinal = d.ordinal + 1 := by
  have hday := h.day_le
  unfold Date.next
  split_ifs with hd hm
  · -- within a month
    rfl
  · -- into the next month
    have hmonth := @daysBefore_succ d.year _ h.one_le_month hm
    simp only [Date.ordinal, ordinal_eq]
    omega
  · -- into the next year
    have hmonth : d.month = 12 := by
      have := h.month_le
      omega
    have hdecember := @daysBefore_december d.year
    have hyear := daysBeforeYear_succ h.one_le_year
    rw [hmonth] at hd hday
    simp only [Date.ordinal, ordinal_eq, daysBefore_one, hmonth]
    omega

/-- So some days later it is as many more. -/
theorem ordinal_iterate_next (h : d.Valid) (k : Nat) :
    (Date.next^[k] d).ordinal = d.ordinal + k := by
  induction k with
  | zero => rfl
  | succ k ih =>
    rw [Function.iterate_succ_apply', (h.iterate_next k).ordinal_next, ih, Nat.add_assoc]

/-- The first day of the calendar is counted as one. -/
theorem one_le_ordinal (h : d.Valid) : 1 ≤ d.ordinal := by
  have := h.one_le_day
  rw [Date.ordinal, ordinal_eq]
  omega

/-- Every day but the first has a day before. -/
theorem exists_next_eq (h : d.Valid) (hd : d ≠ firstDay) : ∃ p : Date, p.Valid ∧ p.next = d := by
  obtain ⟨year, month, day⟩ := d
  obtain ⟨hyear, hmonth, hmonth', hday, hday'⟩ := h
  dsimp only at *
  obtain hd1 | rfl := Nat.lt_or_eq_of_le hday
  · -- within the month
    refine ⟨⟨year, month, day - 1⟩, ⟨hyear, hmonth, hmonth', by dsimp; omega, by dsimp; omega⟩, ?_⟩
    have hlt : day - 1 < daysInMonth year month := by omega
    simp only [Date.next, hlt, if_true, Nat.sub_add_cancel hday]
  obtain hm1 | rfl := Nat.lt_or_eq_of_le hmonth
  · -- the first of a month comes after the last day of the month before
    refine ⟨⟨year, month - 1, daysInMonth year (month - 1)⟩,
      ⟨hyear, by dsimp; omega, by dsimp; omega, one_le_daysInMonth, le_rfl⟩, ?_⟩
    have hlt : month - 1 < 12 := by omega
    simp only [Date.next, lt_irrefl, if_false, hlt, if_true, Nat.sub_add_cancel hmonth]
  obtain hy1 | rfl := Nat.lt_or_eq_of_le hyear
  · -- 1 January comes after 31 December
    refine ⟨⟨year - 1, 12, 31⟩, ⟨by dsimp; omega, by simp, le_rfl, by simp,
      daysInMonth_december.ge⟩, ?_⟩
    simp only [Date.next, daysInMonth_december, lt_irrefl, if_false, Nat.sub_add_cancel hyear]
  · exact absurd rfl hd

/-- Every date comes some days after the first day of the calendar, as many as its ordinal says. -/
theorem iterate_next_firstDay (h : d.Valid) : Date.next^[d.ordinal - 1] firstDay = d := by
  -- By induction on the ordinal, from a date to the day before.
  induction hn : d.ordinal generalizing d with
  | zero =>
    have := h.one_le_ordinal
    omega
  | succ n ih =>
    by_cases hd : d = firstDay
    · subst hd
      obtain rfl : n = 0 := by
        have : firstDay.ordinal = 1 := rfl
        omega
      rfl
    · obtain ⟨p, hp, rfl⟩ := h.exists_next_eq hd
      have hpn : p.ordinal = n := by
        have := hp.ordinal_next
        omega
      have hn1 : n = (n - 1) + 1 := by
        have := hp.one_le_ordinal
        omega
      rw [Nat.add_sub_cancel, hn1, Function.iterate_succ_apply', ih hp hpn]

/-- A date leads to every date with a greater ordinal, in as many days as the difference. -/
theorem iterate_next_eq (hd : d.Valid) (he : e.Valid) {k : Nat} (h : e.ordinal = d.ordinal + k) :
    Date.next^[k] d = e :=
  calc Date.next^[k] d
    _ = Date.next^[k] (Date.next^[d.ordinal - 1] firstDay) := by rw [hd.iterate_next_firstDay]
    -- both are so many days after the first day of the calendar
    _ = Date.next^[e.ordinal - 1] firstDay := by
      have := hd.one_le_ordinal
      rw [← Function.iterate_add_apply]
      congr 1
      omega
    _ = e := he.iterate_next_firstDay

end Valid

/-- **The day number is the count of days**: a date is as many days after 1 January 1970 as
`dayNumber` computes, and no other number of days. -/
theorem daysAfterEpoch_iff (h : d.Valid) {n : Int} :
    d.DaysAfterEpoch n ↔ n = dayNumber d.year d.month d.day := by
  have key : dayNumber d.year d.month d.day = (d.ordinal : Int) - epoch.ordinal := rfl
  rw [key]
  -- days that are counted change the ordinal by one each, whichever way they are counted
  constructor
  · rintro ⟨k, ⟨rfl, hk⟩ | ⟨rfl, hk⟩⟩
    · have := epoch_valid.ordinal_iterate_next k
      rw [hk] at this
      omega
    · have := h.ordinal_iterate_next k
      rw [hk] at this
      omega
  · rintro rfl
    -- from the earlier of the two days the later one is reached
    rcases Nat.le_total epoch.ordinal d.ordinal with hle | hle
    · refine ⟨d.ordinal - epoch.ordinal, .inl ⟨by omega, ?_⟩⟩
      exact epoch_valid.iterate_next_eq h (by omega)
    · refine ⟨epoch.ordinal - d.ordinal, .inr ⟨by omega, ?_⟩⟩
      exact h.iterate_next_eq epoch_valid (by omega)

/-- 1900 was no leap year. -/
example : next ⟨1900, 2, 28⟩ = ⟨1900, 3, 1⟩ := by decide

end Date

/-! ### Weekdays -/

/-- The weekday of a day number. Day 0 was a Thursday, and the weekdays come round in sevens, before
it as well. -/
def weekdayOn (day : Int) : String :=
  ["Thu", "Fri", "Sat", "Sun", "Mon", "Tue", "Wed"].getD (day.fmod 7).toNat ""

/-- The name of a weekday is that of the day in its week. -/
theorem weekdayNames_getD_weekday (day : Int) :
    weekdayNames.getD (weekday day) "" = weekdayOn day := by
  have hweekday : weekday day = ((day % 7 + 3) % 7).toNat := by
    change ((day + 3) % 7).toNat = _
    rw [Int.emod_add_emod]
  have hlow : 0 ≤ day % 7 := Int.emod_nonneg day (by decide)
  have hhigh : day % 7 < 7 := Int.emod_lt_of_pos day (by decide)
  rw [hweekday, weekdayOn, Int.fmod_eq_emod_of_nonneg day (by decide)]
  -- One case for each remainder by seven.
  generalize day % 7 = r at *
  interval_cases r <;> rfl

end Blocklist.Calendar
