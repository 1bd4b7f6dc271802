import Blocklist.Moment
import Blocklist.Proofs.CalendarDays
import Blocklist.Proofs.Decimals
import Blocklist.Proofs.LineSplitting

/-!
# Datestamps read back

A datestamp is made for a machine, which takes it apart again. `Stamp.read?` is such a machine: it
cuts the text at each `+`, looks the month up and reads the numbers. A clock that is ahead of
universal time has a `+` before its offset, at which the text is cut as well; one that is behind has
a `-`, at which it is not.

* `Stamp`, `Stamp.read?` — what a datestamp says, and reading it;
* `Moment.Sound`, `Zone.Sound` — the dates, times of day and zones there are;
* `Moment.Sound.read?_datestamp` — from its datestamp a moment is read back.

What is read stays apart from the rest of the text because it is `Plain`. Only the name of the zone
may have any sign in it, also a `+` or a NUL that ends the datestamp, and that name comes last.
-/

namespace Blocklist

open Calendar (Date weekdayOn)

/-! ### What a datestamp says -/

/-- What a datestamp says. -/
structure Stamp where
  weekday : String
  date : Date
  hour : Nat
  minute : Nat
  second : Nat
  /-- How many seconds its clock is ahead of universal time. -/
  offset : Int
deriving DecidableEq, Repr

namespace Stamp

/-- The number of a month by its English abbreviation. -/
def readMonth? : String → Option Nat
  | "Jan" => some 1
  | "Feb" => some 2
  | "Mar" => some 3
  | "Apr" => some 4
  | "May" => some 5
  | "Jun" => some 6
  | "Jul" => some 7
  | "Aug" => some 8
  | "Sep" => some 9
  | "Oct" => some 10
  | "Nov" => some 11
  | "Dec" => some 12
  | _ => none

/-- The seconds in hours, minutes and perhaps seconds of two digits each. -/
def readSpan? (digits : List Char) : Option Nat := do
  let hours ← Text.decimal? (digits.take 2)
  let minutes ← Text.decimal? ((digits.drop 2).take 2)
  let seconds ← (if digits.length = 4 then some 0 else Text.decimal? (digits.drop 4))
  pure (hours * 3600 + minutes * 60 + seconds)

/-- The offset in the parts behind the time of day. -/
def readOffset? : List (List Char) → Option Int
  | ['G', 'M', 'T'] :: span :: _ => (readSpan? span).map fun n : Nat => (n : Int)
  | ('G' :: 'M' :: 'T' :: '-' :: span) :: _ => (readSpan? span).map fun n : Nat => -(n : Int)
  | _ => none

/-- **Reading a datestamp.** The name of the zone does not count. -/
def read? (text : List Char) : Option Stamp :=
  match text.splitOn '+' with
  | weekday :: month :: day :: year :: time :: zone =>
    match time.splitOn ':' with
    | [hour, minute, second] => do
      let date : Date :=
        ⟨← Text.decimal? year, ← readMonth? (String.ofList month), ← Text.decimal? day⟩
      pure ⟨String.ofList weekday, date, ← Text.decimal? hour, ← Text.decimal? minute,
        ← Text.decimal? second, ← readOffset? zone⟩
    | _ => none
  | _ => none

end Stamp

/-! ### Moments that are stamped -/

/-- A zone with an offset of whole seconds that is less than a day. -/
structure Zone.Sound (zone : Zone) (seconds : Int) : Prop where
  offset_eq : zone.offset = seconds * 1000000
  natAbs_lt : seconds.natAbs < 86400

namespace Moment

/-- The date of a moment. -/
def date (m : Moment) : Date := ⟨m.year, m.month, m.day⟩

/-- What a datestamp of a moment ought to say in a zone with an offset. -/
def stamp (m : Moment) (offset : Int) : Stamp :=
  ⟨weekdayOn m.dayNumber, m.date, m.hour, m.minute, m.second, offset⟩

/-- A moment with a date of the calendar and a time of day. -/
structure Sound (m : Moment) : Prop where
  date : m.date.Valid
  hour_lt : m.hour < 24
  minute_lt : m.minute < 60
  second_lt : m.second < 60
  micro_lt : m.micro < 1000000

end Moment

/-! ### Plain text -/

/-- Text of digits, letters and colons. -/
def Plain (text : List Char) : Prop := ∀ c ∈ text, c.isAlphanum ∨ c = ':'

section Plain

variable {a b : List Char} {c : Char}

/-- No sign stands in a plain text, but for colons. -/
theorem Plain.notMem (h : Plain a) (hc : c.isAlphanum = false) (hcolon : c ≠ ':') : c ∉ a := by
  intro hmem
  rcases h c hmem with halnum | rfl
  · rw [hc] at halnum
    cases halnum
  · exact hcolon rfl

theorem Plain.append (ha : Plain a) (hb : Plain b) : Plain (a ++ b) :=
  List.forall_mem_append.mpr ⟨ha, hb⟩

/-- Digits are plain. -/
theorem plain_of_isDigit (h : ∀ c ∈ a, c.isDigit) : Plain a := by
  intro c hc
  simp [Char.isAlphanum, h c hc]

theorem plain_zeroPadded (width n : Nat) : Plain (Text.zeroPadded width n).toList :=
  plain_of_isDigit fun _ => Text.isDigit_of_mem_zeroPadded

theorem plain_toString (n : Nat) : Plain (toString n).toList :=
  plain_of_isDigit fun _ hc => Nat.isDigit_of_mem_toDigits (by decide) le_rfl (Nat.toList_repr ▸ hc)

/-- So are letters. -/
theorem plain_of_all (h : a.all Char.isAlphanum) : Plain a :=
  fun c hc => .inl (List.all_eq_true.mp h c hc)

/-- A name from a list of names in letters, or none. -/
theorem plain_getD {names : List String} (h : ∀ name ∈ names, name.toList.all Char.isAlphanum)
    (i : Nat) : Plain (names.getD i "").toList := by
  rw [List.getD_eq_getElem?_getD]
  cases hi : names[i]? with
  | none => nofun
  | some name => exact plain_of_all (h name (List.mem_of_getElem? hi))

end Plain

/-! ### The offset -/

namespace Zone

variable {zone : Zone} {seconds : Int} {c : Char}

/-- Hours, minutes and, unless there are none, seconds of two digits each. -/
def spanText (n : Nat) : List Char :=
  (Text.zeroPadded 2 (n / 3600)).toList ++ (Text.zeroPadded 2 (n / 60 % 60)).toList ++
    if n % 60 = 0 then [] else (Text.zeroPadded 2 (n % 60)).toList

/-- So is the difference of a zone, whether or not it shows seconds. -/
theorem plain_spanText (n : Nat) : Plain (spanText n) := by
  refine ((plain_zeroPadded 2 _).append (plain_zeroPadded 2 _)).append ?_
  split_ifs
  · nofun
  · exact plain_zeroPadded 2 _

/-- Below a hundred hours, the digits tell where the minutes and the seconds begin. -/
theorem readSpan?_spanText {n : Nat} (h : n < 360000) : Stamp.readSpan? (spanText n) = some n := by
  have hhours : (Text.zeroPadded 2 (n / 3600)).toList.length = 2 :=
    Text.length_zeroPadded_two (by omega)
  have hminutes : (Text.zeroPadded 2 (n / 60 % 60)).toList.length = 2 :=
    Text.length_zeroPadded_two (by omega)
  have hseconds : (Text.zeroPadded 2 (n % 60)).toList.length = 2 :=
    Text.length_zeroPadded_two (by omega)
  unfold spanText Stamp.readSpan?
  -- by their lengths the three numbers are cut apart again
  rw [List.append_assoc, List.take_left' hhours, List.drop_left' hhours, List.take_left' hminutes,
    ← List.append_assoc, List.drop_left' (List.length_append.trans (by rw [hhours, hminutes]))]
  simp only [Text.decimal?_zeroPadded, Option.bind_eq_bind, Option.bind_some, List.length_append,
    hhours, hminutes]
  by_cases hn : n % 60 = 0
  · rw [if_pos hn, List.length_nil, if_pos rfl, Option.bind_some]
    exact congrArg some (by omega)
  · rw [if_neg hn, hseconds, if_neg (by decide), Text.decimal?_zeroPadded, Option.bind_some]
    exact congrArg some (by omega)

/-- The offset of a zone as it follows the time of day. -/
def gmtText (zone : Zone) : List Char := "GMT".toList ++ (Zone.digits "" zone.offset).toList

/-- **The zone in a datestamp**: its sign and its difference from UTC behind three letters. -/
theorem gmtText_eq (h : zone.Sound seconds) :
    gmtText zone =
      "GMT".toList ++ (if seconds < 0 then '-' else '+') :: spanText seconds.natAbs := by
  -- whole seconds have no microseconds behind them
  have hparts : Zone.parts zone.offset =
      (seconds.natAbs / 3600, seconds.natAbs / 60 % 60, seconds.natAbs % 60, 0) := by
    have hmicros : (seconds * 1000000).natAbs = seconds.natAbs * 1000000 := Int.natAbs_mul _ _
    simp only [Zone.parts, h.offset_eq, hmicros, Nat.mul_div_cancel _ (Nat.succ_pos 999999),
      Nat.mul_mod_left]
  have hsign : zone.offset < 0 ↔ seconds < 0 := by
    have := h.offset_eq
    omega
  rw [gmtText, Zone.digits, hparts]
  simp only [hsign, ne_eq, not_true_eq_false, if_false, spanText]
  split_ifs <;> simp

/-- **The difference is read back** with its sign, whatever the name of the zone is. -/
theorem readOffset?_gmtText (h : zone.Sound seconds) (name : List Char) :
    Stamp.readOffset? ((gmtText zone ++ '+' :: name).splitOn '+') = some seconds := by
  have hspan : '+' ∉ spanText seconds.natAbs := (plain_spanText _).notMem rfl (by decide)
  have hread : Stamp.readSpan? (spanText seconds.natAbs) = some seconds.natAbs :=
    readSpan?_spanText (by have := h.natAbs_lt; omega)
  rw [gmtText_eq h]
  split_ifs with hneg
  · -- behind: the sign stays with the digits
    have hgmt : '+' ∉ "GMT".toList ++ '-' :: spanText seconds.natAbs := by
      simp [hspan]
    rw [List.splitOn_append_cons_self_of_not_mem hgmt]
    change (Stamp.readSpan? (spanText seconds.natAbs)).map (fun n : Nat => -(n : Int)) = _
    rw [hread, Option.map_some]
    exact congrArg some (by omega)
  · -- ahead: the sign is where the text is cut
    rw [List.append_assoc, List.cons_append,
      List.splitOn_append_cons_self_of_not_mem (by decide),
      List.splitOn_append_cons_self_of_not_mem hspan]
    change (Stamp.readSpan? (spanText seconds.natAbs)).map (fun n : Nat => (n : Int)) = _
    rw [hread, Option.map_some]
    exact congrArg some (by omega)

/-- A sign other than those of differences does not stand in the zone. -/
theorem notMem_gmtText (h : zone.Sound seconds) (hc : c.isAlphanum = false)
    (hsign : c ∉ ['-', '+', ':']) : c ∉ gmtText zone := by
  simp only [List.mem_cons, List.not_mem_nil, or_false, not_or] at hsign
  obtain ⟨hminus, hplus, hcolon⟩ := hsign
  have hletters : Plain "GMT".toList := plain_of_all (by decide)
  rw [gmtText_eq h, List.mem_append, List.mem_cons, not_or, not_or]
  -- the letters, the sign and the difference
  refine ⟨hletters.notMem hc hcolon, ?_, (plain_spanText _).notMem hc hcolon⟩
  split_ifs
  · exact hminus
  · exact hplus

end Zone

/-! ### The parts of a datestamp -/

namespace Moment

variable {m : Moment} {zone : Zone} {seconds : Int} {c : Char}

/-- The time of day. -/
def timeText (m : Moment) : List Char :=
  (Text.zeroPadded 2 m.hour).toList ++ ':' :: ((Text.zeroPadded 2 m.minute).toList ++
    ':' :: (Text.zeroPadded 2 m.second).toList)

/-- The parts of a datestamp from the weekday to the time of day. -/
def clockTexts (m : Moment) : List (List Char) :=
  [(weekdayOn m.dayNumber).toList, (Calendar.monthNames.getD (m.month - 1) "").toList,
    (Text.zeroPadded 2 m.day).toList, (toString m.year).toList, m.timeText]

theorem plain_timeText (m : Moment) : Plain m.timeText := by
  have hcolon : ∀ {a b : List Char}, Plain a → Plain b → Plain (a ++ ':' :: b) := fun ha hb =>
    ha.append (List.forall_mem_cons.mpr ⟨.inr rfl, hb⟩)
  exact hcolon (plain_zeroPadded 2 _) (hcolon (plain_zeroPadded 2 _) (plain_zeroPadded 2 _))

/-- The parts in front of the zone are plain, each of them. -/
theorem plain_clockTexts (m : Moment) : ∀ part ∈ m.clockTexts, Plain part := by
  have hweekday : Plain (weekdayOn m.dayNumber).toList :=
    Calendar.weekdayNames_getD_weekday m.dayNumber ▸ plain_getD (by decide) _
  have hmonth : Plain (Calendar.monthNames.getD (m.month - 1) "").toList :=
    plain_getD (by decide) _
  simp only [clockTexts, List.forall_mem_cons]
  exact ⟨hweekday, hmonth, plain_zeroPadded 2 _, plain_toString _, plain_timeText m, nofun⟩

/-- So a sign does not stand in them, but for those that they are put together with. -/
theorem notMem_clockTexts (hc : c.isAlphanum = false) (hcolon : c ≠ ':') (hplus : c ≠ '+') :
    c ∉ m.clockTexts.flatMap (· ++ ['+']) := by
  intro hmem
  obtain ⟨part, hpart, hmem⟩ := List.mem_flatMap.mp hmem
  rcases List.mem_append.mp hmem with hmem | hmem
  · exact (plain_clockTexts m part hpart).notMem hc hcolon hmem
  · exact hplus (List.mem_singleton.mp hmem)

/-- What the datestamp shows of the name of a zone. -/
def nameText (zone : Zone) : List Char :=
  ('(' :: zone.name.toList ++ [')']).takeWhile (· != '\x00')

/-- **The whole datestamp**: its parts with plus signs between them, the last one being the name in
brackets. -/
theorem toList_fullDatestamp (hz : m.zone = some zone) :
    m.fullDatestamp.toList = m.clockTexts.flatMap (· ++ ['+']) ++
      (zone.gmtText ++ '+' :: ('(' :: zone.name.toList ++ [')'])) := by
  simp only [clockTexts, ← Calendar.weekdayNames_getD_weekday]
  simp [fullDatestamp, zoneTexts, hz, Zone.gmtText, timeText]

/-- **A datestamp by its parts.** -/
theorem toList_datestamp (hz : m.zone = some zone) (h : zone.Sound seconds) :
    m.datestamp.toList =
      m.clockTexts.flatMap (· ++ ['+']) ++ (zone.gmtText ++ '+' :: nameText zone) := by
  have hne : ∀ {a : List Char}, '\x00' ∉ a → ∀ c ∈ a, (c != '\x00') = true := by
    intro a ha c hc
    exact bne_iff_ne.mpr fun heq => ha (heq ▸ hc)
  -- only the name of the zone can hold what ends the datestamp
  rw [datestamp, String.toList_ofList, Text.cutAt, toList_fullDatestamp hz,
    List.takeWhile_append_of_pos (hne (notMem_clockTexts rfl (by decide) (by decide))),
    List.takeWhile_append_of_pos (hne (Zone.notMem_gmtText h rfl (by decide))),
    List.takeWhile_cons_of_pos (by decide), nameText]

/-! ### Reading it back -/

/-- The time of day is cut at its colons. -/
theorem splitOn_timeText (m : Moment) :
    m.timeText.splitOn ':' = [(Text.zeroPadded 2 m.hour).toList,
      (Text.zeroPadded 2 m.minute).toList, (Text.zeroPadded 2 m.second).toList] := by
  have hdigits : ∀ n, ':' ∉ (Text.zeroPadded 2 n).toList := fun n hmem =>
    absurd (Text.isDigit_of_mem_zeroPadded hmem) (by decide)
  rw [timeText, List.splitOn_append_cons_self_of_not_mem (hdigits _),
    List.splitOn_append_cons_self_of_not_mem (hdigits _), List.splitOn_eq_singleton (hdigits _)]

/-- A month is told by its name. -/
theorem readMonth?_monthNames {month : Nat} (hlow : 1 ≤ month) (hhigh : month ≤ 12) :
    Stamp.readMonth? (Calendar.monthNames.getD (month - 1) "") = some month := by
  interval_cases month <;> rfl

/-- **A datestamp says what the moment is**, and its weekday is that of the date. -/
theorem Sound.read?_datestamp (hm : m.Sound) (hz : m.zone = some zone) (h : zone.Sound seconds) :
    Stamp.read? m.datestamp.toList = some (m.stamp seconds) := by
  have hplus : ∀ part ∈ m.clockTexts, '+' ∉ part := fun part hpart =>
    (plain_clockTexts m part hpart).notMem rfl (by decide)
  have hyear : Text.decimal? (toString m.year).toList = some m.year :=
    Nat.toList_repr ▸ Text.decimal?_toDigits m.year
  have hmonth : Stamp.readMonth? (Calendar.monthNames.getD (m.month - 1) "") = some m.month :=
    readMonth?_monthNames hm.date.one_le_month hm.date.month_le
  rw [Stamp.read?, toList_datestamp hz h, Text.splitOn_flatMap_append hplus]
  -- every part stands alone now, and is read by the lemma about it
  simp only [clockTexts, List.cons_append, List.nil_append, splitOn_timeText, hyear, hmonth,
    String.ofList_toList, Text.decimal?_zeroPadded, Zone.readOffset?_gmtText h,
    Option.bind_eq_bind, Option.bind_some]
  rfl

/-- An offset with seconds, as of a clock that goes by the sun. -/
example : Stamp.read? "Wed+Dec+31+1969+19:03:58+GMT-045602+(LMT)".toList =
    some ⟨"Wed", ⟨1969, 12, 31⟩, 19, 3, 58, -17762⟩ := by
  decide +kernel

/-- A mark that is in no part and not in the name of the zone is not in the datestamp. -/
theorem notMem_datestamp (hz : m.zone = some zone) (h : zone.Sound seconds)
    (hc : c.isAlphanum = false) (hmarks : c ∉ ['-', '+', ':', '(', ')'])
    (hname : c ∉ zone.name.toList) : c ∉ m.datestamp.toList := by
  simp only [List.mem_cons, List.not_mem_nil, or_false, not_or] at hmarks
  obtain ⟨hminus, hplus, hcolon, hopen, hclose⟩ := hmarks
  have hgmt : c ∉ zone.gmtText := Zone.notMem_gmtText h hc (by simp [hminus, hplus, hcolon])
  -- of the name only a beginning may be shown, and nothing that is not in it
  have hshown : c ∉ nameText zone := fun hmem => by
    have := List.takeWhile_subset _ hmem
    simp [hopen, hclose, hname] at this
  rw [toList_datestamp hz h, List.mem_append, List.mem_append, List.mem_cons]
  rintro (hmem | hmem | hmem | hmem)
  · exact notMem_clockTexts hc hcolon hplus hmem
  · exact hgmt hmem
  · exact hplus hmem
  · exact hshown hmem

end Moment

end Blocklist
