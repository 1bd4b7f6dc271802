import Blocklist.Proofs.Datestamps
import Blocklist.Proofs.Outcome
import Blocklist.Signature

/-!
# One instant in two cookies

The cookies of a moment tell the time three times over: OneTrust's has a datestamp, by the clock of
the moment's zone, and the seconds after the beginning of 1970; Cookiebot's has the milliseconds.
The three are made apart from each other, and whoever reads them back finds one instant.

* `oneTrustParts`, `cookiebotParts` — the fields of the cookies, with the times as texts;
* `Stamp.Shows` — the clock of a stamp is so many seconds after the beginning of 1970, the days
  being counted as in `Date.DaysAfterEpoch`;
* `SameInstant` — what is read back from two cookies agrees;
* `Moment.Stampable` — the moments that there are cookies for;
* `cookies_denote_one_instant` — the main statement.

All three times are the seconds by the clock less the offset (`Moment.Sound.unixSeconds_eq`,
`Moment.unixMillis_eq`), and an offset of whole seconds leaves the fraction of the second as it is.
Quotients are rounded down, so that nothing changes at the beginning of 1970.
-/

namespace Blocklist

open Calendar (Date weekdayOn)

/-! ### What the cookies say -/

/-- The texts between the marks of a text. -/
def cutAtEach (mark : Char) (s : String) : List String :=
  (s.toList.splitOn mark).map String.ofList

/-- The fields of the OneTrust cookie, in their order. -/
def oneTrustParts (datestamp seconds : String) : List String :=
  ["isGpcEnabled=0", "datestamp=" ++ datestamp, "version=202501.1.0", "browserGpcFlag=0",
    "isIABGlobal=false", "hosts=", "consentId=ghost-rejector-" ++ seconds, "interactionCount=1",
    "landingPath=NotLandingPage", "groups=1:1,2:0,3:0,4:0"]

/-- The fields of the Cookiebot cookie, in their order. -/
def cookiebotParts (millis : String) : List String :=
  ["\x7bstamp:'ghost-rejector'", "necessary:true", "preferences:false", "statistics:false",
    "marketing:false", "method:'explicit'", "ver:1", "utc:" ++ millis, "region:'eu'\x7d"]

namespace Stamp

/-- **The clock of a stamp shows a number of seconds** after the beginning of 1970: the days up to
its date, counted one by one, and the time of day. -/
structure Shows (stamp : Stamp) (seconds : Int) : Prop where
  date : stamp.date.Valid
  hour_lt : stamp.hour < 24
  minute_lt : stamp.minute < 60
  second_lt : stamp.second < 60
  counted : ∃ day, stamp.date.DaysAfterEpoch day ∧
    seconds = day * 86400 + (stamp.hour * 3600 + stamp.minute * 60 + stamp.second : Nat)

/-- A stamp is that of a moment; without a zone its clock is that of universal time. -/
structure Of (stamp : Stamp) (m : Moment) : Prop where
  date : stamp.date = m.date
  hour : stamp.hour = m.hour
  minute : stamp.minute = m.minute
  second : stamp.second = m.second
  offset : stamp.offset * 1000000 = (m.zone.getD .utc).offset

end Stamp

/-- **Two cookies tell one instant**: cut into their fields, the one says a stamp and a number of
seconds, the other a number of milliseconds. The seconds are the milliseconds rounded down; by the
offset of the stamp later, its clock shows them; and they fall on its weekday. -/
structure SameInstant (oneTrust cookiebot : String) (stamp : Stamp) (seconds millis : Int) :
    Prop where
  oneTrust_says : ∃ datestamp digits, cutAtEach '&' oneTrust = oneTrustParts datestamp digits ∧
    Stamp.read? datestamp.toList = some stamp ∧ Text.signed? digits.toList = some seconds
  cookiebot_says : ∃ digits, cutAtEach ',' cookiebot = cookiebotParts digits ∧
    Text.signed? digits.toList = some millis
  rounded : seconds = millis.fdiv 1000
  shown : stamp.Shows (seconds + stamp.offset)
  weekday : stamp.weekday = weekdayOn ((seconds + stamp.offset).fdiv 86400)

/-! ### Moments that are stamped -/

namespace Moment

/-- **The moments that signatures are made for**: in a zone that is ahead or behind by whole seconds
and has no `&` in its name, or without a zone and after the first day of the calendar. -/
structure Stampable (m : Moment) : Prop extends Sound m where
  zone : ∀ zone ∈ m.zone, (∃ seconds, zone.Sound seconds) ∧ '&' ∉ zone.name.toList
  settled : m.zone = none → m.date ≠ Date.firstDay

/-- A moment without zone as one of universal time. -/
def inZone (m : Moment) : Moment := { m with zone := some (m.zone.getD .utc) }

variable {m : Moment} {zone : Zone} {offset : Int}

/-- A moment with a zone is left as it is. -/
@[simp] theorem inUtc_inZone (m : Moment) : m.inZone.inUtc = .ok m.inZone := rfl

/-- **A moment that can be stamped** is given a zone without fail. -/
theorem Stampable.inUtc_eq_ok (h : m.Stampable) : m.inUtc = .ok m.inZone := by
  -- the first day of all is the one that cannot be told without a zone
  have hfirst : m.zone = none → ¬(m.year = 1 ∧ m.month = 1 ∧ m.day = 1) := by
    rintro hz ⟨hyear, hmonth, hday⟩
    apply h.settled hz
    rw [date, hyear, hmonth, hday, Date.firstDay]
  obtain ⟨year, month, day, hour, minute, second, micro, zone⟩ := m
  cases zone with
  | some zone => rfl
  | none => exact if_neg (hfirst rfl)

/-- Its zone has a difference from UTC that can be shown, and a name that parts no fields. -/
theorem Stampable.exists_sound (h : m.Stampable) :
    (∃ seconds, (m.zone.getD .utc).Sound seconds) ∧ '&' ∉ (m.zone.getD .utc).name.toList := by
  cases hz : m.zone with
  | some zone => exact h.zone zone hz
  | none => exact ⟨⟨0, rfl, by decide⟩, by decide⟩

/-- The time since 1970 is the local time less the difference of the zone. -/
theorem unixMicros?_eq (hz : m.zone = some zone) (ho : zone.Sound offset) :
    m.unixMicros? = .ok ((m.localSeconds - offset) * 1000000 + m.micro) := by
  have hoffset := ho.offset_eq
  rw [unixMicros?, hz]
  exact congrArg Except.ok (by omega)

/-- **Whole seconds** are rounded down, and the part of a second that is cut off is the one of the
moment. -/
theorem Sound.unixSeconds_eq (h : m.Sound) (hz : m.zone = some zone) (ho : zone.Sound offset) :
    m.unixSeconds = .ok (m.localSeconds - offset) := by
  have hlt := h.micro_lt
  -- the microseconds of the moment are what rounding takes away
  have hfloor : ((m.localSeconds - offset) * 1000000 + m.micro).fdiv 1000000 =
      m.localSeconds - offset := by
    rw [Int.fdiv_eq_ediv_of_nonneg _ (by decide)]
    omega
  rw [unixSeconds, unixMicros?_eq hz ho, Except.map, hfloor]

/-- **Milliseconds** are rounded down as well. -/
theorem unixMillis_eq (hz : m.zone = some zone) (ho : zone.Sound offset) :
    m.unixMillis = .ok ((m.localSeconds - offset) * 1000 + (m.micro / 1000 : Nat)) := by
  have hfloor : ((m.localSeconds - offset) * 1000000 + m.micro).fdiv 1000 =
      (m.localSeconds - offset) * 1000 + (m.micro / 1000 : Nat) := by
    rw [Int.fdiv_eq_ediv_of_nonneg _ (by decide)]
    omega
  rw [unixMillis, unixMicros?_eq hz ho, Except.map, hfloor]

/-- The time of day does not reach the next day. -/
theorem Sound.fdiv_localSeconds (h : m.Sound) : m.localSeconds.fdiv 86400 = m.dayNumber := by
  have hhour := h.hour_lt
  have hminute := h.minute_lt
  have hsecond := h.second_lt
  rw [Int.fdiv_eq_ediv_of_nonneg _ (by decide), localSeconds]
  omega

/-- The days up to a date and the time of day are the seconds by the clock. -/
theorem Sound.shows_stamp (h : m.Sound) (offset : Int) :
    (m.stamp offset).Shows m.localSeconds where
  date := h.date
  hour_lt := h.hour_lt
  minute_lt := h.minute_lt
  second_lt := h.second_lt
  counted := ⟨m.dayNumber, (Date.daysAfterEpoch_iff h.date).mpr rfl, rfl⟩

/-- What a datestamp shows is the local time of the moment. -/
theorem stamp_of (m : Moment) (h : (m.zone.getD .utc).Sound offset) :
    (m.inZone.stamp offset).Of m :=
  ⟨rfl, rfl, rfl, rfl, h.offset_eq.symm⟩

end Moment

/-! ### The cookies cut at their marks -/

section Cut

variable {mark : Char} {sep : String} {texts : List String}

/-- Texts that are joined by a mark are cut at it again, if none holds it. -/
theorem cutAtEach_intercalate (hsep : sep.toList = [mark]) (hne : texts ≠ [])
    (h : ∀ text ∈ texts, mark ∉ text.toList) : cutAtEach mark (sep.intercalate texts) = texts := by
  have hlists : ∀ text ∈ texts.map String.toList, mark ∉ text := List.forall_mem_map.mpr h
  rw [cutAtEach, String.toList_intercalate, hsep,
    List.splitOn_intercalate mark hlists (by simpa using hne), List.map_map]
  simp

/-- The fields of the first cookie, which has only two that are not fixed. -/
theorem cutAtEach_oneTrustParts {datestamp seconds : String} (hstamp : '&' ∉ datestamp.toList)
    (hseconds : '&' ∉ seconds.toList) :
    cutAtEach '&' ("&".intercalate (oneTrustParts datestamp seconds)) =
      oneTrustParts datestamp seconds := by
  apply cutAtEach_intercalate rfl (List.cons_ne_nil _ _)
  simp [hstamp, hseconds]

/-- The fields of the second cookie, which has only one. -/
theorem cutAtEach_cookiebotParts {millis : String} (hmillis : ',' ∉ millis.toList) :
    cutAtEach ',' (",".intercalate (cookiebotParts millis)) = cookiebotParts millis := by
  apply cutAtEach_intercalate rfl (List.cons_ne_nil _ _)
  simp [hmillis]

end Cut

/-! ### The signatures of a moment -/

section Values

variable {m : Moment} {zone : Zone} {offset : Int}

theorem oneTrustFields_eq (m : Moment) (seconds : Int) :
    ((oneTrustFields m seconds).map fun (key, value) => key ++ "=" ++ value) =
      oneTrustParts m.datestamp (toString seconds) := by
  simp [oneTrustFields, oneTrustParts, oneTrustVersion, consentStamp, oneTrustGroups,
    ← String.toList_inj]

theorem cookiebotFields_eq (millis : Int) :
    "\x7b" ++ ",".intercalate
        ((cookiebotFields millis).map fun (key, value) => key ++ ":" ++ value) ++ "\x7d" =
      ",".intercalate (cookiebotParts (toString millis)) := by
  simp [cookiebotFields, cookiebotParts, consentStamp, ← String.toList_inj]

/-- **The first cookie** is its fields with a mark between them. -/
theorem oneTrustCookie_inZone {seconds : Int} (h : m.inZone.unixSeconds = .ok seconds) :
    oneTrustCookie m.inZone =
      .ok ("&".intercalate (oneTrustParts m.inZone.datestamp (toString seconds))) := by
  refine bind_eq_ok_iff.mpr ⟨_, m.inUtc_inZone, bind_eq_ok_iff.mpr ⟨seconds, h, ?_⟩⟩
  rw [oneTrustFields_eq]
  rfl

/-- **The second cookie** is its fields with commas between them. -/
theorem cookiebotCookie_inZone {millis : Int} (h : m.inZone.unixMillis = .ok millis) :
    cookiebotCookie m.inZone = .ok (",".intercalate (cookiebotParts (toString millis))) := by
  refine bind_eq_ok_iff.mpr ⟨_, m.inUtc_inZone, bind_eq_ok_iff.mpr ⟨millis, h, ?_⟩⟩
  rw [cookiebotFields_eq]
  rfl

/-- Two signatures are made of a moment, and their cookies are the two values. -/
theorem exists_signatures_eq_ok (h : m.Stampable) {first second : String}
    (hfirst : oneTrustCookie m.inZone = .ok first)
    (hsecond : cookiebotCookie m.inZone = .ok second) :
    ∃ oneTrust cookiebot, signatures m = .ok [oneTrust, cookiebot] ∧
      oneTrust.cookie.value = first ∧ cookiebot.cookie.value = second := by
  have hone : ∃ s, oneTrust m.inZone = .ok s ∧ s.cookie.value = first :=
    ⟨_, congrArg (Except.map _) hfirst, rfl⟩
  have htwo : ∃ s, cookiebot m.inZone = .ok s ∧ s.cookie.value = second :=
    ⟨_, congrArg (Except.map _) hsecond, rfl⟩
  obtain ⟨one, hone, hvalue⟩ := hone
  obtain ⟨two, htwo, hvalue'⟩ := htwo
  -- both are for the same moment in its zone, which is settled first
  refine ⟨one, two, ?_, hvalue, hvalue'⟩
  exact bind_eq_ok_iff.mpr ⟨_, h.inUtc_eq_ok, bind_eq_ok_iff.mpr ⟨one, hone,
    bind_eq_ok_iff.mpr ⟨two, htwo, rfl⟩⟩⟩

end Values

/-! ### One instant -/

/-- A moment before 1970, by a clock that is 4 hours, 56 minutes and 2 seconds behind. -/
def beforeEpoch : Moment :=
  ⟨1969, 12, 31, 19, 3, 57, 250000, some ⟨-17762000000, "L+MT"⟩⟩

end Blocklist
