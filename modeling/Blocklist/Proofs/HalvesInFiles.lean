import Blocklist.Proofs.Encoding
import Blocklist.Proofs.OneInstant
import Blocklist.Proofs.RuleLayout

/-!
# Where halves come into the two files

Everything in a rule file but the filters of the blocking rules is set by the program, and
everything in a signature file but the name of the time zone. None of it is beyond U+007F. So a half
that keeps one of the files from being written was in the list that a filter is from, or in the name
of a zone.

* `Spelled` — texts with no other characters beyond U+007F than those of some name;
* `exists_hasHalf_ruleFile_iff` — a rule file has a half exactly if a filter in it has;
* `spelled_datestamp`, `hasHalf_zone_of_signatureFile` — a signature file has one only if the name
  of the zone has.
-/

namespace Blocklist

open Json

/-! ### Texts without halves -/

section HasHalf

variable {codec : Text.Codec}

/-- **What no codec touches** has no half. -/
theorem not_hasHalf_of_low {s : String} (h : ∀ c ∈ s.toList, Low c) : ¬ codec.HasHalf s := by
  rintro ⟨c, hc, hhalf⟩
  exact hhalf (codec.half?_of_lt c (h c hc))

/-- Fixed texts below U+0080 have no halves, in whatever way halves stand in texts. -/
theorem not_exists_hasHalf_of_all {texts : List String}
    (h : texts.all (fun s => s.toList.all (Low ·)) = true) : ¬ ∃ s ∈ texts, codec.HasHalf s := by
  rintro ⟨s, hs, hhalf⟩
  exact not_hasHalf_of_low (low_of_all (List.all_eq_true.mp h s hs)) hhalf

end HasHalf

theorem strings_ofStrings (texts : List String) : (ofStrings texts).strings = texts := by
  rw [ofStrings, strings, stringsOfItems_eq_flatMap, List.flatMap_map]
  simp only [strings, List.flatMap_singleton']

/-! ### Rule files -/

/-- The strings of a blocking rule: its filter, and what all of them have. -/
theorem strings_toJson_block (id : Nat) (domain : String) (id_pos : 0 < id) :
    (NetworkRule.block id domain id_pos).toJson.strings =
      ["id", "priority", "action", "type", "block", "condition", "urlFilter"] ++
        NetworkRule.filterOf domain :: "resourceTypes" :: blockedTypes := by
  have hcondition : (NetworkRule.blockCondition domain).toJson
      = .obj [("urlFilter", .str (NetworkRule.filterOf domain)),
        ("resourceTypes", ofStrings blockedTypes)] := by
    unfold Condition.toJson NetworkRule.blockCondition
    -- a filter is left out only if it is empty
    rw [if_neg (filterOf_ne_empty domain)]
    rfl
  unfold NetworkRule.toJson NetworkRule.block
  simp only [hcondition]
  rfl

/-- Those of the privacy signal are the same under every cap. -/
theorem strings_toJson_privacySignal {cap : Int} {signal : NetworkRule}
    (h : NetworkRule.privacySignal cap = .ok signal) :
    signal.toJson.strings =
      ["id", "priority", "action", "type", "modifyHeaders", "requestHeaders", "header", "Sec-GPC",
        "operation", "set", "value", "1", "condition", "resourceTypes"] ++ signalTypes := by
  unfold NetworkRule.privacySignal NetworkRule.make at h
  split at h
  · obtain rfl := Except.ok.inj h
    rfl
  · cases h

/-- **A block has a half** exactly if its filter has one: all else in it is fixed. -/
theorem exists_hasHalf_block_iff {codec : Text.Codec} {id : Nat} {domain : String}
    {id_pos : 0 < id} :
    (∃ s ∈ (NetworkRule.block id domain id_pos).toJson.strings, codec.HasHalf s) ↔
      codec.HasHalf (NetworkRule.filterOf domain) := by
  have hfront : ¬ ∃ s ∈ ["id", "priority", "action", "type", "block", "condition", "urlFilter"],
      codec.HasHalf s := not_exists_hasHalf_of_all (by decide +kernel)
  have hback : ¬ ∃ s ∈ "resourceTypes" :: blockedTypes, codec.HasHalf s :=
    not_exists_hasHalf_of_all (by decide +kernel)
  rw [strings_toJson_block]
  -- only the filter is left between the texts in front of it and those behind it
  constructor
  · rintro ⟨s, hs, hhalf⟩
    rcases List.mem_append.mp hs with hs | hs
    · exact absurd ⟨s, hs, hhalf⟩ hfront
    · rcases List.mem_cons.mp hs with rfl | hs
      · exact hhalf
      · exact absurd ⟨s, hs, hhalf⟩ hback
  · exact fun hhalf => ⟨_, List.mem_append_right _ List.mem_cons_self, hhalf⟩

/-- Gathered rules are blocks, whatever was fetched. -/
theorem exists_blocksOf_of_gather_eq_ok {fetch : List String → Except Fault (List FetchResult)}
    {sources : List Source} {cap : Int} {gathered : Gathered}
    (h : (gather fetch sources cap).result = .ok gathered) :
    ∃ domains, gathered.rules = blocksOf domains := by
  obtain ⟨results, loaded, -, hloaded, hmerge⟩ := gatherFetched_eq_ok_iff.mp h
  obtain ⟨-, rfl⟩ := mergeLoaded_eq_ok_iff.mp hmerge
  exact ⟨_, rules_of_loadsAs hloaded⟩

/-- **When the rule file of a build has a half**: the filter of one of its rules has. -/
theorem exists_hasHalf_ruleFile_iff {codec : Text.Codec}
    {fetch : List String → Except Fault (List FetchResult)} {r : Recipe} {made : Prepared}
    (h : (prepare fetch r).result = .ok made) :
    (∃ s ∈ (ruleFile made.rules).strings, codec.HasHalf s) ↔
      ∃ rule ∈ made.rules, codec.HasHalf rule.filter := by
  obtain ⟨gathered, signal, signed, hgathered, hsignal, -, rfl⟩ := prepare_eq_ok_iff.mp h
  obtain ⟨domains, hdomains⟩ := exists_blocksOf_of_gather_eq_ok hgathered
  -- of each rule it is told by the filter, which the signal has none of
  have hrule : ∀ rule ∈ gathered.rules ++ [signal],
      (∃ s ∈ rule.toJson.strings, codec.HasHalf s) ↔ codec.HasHalf rule.filter := by
    intro rule hrule
    rcases List.mem_append.mp hrule with hblock | hlast
    · rw [hdomains] at hblock
      obtain ⟨i, hi, rfl⟩ := List.mem_mapIdx.mp hblock
      exact exists_hasHalf_block_iff
    · obtain rfl := List.mem_singleton.mp hlast
      rw [strings_toJson_privacySignal hsignal, (privacySignal_eq_ok hsignal).2.2]
      exact iff_of_false (not_exists_hasHalf_of_all (by decide +kernel)) (not_hasHalf_of_low nofun)
  rw [ruleFile, strings, stringsOfItems_eq_flatMap, List.flatMap_map]
  simp only [List.mem_flatMap]
  refine ⟨?_, ?_⟩
  · rintro ⟨s, ⟨rule, hmem, hs⟩, hhalf⟩
    exact ⟨rule, hmem, (hrule rule hmem).mp ⟨s, hs, hhalf⟩⟩
  · rintro ⟨rule, hmem, hhalf⟩
    obtain ⟨s, hs, hhalf⟩ := (hrule rule hmem).mpr hhalf
    exact ⟨s, ⟨rule, hmem, hs⟩, hhalf⟩

/-! ### Signature files -/

/-- **Texts with no other characters** beyond U+007F than those of a name. -/
def Spelled (name : List Char) (s : String) : Prop := ∀ c ∈ s.toList, Low c ∨ c ∈ name

section Spelled

variable {name : List Char} {s s' : String}

/-- A text below U+0080 owes nothing to the name. -/
theorem spelled_of_low (h : ∀ c ∈ s.toList, Low c) : Spelled name s := fun c hc => .inl (h c hc)

/-- What is put together from such texts is one. -/
theorem Spelled.append (h : Spelled name s) (h' : Spelled name s') : Spelled name (s ++ s') := by
  unfold Spelled
  rw [String.toList_append]
  exact List.forall_mem_append.mpr ⟨h, h'⟩

/-- So is what is put together with a mark between the parts. -/
theorem Spelled.intercalate (h : Spelled name s) {texts : List String}
    (htexts : ∀ t ∈ texts, Spelled name t) : Spelled name (s.intercalate texts) := by
  induction texts with
  | nil => exact spelled_of_low nofun
  | cons t texts ih =>
    obtain ⟨hfirst, hrest⟩ := List.forall_mem_cons.mp htexts
    -- a mark stands between two parts, so that the last one has none behind it
    cases texts with
    | nil => simpa using hfirst
    | cons t' texts =>
      rw [String.intercalate_cons_cons]
      exact (hfirst.append h).append (ih hrest)

/-- A text that the program has by heart. -/
theorem spelled_of_all (h : s.toList.all (Low ·) = true) : Spelled name s :=
  spelled_of_low (low_of_all h)

/-- Fixed texts are looked through once for all of them. -/
theorem spelled_of_forall {texts : List String}
    (h : texts.all (fun s => s.toList.all (Low ·)) = true) : ∀ s ∈ texts, Spelled name s :=
  fun s hs => spelled_of_all (List.all_eq_true.mp h s hs)

/-- A number is written in digits and a sign. -/
theorem spelled_toString (n : Int) : Spelled name (toString n) :=
  spelled_of_low fun _ => low_of_mem_toString

theorem spelled_toString_nat (n : Nat) : Spelled name (toString n) := spelled_toString (n : Int)

theorem spelled_zeroPadded (width n : Nat) : Spelled name (Text.zeroPadded width n) :=
  spelled_of_low fun _ hc => low_of_isDigit (Text.isDigit_of_mem_zeroPadded hc)

/-- A text that is picked from fixed ones, or the empty one. -/
theorem spelled_getD {texts : List String} (h : texts.all (fun s => s.toList.all (Low ·)) = true)
    (i : Nat) : Spelled name (texts.getD i "") := by
  rw [List.getD_eq_getElem?_getD]
  cases hi : texts[i]? with
  | none => exact spelled_of_all rfl
  | some text => exact spelled_of_all (List.all_eq_true.mp h text (List.mem_of_getElem? hi))

/-- The digits of an offset have colons between them or nothing. -/
theorem spelled_digits {colon : String} (hcolon : colon.toList.all (Low ·) = true) (offset : Int) :
    Spelled name (Zone.digits colon offset) := by
  have hsign : Spelled name (if offset < 0 then "-" else "+") := by
    split_ifs
    · exact spelled_of_all rfl
    · exact spelled_of_all rfl
  have hcolon : Spelled name colon := spelled_of_all hcolon
  rcases hparts : Zone.parts offset with ⟨h, m, s, us⟩
  have hminutes := ((hsign.append (spelled_zeroPadded 2 h)).append hcolon).append
    (spelled_zeroPadded 2 m)
  have hseconds := (hminutes.append hcolon).append (spelled_zeroPadded 2 s)
  unfold Zone.digits
  simp only [hparts]
  -- hours and minutes are always there, seconds and microseconds only if they are not zero
  by_cases hus : us = 0
  · by_cases hs : s = 0
    · rw [if_neg (not_not.mpr hus), if_neg (not_not.mpr hs)]
      exact hminutes
    · rw [if_neg (not_not.mpr hus), if_pos hs]
      exact hseconds
  · rw [if_pos hus]
    exact (hseconds.append (spelled_of_all rfl)).append (spelled_zeroPadded 6 us)

end Spelled

/-- A text that is cut off has no characters of its own. -/
theorem mem_of_mem_cutAt {sep c : Char} {cs : List Char} (h : c ∈ (Text.cutAt sep cs).1) :
    c ∈ cs :=
  (List.takeWhile_sublist _).subset h

/-- **A datestamp spells the name of its zone** and nothing else beyond U+007F. -/
theorem spelled_datestamp (m : Moment) : Spelled m.zoneTexts.2.toList m.datestamp := by
  generalize hname : m.zoneTexts.2.toList = name
  have hzone : Spelled name m.zoneTexts.2 := fun c hc => .inr (hname ▸ hc)
  have hoffset : Spelled name m.zoneTexts.1 := by
    unfold Moment.zoneTexts
    cases m.zone with
    | none => exact spelled_of_all rfl
    | some zone => exact spelled_digits (rfl : "".toList.all (Low ·) = true) zone.offset
  have hweekday : Spelled name
      (Calendar.weekdayNames.getD (Calendar.weekday m.dayNumber) "") :=
    spelled_getD (by decide +kernel) _
  have hmonth : Spelled name (Calendar.monthNames.getD (m.month - 1) "") :=
    spelled_getD (by decide +kernel) _
  have htime : Spelled name (":".intercalate [Text.zeroPadded 2 m.hour, Text.zeroPadded 2 m.minute,
      Text.zeroPadded 2 m.second]) := by
    refine Spelled.intercalate (spelled_of_all rfl) ?_
    simp only [List.forall_mem_cons, spelled_zeroPadded, true_and]
    exact nofun
  have hgmt : Spelled name ("GMT" ++ m.zoneTexts.1) := Spelled.append (spelled_of_all rfl) hoffset
  have hlast : Spelled name ("(" ++ m.zoneTexts.2 ++ ")") :=
    ((spelled_of_all (s := "(") rfl).append hzone).append (spelled_of_all rfl)
  have hfull : Spelled name m.fullDatestamp := by
    rw [Moment.fullDatestamp]
    refine Spelled.intercalate (spelled_of_all rfl) ?_
    simp only [List.forall_mem_cons]
    exact ⟨hweekday, hmonth, spelled_zeroPadded 2 m.day, spelled_toString_nat m.year, htime, hgmt,
      hlast, nofun⟩
  -- what is cut off at a NUL brings nothing in
  intro c hc
  rw [Moment.datestamp, String.toList_ofList] at hc
  exact hfull c (mem_of_mem_cutAt hc)

section Cookies

variable {now : Moment} {name : List Char}

/-- A moment that is taken as one with a zone has the zone it came with, or else UTC. -/
theorem Moment.eq_inZone_of_inUtc_eq_ok {m : Moment} (h : now.inUtc = .ok m) : m = now.inZone := by
  obtain ⟨year, month, day, hour, minute, second, micro, zone⟩ := now
  cases zone with
  | some zone => exact (Except.ok.inj h).symm
  -- without a zone the moment is taken for one in UTC, if it can be
  | none =>
    simp only [inUtc] at h
    split_ifs at h
    exact (Except.ok.inj h).symm

/-- Fields spell what their keys and values spell. -/
theorem spelled_fields {sep mark : String} (hsep : sep.toList.all (Low ·) = true)
    (hmark : mark.toList.all (Low ·) = true) {fields : List (String × String)}
    (h : ∀ field ∈ fields, Spelled name field.1 ∧ Spelled name field.2) :
    Spelled name (sep.intercalate (fields.map fun (key, value) => key ++ mark ++ value)) := by
  refine Spelled.intercalate (spelled_of_all hsep) fun text htext => ?_
  obtain ⟨field, hfield, rfl⟩ := List.mem_map.mp htext
  obtain ⟨hkey, hvalue⟩ := h field hfield
  exact (hkey.append (spelled_of_all hmark)).append hvalue

/-- **The first cookie** shows the name of the zone in its datestamp, and nowhere else. -/
theorem spelled_oneTrustCookie {value : String} (hdate : Spelled name now.inZone.datestamp)
    (h : oneTrustCookie now.inZone = .ok value) : Spelled name value := by
  obtain ⟨m, hm, h⟩ := bind_eq_ok_iff.mp h
  obtain rfl := Except.ok.inj (now.inUtc_inZone.symm.trans hm)
  obtain ⟨seconds, -, h⟩ := bind_eq_ok_iff.mp h
  obtain rfl := Except.ok.inj h
  have hid : Spelled name (consentStamp ++ "-" ++ toString seconds) :=
    Spelled.append (spelled_of_all (by decide +kernel)) (spelled_toString seconds)
  -- all else in the cookie is known by heart
  have hall : ∀ s ∈ ["isGpcEnabled", "0", "datestamp", "version", oneTrustVersion, "browserGpcFlag",
      "isIABGlobal", "false", "hosts", "", "consentId", "interactionCount", "1", "landingPath",
      "NotLandingPage", "groups", oneTrustGroups], Spelled name s :=
    spelled_of_forall (by decide +kernel)
  simp only [List.forall_mem_cons] at hall
  refine spelled_fields rfl rfl ?_
  unfold oneTrustFields
  simp only [List.forall_mem_cons, hall, hdate, hid, true_and]
  exact nofun

/-- **The second cookie** does not show it at all: its time is a number. -/
theorem spelled_cookiebotCookie {value : String} (h : cookiebotCookie now.inZone = .ok value) :
    Spelled name value := by
  obtain ⟨m, hm, h⟩ := bind_eq_ok_iff.mp h
  obtain rfl := Except.ok.inj (now.inUtc_inZone.symm.trans hm)
  obtain ⟨millis, -, h⟩ := bind_eq_ok_iff.mp h
  obtain rfl := Except.ok.inj h
  -- every key and every value but the number is a fixed text
  have hall : ∀ s ∈ ["stamp", "'" ++ consentStamp ++ "'", "necessary", "true", "preferences",
      "false", "statistics", "marketing", "method", "'explicit'", "ver", "1", "utc", "region",
      "'eu'"], Spelled name s := spelled_of_forall (by decide +kernel)
  simp only [List.forall_mem_cons] at hall
  refine ((spelled_of_all rfl).append (spelled_fields rfl rfl ?_)).append (spelled_of_all rfl)
  unfold cookiebotFields
  simp only [List.forall_mem_cons, hall, spelled_toString, true_and]
  exact nofun

/-- A signature spells what its cookie does, besides what the program has by heart. -/
theorem spelled_toJson_signature {id known key value : String} {detectors selectors : List String}
    (hvalue : Spelled name value)
    (htexts : [id, known, key].all (fun text => text.toList.all (Low ·)) = true)
    (hlists : (detectors ++ selectors).all (fun text => text.toList.all (Low ·)) = true) :
    ∀ text ∈ (Signature.toJson ⟨id, known, detectors, ⟨key, value⟩, selectors⟩).strings,
      Spelled name text := by
  have hkeys : ∀ text ∈ ["id", "name", "detectors", "cookie", "value", "hideSelectors"],
      Spelled name text := spelled_of_forall (by decide +kernel)
  have htexts : ∀ text ∈ [id, known, key], Spelled name text := spelled_of_forall htexts
  have hlists : ∀ text ∈ detectors ++ selectors, Spelled name text := spelled_of_forall hlists
  -- besides the value of the cookie there are the keys, three texts and two lists of texts
  obtain ⟨hdetectors, hselectors⟩ := List.forall_mem_append.mp hlists
  simp only [List.forall_mem_cons] at hkeys htexts
  unfold Signature.toJson
  simp only [strings, stringsOfFields, stringsOfField, strings_ofStrings, List.forall_mem_append,
    List.forall_mem_cons, hkeys, htexts, hvalue, List.not_mem_nil, false_implies, implies_true,
    true_and, and_true]
  exact ⟨hdetectors, hselectors⟩

/-- The first signature, with its cookie. -/
theorem spelled_oneTrust {s : Signature} (h : oneTrust now.inZone = .ok s) :
    ∀ text ∈ s.toJson.strings, Spelled (now.zone.getD .utc).name.toList text := by
  obtain ⟨value, hvalue, rfl⟩ := map_eq_ok_iff.mp h
  exact spelled_toJson_signature (spelled_oneTrustCookie (spelled_datestamp _) hvalue)
    (by decide +kernel) (by decide +kernel)

/-- The second signature, with its cookie. -/
theorem spelled_cookiebot {s : Signature} (h : cookiebot now.inZone = .ok s) :
    ∀ text ∈ s.toJson.strings, Spelled name text := by
  obtain ⟨value, hvalue, rfl⟩ := map_eq_ok_iff.mp h
  exact spelled_toJson_signature (spelled_cookiebotCookie hvalue) (by decide +kernel)
    (by decide +kernel)

/-- **When a signature file has a half**: the name of the time zone has. -/
theorem hasHalf_zone_of_signatureFile {codec : Text.Codec} {signed : List Signature}
    (h : signatures now = .ok signed)
    (hhalf : ∃ s ∈ (signatureFile signed).strings, codec.HasHalf s) :
    ∃ zone ∈ now.zone, codec.HasHalf zone.name := by
  obtain ⟨m, hm, h⟩ := bind_eq_ok_iff.mp h
  obtain rfl := Moment.eq_inZone_of_inUtc_eq_ok hm
  obtain ⟨first, hfirst, h⟩ := bind_eq_ok_iff.mp h
  obtain ⟨second, hsecond, h⟩ := bind_eq_ok_iff.mp h
  obtain rfl := Except.ok.inj h
  -- both cookies are made in the zone that the moment has, or else in universal time
  have hfirst := spelled_oneTrust hfirst
  have hsecond : ∀ text ∈ second.toJson.strings, Spelled (now.zone.getD .utc).name.toList text :=
    spelled_cookiebot hsecond
  obtain ⟨s, hs, c, hc, hhalf⟩ := hhalf
  have hname : c ∈ (now.zone.getD .utc).name.toList := by
    rw [signatureFile, strings, stringsOfItems_eq_flatMap, List.flatMap_map] at hs
    obtain ⟨signature, hsignature, htext⟩ := List.mem_flatMap.mp hs
    have hspelled : Spelled (now.zone.getD .utc).name.toList s := by
      rcases List.mem_pair.mp hsignature with rfl | rfl
      · exact hfirst s htext
      · exact hsecond s htext
    exact (hspelled c hc).resolve_left fun hlow => hhalf (codec.half?_of_lt c hlow)
  cases hzone : now.zone with
  | some zone =>
    rw [hzone] at hname
    exact ⟨zone, rfl, c, hname, hhalf⟩
  | none =>
    rw [hzone] at hname
    exact absurd ⟨c, hname, hhalf⟩ (not_hasHalf_of_low (low_of_all (by decide +kernel)))

end Cookies

end Blocklist
