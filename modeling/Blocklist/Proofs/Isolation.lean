import Blocklist.Proofs.Fetching
import Blocklist.Proofs.Scheduling
import Mathlib.Data.List.Forall2

/-!
# How far one location reaches

Fetches do not touch each other, but before the first of them starts, the locations are asked for a
page, in order and up to the first page. A location that is neither page nor file answers with an
error. Behind a page nobody asks it, and it fails alone; before all pages it ends the whole.

* `toldAlone` — what is told of a location by itself, which no other location changes;
* `anyHttp_eq_error_iff` — when the question for a page ends the whole;
* `fetchEverything_isolated_iff` — the main statement: all locations come to what they come to alone
  exactly if all of them are well-formed.
-/

namespace Blocklist

/-- Whether a location is that of a page or of a file. -/
def Location.WellFormed (location : String) : Prop :=
  ∃ isPage, Location.isHttp location = .ok isPage

/-- Whether no page cancels all the work. -/
def Reach.NeverCancels (reach : Reach) : Prop :=
  ∀ entry ∈ reach.web, entry.2.fault ≠ some .cancelled

/-! ### Faults of one location -/

/-- What a request makes of a fault is no cancellation, unless it was one. -/
theorem Fault.ofRequest_ne_cancelled {fault : Fault} (url : String) (h : fault ≠ .cancelled) :
    fault.ofRequest url ≠ .cancelled := by
  cases fault with
  | refusal location reason => exact Fault.noConfusion
  | failure kind text =>
    simp only [Fault.ofRequest]
    -- a timeout, a fault of the client, and any other
    split_ifs
    all_goals exact Fault.noConfusion
  | cancelled => exact absurd rfl h

/-- What goes wrong in an exchange, if anything does. -/
def Exchange.fault? : Exchange → Option Fault
  | .unopened fault => some fault
  | .opened _ (.error fault) => some fault
  | .opened _ (.ok _) => none

/-- The fault of a page comes out at one of two stages, and is the same at both. -/
theorem Page.fault?_exchange (page : Page) : page.exchange.fault? = page.fault := by
  unfold Page.exchange
  cases page.fault with
  | none => rfl
  | some fault =>
    simp only
    split_ifs
    · rfl
    · rfl

/-- An exchange that is not cancelled does not come to a cancellation. -/
theorem Exchange.text_ne_cancelled {exchange : Exchange} (h : exchange.fault? ≠ some .cancelled)
    (url : String) : exchange.text url ≠ .error .cancelled := by
  have hrequest : ∀ fault : Fault, some fault ≠ some .cancelled →
      (.error (fault.ofRequest url) : Except Fault String) ≠ .error .cancelled := by
    intro fault hne heq
    exact Fault.ofRequest_ne_cancelled url (fun h => hne (congrArg some h)) (Except.error.inj heq)
  cases exchange with
  | unopened fault => exact hrequest fault h
  | opened status body =>
    simp only [Exchange.text]
    split_ifs
    · -- a status from 400 up is a refusal, whatever becomes of the body
      exact fun h => nomatch h
    · cases body with
      | ok bytes => exact fun h => nomatch h
      | error fault => exact hrequest fault h

/-- Where no page is cancelled, no exchange is, even if nothing is at the address. -/
theorem Web.fault?_exchange_ne_cancelled {web : Web}
    (hweb : ∀ entry ∈ web, entry.2.fault ≠ some .cancelled) (url : String) :
    (web.exchange url).fault? ≠ some .cancelled := by
  unfold Web.exchange
  cases hpage : web.lookup url with
  | none => exact fun h => Fault.noConfusion (Option.some.inj h)
  | some page =>
    obtain ⟨before, after, rfl, -⟩ := List.lookup_eq_some_iff.mp hpage
    have hfault := hweb (url, page) (List.mem_append_right before List.mem_cons_self)
    simp only
    rwa [Page.fault?_exchange]

/-- **A location never cancels**, unless its page does. -/
theorem fetchLocation_ne_cancelled {reach : Reach} (hreach : reach.NeverCancels) (session : Bool)
    (location : String) : fetchLocation reach session location ≠ .error .cancelled := by
  unfold fetchLocation
  cases Location.isHttp location with
  | error e => exact fun h => nomatch h
  | ok isPage =>
    cases isPage with
    | true =>
      cases session with
      | true =>
        have hfault := Web.fault?_exchange_ne_cancelled hreach location
        exact Exchange.text_ne_cancelled hfault location
      | false => exact fun h => nomatch h
    | false =>
      -- a file is read or refused
      change readList reach.place location ≠ _
      unfold readList
      split_ifs
      · exact fun h => nomatch h
      · cases reach.place.readFile location with
        | ok content => exact fun h => nomatch h
        | error fault => exact fun h => nomatch h

/-! ### The question for a page -/

/-- Files are looked at one by one, and looking goes on behind them. -/
theorem anyHttp_append {before : List String}
    (h : ∀ location ∈ before, Location.isHttp location = .ok false) (others : List String) :
    anyHttp (before ++ others) = anyHttp others := by
  induction before with
  | nil => rfl
  | cons location before ih =>
    obtain ⟨hfile, hfiles⟩ := List.forall_mem_cons.mp h
    rw [List.cons_append, anyHttp, hfile]
    exact ih hfiles

/-- **When the question ends the whole**: at a location that is neither page nor file, if no page
comes before it. -/
theorem anyHttp_eq_error_iff {locations : List String} {e : LocationError} :
    anyHttp locations = .error e ↔
      ∃ before bad after, locations = before ++ bad :: after ∧
        (∀ location ∈ before, Location.isHttp location = .ok false) ∧
        Location.isHttp bad = .error e := by
  refine ⟨?_, ?_⟩
  · intro h
    induction locations with
    | nil => cases h
    | cons location locations ih =>
      unfold anyHttp at h
      cases hfirst : Location.isHttp location with
      | error e' =>
        rw [hfirst] at h
        exact ⟨[], location, locations, rfl, nofun, hfirst.trans h⟩
      | ok isPage =>
        rw [hfirst] at h
        cases isPage with
        | true =>
          -- the first page answers for all that comes behind it
          cases h
        | false =>
          obtain ⟨before, bad, after, rfl, hfiles, hbad⟩ := ih h
          exact ⟨location :: before, bad, after, rfl,
            List.forall_mem_cons.mpr ⟨hfirst, hfiles⟩, hbad⟩
  · rintro ⟨before, bad, after, rfl, hfiles, hbad⟩
    rw [anyHttp_append hfiles, anyHttp, hbad]

/-- If the answer is no, there is no page. -/
theorem isHttp_of_anyHttp_eq_false {locations : List String} (h : anyHttp locations = .ok false) :
    ∀ location ∈ locations, Location.isHttp location = .ok false := by
  induction locations with
  | nil => exact nofun
  | cons location locations ih =>
    unfold anyHttp at h
    -- looking ends at a page or at an error, so neither was met
    cases hfirst : Location.isHttp location with
    | error e =>
      rw [hfirst] at h
      cases h
    | ok isPage =>
      rw [hfirst] at h
      cases isPage with
      | true => cases h
      | false => exact List.forall_mem_cons.mpr ⟨hfirst, ih h⟩

/-! ### Alone and among others -/

/-- **What is told of a location by itself.** -/
def toldAlone (reach : Reach) (location : String) : FetchResult :=
  .told location (fetchLocation reach true location)

/-- A session makes no difference to what is not a page. -/
theorem fetchLocation_of_ne_page {reach : Reach} {location : String} (session : Bool)
    (h : Location.isHttp location ≠ .ok true) :
    fetchLocation reach session location = fetchLocation reach true location := by
  unfold fetchLocation
  -- only a page needs a session
  cases hfirst : Location.isHttp location with
  | error e => rfl
  | ok isPage =>
    cases isPage with
    | true => exact absurd hfirst h
    | false => rfl

/-- **Among others as alone.** If the question for a page has an answer, every location comes to
what is told of it by itself. -/
theorem fetchEverything_eq_ok {reach : Reach} (hreach : reach.NeverCancels)
    {locations : List String} {session : Bool} (h : anyHttp locations = .ok session) :
    fetchEverything reach locations = .ok (locations.map (toldAlone reach)) := by
  unfold fetchEverything
  rw [h]
  refine (fetchAll_eq_ok fun l _ => fetchLocation_ne_cancelled hreach session l).trans ?_
  refine congrArg Except.ok (List.map_congr_left fun location hlocation => ?_)
  unfold toldAlone
  -- without a session there are no pages, and nothing else asks for one
  cases session with
  | true => rfl
  | false =>
    rw [fetchLocation_of_ne_page false]
    rw [isHttp_of_anyHttp_eq_false h location hlocation]
    exact fun hpage => nomatch hpage

/-- A well-formed location can be fetched by itself. -/
theorem fetchEverything_singleton {reach : Reach} (hreach : reach.NeverCancels) {location : String}
    (h : Location.WellFormed location) :
    fetchEverything reach [location] = .ok [toldAlone reach location] := by
  obtain ⟨isPage, hpage⟩ := h
  have hany : anyHttp [location] = .ok isPage := by
    simp only [anyHttp, hpage]
    cases isPage <;> rfl
  exact fetchEverything_eq_ok hreach hany

/-- **A malformed location by itself** is not told of but ends the whole. -/
theorem fetchEverything_singleton_of_error {reach : Reach} {location : String} {e : LocationError}
    (h : Location.isHttp location = .error e) :
    fetchEverything reach [location] = .error (.ofLocation e) := by
  simp only [fetchEverything, anyHttp, h]

/-- Every error of a location has a text. -/
theorem LocationError.message_ne_empty (e : LocationError) : e.message ≠ "" := by
  intro h
  cases e with
  | brackets => simp [LocationError.message] at h
  | notAnAddress host => simp [LocationError.message, toString] at h
  | version4InBrackets => simp [LocationError.message] at h
  | futureAddress => simp [LocationError.message] at h
  | disguised authority => simp [LocationError.message, toString] at h

/-- Among others, a malformed location is told of with its error. -/
theorem toldAlone_of_error {reach : Reach} {location : String} {e : LocationError}
    (h : Location.isHttp location = .error e) :
    toldAlone reach location = ⟨location, .error e.message⟩ := by
  have hfetch : fetchLocation reach true location = .error (.ofLocation e) := by
    simp only [fetchLocation, h]
  simp only [toldAlone, hfetch, FetchResult.told, Fault.ofLocation, Fault.report?,
    e.message_ne_empty, if_false, Option.getD_some]

/-- What comes to results comes to those that are told of the locations by themselves. -/
theorem eq_map_of_fetchEverything_eq_ok {reach : Reach} (hreach : reach.NeverCancels)
    {locations : List String} {results : List FetchResult}
    (h : fetchEverything reach locations = .ok results) :
    results = locations.map (toldAlone reach) := by
  cases hany : anyHttp locations with
  | error e =>
    simp only [fetchEverything, hany] at h
    cases h
  | ok session =>
    rw [fetchEverything_eq_ok hreach hany] at h
    exact (Except.ok.inj h).symm

/-- The only fault is that of a location ahead of all pages. -/
theorem fetchEverything_eq_error_iff {reach : Reach} (hreach : reach.NeverCancels)
    {locations : List String} {fault : Fault} :
    fetchEverything reach locations = .error fault ↔
      ∃ before bad after e, locations = before ++ bad :: after ∧
        (∀ location ∈ before, Location.isHttp location = .ok false) ∧
        Location.isHttp bad = .error e ∧ fault = .ofLocation e := by
  refine ⟨?_, ?_⟩
  · intro h
    -- looking at the locations is all that can fail, as each fetch keeps its fault to itself
    cases hany : anyHttp locations with
    | error e =>
      simp only [fetchEverything, hany] at h
      obtain ⟨before, bad, after, hsplit, hfiles, hbad⟩ := anyHttp_eq_error_iff.mp hany
      exact ⟨before, bad, after, e, hsplit, hfiles, hbad, (Except.error.inj h).symm⟩
    | ok session =>
      rw [fetchEverything_eq_ok hreach hany] at h
      cases h
  · rintro ⟨before, bad, after, e, hsplit, hfiles, hbad, rfl⟩
    have hany := anyHttp_eq_error_iff.mpr ⟨before, bad, after, hsplit, hfiles, hbad⟩
    simp only [fetchEverything, hany]

/-! ### Isolation -/

/-- **Whether locations do not touch each other**: together they come to results, and each to the
one that it comes to alone. -/
def Isolated (reach : Reach) (locations : List String) : Prop :=
  ∃ results, fetchEverything reach locations = .ok results ∧
    List.Forall₂ (fun location result => fetchEverything reach [location] = .ok [result])
      locations results

/-- **When faults stay with their locations**: if no location is malformed. -/
theorem isolated_iff {reach : Reach} (hreach : reach.NeverCancels) {locations : List String} :
    Isolated reach locations ↔ ∀ location ∈ locations, Location.WellFormed location := by
  refine ⟨?_, ?_⟩
  · rintro ⟨results, -, halone⟩ location hlocation
    obtain ⟨i, hi, rfl⟩ := List.getElem_of_mem hlocation
    have hsingle := halone.get hi (halone.length_eq ▸ hi)
    -- by itself a malformed location does not come to a result
    cases hpage : Location.isHttp locations[i] with
    | ok isPage => exact ⟨isPage, hpage⟩
    | error e =>
      rw [List.get_eq_getElem, fetchEverything_singleton_of_error hpage] at hsingle
      cases hsingle
  · intro hall
    cases hany : anyHttp locations with
    | error e =>
      obtain ⟨before, bad, after, rfl, -, hbad⟩ := anyHttp_eq_error_iff.mp hany
      obtain ⟨isPage, hpage⟩ := hall bad (List.mem_append_right before List.mem_cons_self)
      rw [hbad] at hpage
      cases hpage
    | ok session =>
      refine ⟨_, fetchEverything_eq_ok hreach hany, ?_⟩
      rw [List.forall₂_map_right_iff, List.forall₂_same]
      exact fun location hlocation => fetchEverything_singleton hreach (hall location hlocation)

/-- **When one location reaches the others.** Let no page cancel all the work, and any number of
fetches run at once. Locations fail as a whole exactly if one of them is malformed and no page comes
before it. Otherwise each has its result, in their order, and the result of a well-formed one is
that which it has alone. A malformed one alone fails as a whole, so locations are isolated exactly
if all of them are well-formed. -/
theorem fetchEverything_isolated_iff {reach : Reach} (hreach : reach.NeverCancels)
    (concurrency : Int) (locations : List String) :
    (∀ result, FetchedEverything concurrency reach locations result ↔
      result = fetchEverything reach locations) ∧
    (∀ fault, fetchEverything reach locations = .error fault ↔
      ∃ before bad after e, locations = before ++ bad :: after ∧
        (∀ location ∈ before, Location.isHttp location = .ok false) ∧
        Location.isHttp bad = .error e ∧ fault = .ofLocation e) ∧
    (∀ results, fetchEverything reach locations = .ok results →
      results = locations.map (toldAlone reach)) ∧
    (∀ location, Location.WellFormed location →
      fetchEverything reach [location] = .ok [toldAlone reach location]) ∧
    (∀ location e, Location.isHttp location = .error e →
      fetchEverything reach [location] = .error (.ofLocation e) ∧
        toldAlone reach location = ⟨location, .error e.message⟩) ∧
    (Isolated reach locations ↔ ∀ location ∈ locations, Location.WellFormed location) :=
  ⟨fun _ => fetchedEverything_iff, fun _ => fetchEverything_eq_error_iff hreach,
    fun _ => eq_map_of_fetchEverything_eq_ok hreach,
    fun _ => fetchEverything_singleton hreach,
    fun _ _ h => ⟨fetchEverything_singleton_of_error h, toldAlone_of_error h⟩,
    isolated_iff hreach⟩

/-- A page, a file, and a location with a bracket that is left open. -/
def unclosedReach : Reach :=
  { web := [("http://a.test/", { body := "||a.test^".toUTF8 })]
    place := { tree := { entries := [(["list.txt"], .file "||b.test^".toUTF8)] } } }

/-- A page and a file are isolated; an open bracket ahead of the file takes it down. -/
theorem fetchEverything_isolated_iff_unclosed :
    unclosedReach.NeverCancels ∧
    Isolated unclosedReach ["list.txt", "http://a.test/"] ∧
    (∀ result, FetchedEverything 4 unclosedReach ["http://[x", "list.txt"] result →
      result = .error (.failure .value "Invalid IPv6 URL")) ∧
    ¬ Isolated unclosedReach ["http://[x", "list.txt"] := by
  -- there is one page, and it is not cancelled
  have hreach : unclosedReach.NeverCancels := by
    intro entry hentry
    obtain rfl := List.mem_singleton.mp hentry
    exact nofun
  have hbad : Location.isHttp "http://[x" = .error .brackets := by decide
  obtain ⟨-, -, -, -, -, hgood⟩ :=
    fetchEverything_isolated_iff hreach 4 ["list.txt", "http://a.test/"]
  obtain ⟨hfetched, hfault, -, -, -, hisolated⟩ :=
    fetchEverything_isolated_iff hreach 4 ["http://[x", "list.txt"]
  refine ⟨hreach, hgood.mpr ?_, fun result hresult => ?_, fun h => ?_⟩
  · exact List.forall_mem_cons.mpr
      ⟨⟨false, by decide⟩, List.forall_mem_singleton.mpr ⟨true, by decide⟩⟩
  · rw [(hfetched result).mp hresult]
    exact (hfault _).mpr ⟨[], _, _, .brackets, rfl, nofun, hbad, rfl⟩
  · obtain ⟨isPage, hpage⟩ := hisolated.mp h _ List.mem_cons_self
    rw [hbad] at hpage
    cases hpage

end Blocklist
