import Blocklist.Gather
import Blocklist.Proofs.Fetching
import Blocklist.Proofs.Merging
import Blocklist.Proofs.Outcome
import Blocklist.Proofs.Scheduling

/-!
# What sources come to

The rules that are gathered from sources are those of one long list: the lines of all loaded sources
in a row, parsed under the same cap. That each source is parsed and capped on its own, and that the
merge tells rules apart and caps them once more, cannot be seen in the result.

* `LoadsAs` — what one fetched source comes to; `loadAll_eq_ok_iff` — what all of them come to;
* `gatherFetched_eq_ok_iff` — when rules are gathered, and which;
* `rules_of_loadsAs` — the rules of what was loaded, by the texts alone; this is where the caps in
  layers (`rules_merge_blocksOf`) are used;
* `gathered_rules_eq_parse` — the main statement, from the fetcher to the rules, under any
  concurrency.
-/

namespace Blocklist

/-! ### One source after the other -/

/-- **What one fetched source comes to** under a cap: the reason why it was not fetched, or its
parsed list. -/
inductive LoadsAs (cap : Int) : Source × FetchResult → Loaded → Prop where
  | failed {source : Source} {result : FetchResult} {reason : String} :
    result.outcome = .error reason →
    LoadsAs cap (source, result) ⟨⟨source, .error reason⟩, none⟩
  | parsed {source : Source} {result : FetchResult} {text : String} {parsed : Parsed} :
    result.outcome = .ok text → parse (Text.splitLines text) cap = .ok parsed →
    LoadsAs cap (source, result) ⟨⟨source, .ok parsed.counts⟩, some parsed.rules⟩

theorem load_eq_ok_iff {cap : Int} {source : Source} {result : FetchResult} {loaded : Loaded} :
    (load cap source result).result = .ok loaded ↔ LoadsAs cap (source, result) loaded := by
  obtain ⟨location, outcome⟩ := result
  cases outcome with
  | error reason =>
    -- what was not fetched is told of, whatever the cap
    refine ⟨?_, ?_⟩
    · intro h
      obtain rfl := Except.ok.inj h
      exact .failed rfl
    · intro h
      cases h with
      | failed h =>
        obtain rfl := Except.error.inj h
        rfl
      | parsed h _ => cases h
  | ok text =>
    simp only [load, Told.result_bind, Told.result_ofExcept, Told.result_tell, bind_eq_ok_iff]
    refine ⟨?_, ?_⟩
    · rintro ⟨_, -, parsed, hparsed, _, -, h⟩
      obtain rfl := Except.ok.inj h
      exact .parsed rfl hparsed
    · intro h
      cases h with
      | failed h => cases h
      | parsed h hparsed =>
        obtain rfl := Except.ok.inj h
        exact ⟨(), trivial, _, hparsed, (), trivial, rfl⟩

/-- **What all sources come to.** They are loaded one by one, and none is left out or put in. -/
theorem loadAll_eq_ok_iff {cap : Int} {fetched : List (Source × FetchResult)}
    {loaded : List Loaded} :
    (loadAll cap fetched).result = .ok loaded ↔ List.Forall₂ (LoadsAs cap) fetched loaded := by
  -- source by source, as they are loaded
  induction fetched generalizing loaded with
  | nil =>
    rw [List.forall₂_nil_left_iff]
    exact ⟨fun h => (Except.ok.inj h).symm, fun h => h ▸ rfl⟩
  | cons pair fetched ih =>
    obtain ⟨source, result⟩ := pair
    simp only [loadAll, Told.result_bind, Told.result_pure, bind_eq_ok_iff, load_eq_ok_iff, ih,
      List.forall₂_cons_left_iff]
    refine ⟨?_, ?_⟩
    · rintro ⟨first, hfirst, others, hothers, h⟩
      exact ⟨first, others, hfirst, hothers, (Except.ok.inj h).symm⟩
    · rintro ⟨first, others, hfirst, hothers, rfl⟩
      exact ⟨first, hfirst, others, hothers, rfl⟩

/-- Under a positive cap all sources come to something. -/
theorem exists_loadsAs {cap : Int} (hcap : 1 ≤ cap) (fetched : List (Source × FetchResult)) :
    ∃ loaded, List.Forall₂ (LoadsAs cap) fetched loaded := by
  induction fetched with
  | nil => exact ⟨[], .nil⟩
  | cons pair fetched ih =>
    obtain ⟨loaded, hloaded⟩ := ih
    obtain ⟨source, result⟩ := pair
    -- a failed fetch is something, and a list parses under every positive cap
    cases hout : result.outcome with
    | error reason => exact ⟨_ :: loaded, .cons (.failed hout) hloaded⟩
    | ok text =>
      obtain ⟨parsed, hparsed, -⟩ := exists_parse_eq_ok (Text.splitLines text) hcap
      exact ⟨_ :: loaded, .cons (.parsed hout hparsed) hloaded⟩

/-! ### Merging what was loaded -/

/-- **When what was loaded is merged, and to what.** -/
theorem mergeLoaded_eq_ok_iff {cap : Int} {loaded : List Loaded} {gathered : Gathered} :
    (mergeLoaded cap loaded).result = .ok gathered ↔
      loaded.filterMap Loaded.rules? ≠ [] ∧
        gathered = ⟨(merge (loaded.filterMap Loaded.rules?) cap).rules,
          (merge (loaded.filterMap Loaded.rules?) cap).counts, loaded.map Loaded.report⟩ := by
  unfold mergeLoaded
  simp only
  by_cases hempty : (loaded.filterMap Loaded.rules?).isEmpty = true
  · -- without a set there is an error, of one kind or another
    rw [if_pos hempty]
    refine ⟨?_, ?_⟩
    · intro h
      cases h
    · rintro ⟨hne, -⟩
      exact absurd (List.isEmpty_iff.mp hempty) hne
  · rw [if_neg hempty]
    simp only [Told.result_bind, Told.result_tell, Told.result_pure, bind_eq_ok_iff]
    refine ⟨?_, ?_⟩
    · rintro ⟨_, -, _, -, h⟩
      exact ⟨fun hnil => hempty (List.isEmpty_iff.mpr hnil), (Except.ok.inj h).symm⟩
    · rintro ⟨-, rfl⟩
      exact ⟨(), trivial, (), trivial, rfl⟩

/-- **When rules are gathered, and which.** The fetches have come to results, every source has come
to something, and at least one of them to a list. -/
theorem gatherFetched_eq_ok_iff {sources : List Source} {cap : Int}
    {fetched : Except Fault (List FetchResult)} {gathered : Gathered} :
    (gatherFetched sources cap fetched).result = .ok gathered ↔
      ∃ results loaded, fetched = .ok results ∧
        List.Forall₂ (LoadsAs cap) ((enabledSources sources).zip results) loaded ∧
        (mergeLoaded cap loaded).result = .ok gathered := by
  unfold gatherFetched
  simp only [Told.result_bind, Told.result_tellAll, Told.result_ofExcept, Told.result_mapError,
    bind_eq_ok_iff, mapError_eq_ok_iff, loadAll_eq_ok_iff]
  refine ⟨?_, ?_⟩
  · rintro ⟨_, -, results, hfetched, loaded, hloaded, hmerge⟩
    exact ⟨results, loaded, hfetched, hloaded, hmerge⟩
  · rintro ⟨results, loaded, hfetched, hloaded, hmerge⟩
    exact ⟨(), trivial, results, hfetched, loaded, hloaded, hmerge⟩

/-! ### The rules, by the texts -/

/-- The texts among some fetched sources, in their order. -/
def textsOf (fetched : List (Source × FetchResult)) : List String :=
  fetched.filterMap fun pair => pair.2.outcome.toOption

/-- **The sets that were loaded** are known by the texts: a set for each. -/
theorem sets_of_loadsAs {cap : Int} {fetched : List (Source × FetchResult)}
    {loaded : List Loaded} (h : List.Forall₂ (LoadsAs cap) fetched loaded) :
    loaded.filterMap Loaded.rules? = (textsOf fetched).map fun text =>
      blocksOf ((firsts id (blockedDomains (Text.splitLines text))).take cap.toNat) := by
  unfold textsOf
  induction h with
  | nil => rfl
  | cons hfirst _ ih =>
    cases hfirst with
    | failed hout =>
      -- neither a set nor a text
      simpa only [List.filterMap_cons, hout, Except.toOption] using ih
    | parsed hout hparsed =>
      -- one set for one text, and the parser says which
      simp only [List.filterMap_cons, hout, Except.toOption, List.map_cons, ih,
        (parse_eq_ok hparsed).2]

/-- A set that was loaded was parsed, so the cap is positive and the set has blocks only. -/
theorem exists_blocksOf_of_loadsAs {cap : Int} {fetched : List (Source × FetchResult)}
    {loaded : List Loaded} (h : List.Forall₂ (LoadsAs cap) fetched loaded)
    {set : List NetworkRule} (hset : set ∈ loaded.filterMap Loaded.rules?) :
    1 ≤ cap ∧ ∃ domains, set = blocksOf domains := by
  induction h with
  | nil => cases hset
  | cons hfirst _ ih =>
    rw [List.filterMap_cons] at hset
    -- a source that failed brings no set
    cases hfirst with
    | failed _ => exact ih hset
    | parsed _ hparse =>
      rcases List.mem_cons.mp hset with rfl | hset
      · exact ⟨(parse_eq_ok hparse).1, _, (parse_eq_ok hparse).2⟩
      · exact ih hset

/-- **The rules of what was loaded** are the blocks for the domains in all the texts, in a row. -/
theorem rules_of_loadsAs {cap : Int} {fetched : List (Source × FetchResult)}
    {loaded : List Loaded} (h : List.Forall₂ (LoadsAs cap) fetched loaded) :
    (merge (loaded.filterMap Loaded.rules?) cap).rules
      = blocksOf ((firsts id
          (blockedDomains ((textsOf fetched).flatMap Text.splitLines))).take cap.toNat) := by
  have hparts : (textsOf fetched).map (fun text =>
        blocksOf ((firsts id (blockedDomains (Text.splitLines text))).take cap.toNat))
      = (((textsOf fetched).map Text.splitLines).map blockedDomains).map fun part =>
        blocksOf ((firsts id part).take cap.toNat) := by
    rw [List.map_map, List.map_map]
    rfl
  -- from here on it is about the domains of the texts only
  rw [sets_of_loadsAs h, hparts, rules_merge_blocksOf, ← blockedDomains_flatten, List.flatMap]

/-! ### From the fetcher to the rules -/

/-- The texts that a fetcher gives for the sources to fetch, in the order of the sources. -/
def loadedTexts (fetch : Fetcher) (sources : List Source) : List String :=
  (enabledSources sources).filterMap fun source => (fetch source.location).toOption

/-- Without a cancellation, the texts of the fetched sources are those of the fetcher. -/
theorem textsOf_zip_told (fetch : Fetcher) (sources : List Source) :
    textsOf ((enabledSources sources).zip ((wanted sources).map fun location =>
        .told location (fetch location)))
      = loadedTexts fetch sources := by
  unfold textsOf loadedTexts wanted
  -- each source stands beside the result for its own location
  rw [List.map_map, ← List.map_prod_left_eq_zip, List.filterMap_map]
  refine List.filterMap_congr fun source _ => ?_
  exact FetchResult.toOption_outcome_told source.location (fetch source.location)

/-- **What gathering comes to** if a number of fetches may run at once, by some run of them to the
end. -/
def Gathers (concurrency : Int) (fetch : Fetcher) (sources : List Source) (cap : Int)
    (result : Except GatherError Gathered) : Prop :=
  ∃ fetched, Fetched concurrency fetch (wanted sources) fetched ∧
    (gatherFetched sources cap fetched).result = result

/-- All runs come to the same. -/
theorem gathers_iff {concurrency : Int} {fetch : Fetcher} {sources : List Source} {cap : Int}
    {result : Except GatherError Gathered} :
    Gathers concurrency fetch sources cap result ↔
      (gather (fetchAll fetch) sources cap).result = result := by
  unfold Gathers gather
  simp only [fetched_iff, exists_eq_left]

/-- The fetched sources of a registry, if nothing was cancelled. -/
def fetchedSources (fetch : Fetcher) (sources : List Source) : List (Source × FetchResult) :=
  (enabledSources sources).zip ((wanted sources).map fun location =>
    .told location (fetch location))

/-- Under a positive cap, what is gathered from some results is the merge of what all the sources
have come to. -/
theorem exists_gatherFetched_eq_mergeLoaded (sources : List Source) {cap : Int} (hcap : 1 ≤ cap)
    (results : List FetchResult) :
    ∃ loaded, List.Forall₂ (LoadsAs cap) ((enabledSources sources).zip results) loaded ∧
      (gatherFetched sources cap (.ok results)).result = (mergeLoaded cap loaded).result := by
  obtain ⟨loaded, hloaded⟩ := exists_loadsAs hcap ((enabledSources sources).zip results)
  refine ⟨loaded, hloaded, ?_⟩
  have hload : (loadAll cap ((enabledSources sources).zip results)).result = .ok loaded :=
    loadAll_eq_ok_iff.mpr hloaded
  unfold gatherFetched
  simp only [Told.result_bind, Told.result_tellAll, Told.result_ofExcept, Told.result_mapError]
  -- the notices aside, loading comes first and does not fail
  change ((loadAll cap ((enabledSources sources).zip results)).result.mapError
    GatherError.parse >>= _) = _
  rw [hload]
  rfl

/-- Without a cancellation, what is gathered by a fetcher is the merge of what all the sources have
come to. -/
theorem exists_gather_eq_mergeLoaded (sources : List Source) {cap : Int} (hcap : 1 ≤ cap)
    {fetch : Fetcher} (hfetch : ∀ location ∈ wanted sources, fetch location ≠ .error .cancelled) :
    ∃ loaded, List.Forall₂ (LoadsAs cap) (fetchedSources fetch sources) loaded ∧
      (gather (fetchAll fetch) sources cap).result = (mergeLoaded cap loaded).result := by
  unfold gather
  rw [fetchAll_eq_ok hfetch]
  exact exists_gatherFetched_eq_mergeLoaded sources hcap _

/-- **The rules of a registry** are known by the texts of its sources. -/
theorem rules_of_gather_eq_ok {sources : List Source} {cap : Int} {fetch : Fetcher}
    {gathered : Gathered} (h : (gather (fetchAll fetch) sources cap).result = .ok gathered) :
    gathered.rules = blocksOf ((firsts id (blockedDomains
      ((loadedTexts fetch sources).flatMap Text.splitLines))).take cap.toNat) := by
  obtain ⟨results, loaded, hresults, hloaded, hmerge⟩ := gatherFetched_eq_ok_iff.mp h
  -- every fetch has come to its own result, and what has a list was merged
  obtain ⟨-, rfl⟩ := fetchAll_eq_ok_iff.mp hresults
  obtain ⟨-, rfl⟩ := mergeLoaded_eq_ok_iff.mp hmerge
  rw [← textsOf_zip_told]
  exact rules_of_loadsAs hloaded

/-- Let a fetcher never be cancelled and give the list of at least one source. Then rules are
gathered under every positive cap, and they are known by the texts. -/
theorem exists_gather_eq_ok (sources : List Source) {cap : Int} (hcap : 1 ≤ cap) {fetch : Fetcher}
    (hfetch : ∀ location, fetch location ≠ .error .cancelled)
    (hload : ∃ source ∈ enabledSources sources, ∃ text, fetch source.location = .ok text) :
    ∃ gathered, (gather (fetchAll fetch) sources cap).result = .ok gathered ∧
      gathered.rules = blocksOf ((firsts id (blockedDomains
        ((loadedTexts fetch sources).flatMap Text.splitLines))).take cap.toNat) := by
  set results := (wanted sources).map fun l => FetchResult.told l (fetch l) with hdef
  have hresults : fetchAll fetch (wanted sources) = .ok results :=
    fetchAll_eq_ok fun l _ => hfetch l
  obtain ⟨loaded, hloaded⟩ := exists_loadsAs hcap ((enabledSources sources).zip results)
  have htexts : textsOf ((enabledSources sources).zip results) = loadedTexts fetch sources :=
    textsOf_zip_told fetch sources
  -- the list that is there makes for a set to merge
  have hsome : loaded.filterMap Loaded.rules? ≠ [] := by
    obtain ⟨source, hsource, text, htext⟩ := hload
    have hmem : text ∈ loadedTexts fetch sources :=
      List.mem_filterMap.mpr ⟨source, hsource, by rw [htext]; rfl⟩
    rw [sets_of_loadsAs hloaded, htexts, ne_eq, List.map_eq_nil_iff]
    exact List.ne_nil_of_mem hmem
  have hgather : (gatherFetched sources cap (fetchAll fetch (wanted sources))).result = .ok _ :=
    gatherFetched_eq_ok_iff.mpr
      ⟨results, loaded, hresults, hloaded, mergeLoaded_eq_ok_iff.mpr ⟨hsome, rfl⟩⟩
  refine ⟨_, hgather, ?_⟩
  rw [← htexts]
  exact rules_of_loadsAs hloaded

/-- **Layered caps, one pass.** Let a fetcher never be cancelled and give the list of at least one
source. Then rules are gathered under every positive cap, and they are the rules of one list, which
has the lines of all loaded sources in a row. The number of fetches that may run at once makes no
difference: the fetches can run to their end, and whichever way they do, the same is gathered. -/
theorem gathered_rules_eq_parse (sources : List Source) {cap : Int} (hcap : 1 ≤ cap)
    (concurrency : Int) {fetch : Fetcher} (hfetch : ∀ location, fetch location ≠ .error .cancelled)
    (hload : ∃ source ∈ enabledSources sources, ∃ text, fetch source.location = .ok text) :
    ∃ gathered parsed,
      (gather (fetchAll fetch) sources cap).result = .ok gathered ∧
      (∃ result, Fetched concurrency fetch (wanted sources) result) ∧
      (∀ result, Fetched concurrency fetch (wanted sources) result →
        (gatherFetched sources cap result).result = .ok gathered) ∧
      parse ((loadedTexts fetch sources).flatMap Text.splitLines) cap = .ok parsed ∧
      gathered.rules = parsed.rules := by
  obtain ⟨gathered, hgather, hgathered⟩ := exists_gather_eq_ok sources hcap hfetch hload
  obtain ⟨parsed, hparsed, hrules⟩ :=
    exists_parse_eq_ok ((loadedTexts fetch sources).flatMap Text.splitLines) hcap
  refine ⟨gathered, parsed, hgather, ⟨_, fetched_iff.mpr rfl⟩, ?_, hparsed, ?_⟩
  · intro result hresult
    -- whatever the order of the fetches was, they came to the same
    rw [fetched_iff.mp hresult]
    exact hgather
  · rw [hgathered, hrules]

/-- Two lists that overlap, and a third that cannot be read. -/
def overlappingLists : Fetcher
  | "first" => .ok "! first\n||a.test^\n||b.test^\n||c.test^"
  | "second" => .ok "||b.test^$image\n||d.test^\n"
  | _ => .error (.failure .system "")

/-- A registry with the two lists, and with one that is off and one that nothing is known of. -/
def overlappingSources : List Source :=
  [⟨"easylist", "First", "first", 1, true⟩, ⟨"easylist", "Off", "second", 1, false⟩,
    ⟨"other", "Unknown", "first", 1, true⟩, ⟨"easyprivacy", "Second", "second", 2, true⟩,
    ⟨"easyprivacy", "Gone", "third", 3, true⟩]

/-- No fetch of them is cancelled. -/
theorem overlappingLists_ne_cancelled (location : String) :
    overlappingLists location ≠ .error .cancelled := by
  unfold overlappingLists
  split
  · exact fun h => nomatch h
  · exact fun h => nomatch h
  · exact fun h => nomatch h

/-- The overlapping lists, with one fetch at a time and three rules at most. -/
theorem gathered_rules_eq_parse_overlapping :
    (1 : Int) ≤ 3 ∧ (∀ location, overlappingLists location ≠ .error .cancelled) ∧
    (∃ source ∈ enabledSources overlappingSources, ∃ text,
      overlappingLists source.location = .ok text) ∧
    ∃ gathered parsed,
      (gather (fetchAll overlappingLists) overlappingSources 3).result = .ok gathered ∧
      (∃ result, Fetched 0 overlappingLists (wanted overlappingSources) result) ∧
      (∀ result, Fetched 0 overlappingLists (wanted overlappingSources) result →
        (gatherFetched overlappingSources 3 result).result = .ok gathered) ∧
      parse ((loadedTexts overlappingLists overlappingSources).flatMap Text.splitLines) 3
        = .ok parsed ∧
      gathered.rules = parsed.rules := by
  have hload : ∃ source ∈ enabledSources overlappingSources, ∃ text,
      overlappingLists source.location = .ok text :=
    ⟨⟨"easylist", "First", "first", 1, true⟩, by decide, _, rfl⟩
  exact ⟨by decide, overlappingLists_ne_cancelled, hload,
    gathered_rules_eq_parse overlappingSources (by decide) 0 overlappingLists_ne_cancelled hload⟩

end Blocklist
