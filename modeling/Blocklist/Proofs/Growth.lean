import Blocklist.Proofs.Gathering
import Mathlib.Data.List.Infix

/-!
# Rules stay as they are when more is asked for

What a rule file has to keep when its cap is raised or its registry grows: every rule that was
there, under its id and in its place. New rules come behind the old ones.

* `blocksOf_take`, `blocksOf_isPrefix` — blocks are numbered by their places, so the beginning of
  some domains makes the beginning of their blocks;
* `take_rules_of_le` — the rules under a cap are the first of those under a higher one;
* `rules_isPrefix_append` — the rules of a registry are the first of those of a longer one;
* `gathered_rules_stable` — the main statement, for any schedules of the fetches.

Both hold because the rules are known by the texts of all loaded sources in a row
(`rules_of_gather_eq_ok`): the cap cuts one list of first occurrences, and further sources put their
texts behind the others.
-/

namespace Blocklist

/-! ### Blocks for the beginning of some domains -/

/-- The blocks for the first domains are the first blocks. -/
theorem blocksOf_take (domains : List String) (n : Nat) :
    blocksOf (domains.take n) = (blocksOf domains).take n := by
  refine List.ext_getElem? fun i => ?_
  unfold blocksOf
  by_cases hi : i < n
  · rw [List.getElem?_take_of_lt hi, List.getElem?_mapIdx, List.getElem?_mapIdx,
      List.getElem?_take_of_lt hi]
  · -- from the cut on there is nothing on either side
    rw [List.getElem?_eq_none, List.getElem?_eq_none]
    · rw [List.length_take]
      omega
    · rw [List.length_mapIdx, List.length_take]
      omega

/-- Further domains have their blocks behind the others. -/
theorem blocksOf_isPrefix {domains more : List String} (h : domains <+: more) :
    blocksOf domains <+: blocksOf more := by
  rw [List.prefix_iff_eq_take.mp h, blocksOf_take]
  exact List.take_prefix _ _

/-! ### A higher cap -/

section Gather

variable {fetch : Fetcher} {sources : List Source} {cap cap' : Int} {gathered gathered' : Gathered}

/-- **A higher cap** lets more rules in behind the others. -/
theorem take_rules_of_le (hle : cap ≤ cap')
    (h : (gather (fetchAll fetch) sources cap).result = .ok gathered)
    (h' : (gather (fetchAll fetch) sources cap').result = .ok gathered') :
    gathered.rules = gathered'.rules.take cap.toNat := by
  -- both are cut from the same domains, and the lower cap cuts what is left of them
  have hcut : min cap.toNat cap'.toNat = cap.toNat := Nat.min_eq_left (by omega)
  rw [rules_of_gather_eq_ok h, rules_of_gather_eq_ok h', ← blocksOf_take, List.take_take, hcut]

/-! ### More sources -/

/-- Whether a source is fetched does not hang on the others. -/
theorem enabledSources_append (sources more : List Source) :
    enabledSources (sources ++ more) = enabledSources sources ++ enabledSources more :=
  List.filter_append ..

/-- Further sources have their texts behind the others. -/
theorem loadedTexts_append (fetch : Fetcher) (sources more : List Source) :
    loadedTexts fetch (sources ++ more) = loadedTexts fetch sources ++ loadedTexts fetch more := by
  unfold loadedTexts
  rw [enabledSources_append, List.filterMap_append]

/-- **A longer registry** has its further rules behind the others. -/
theorem rules_isPrefix_append {more : List Source}
    (h : (gather (fetchAll fetch) sources cap).result = .ok gathered)
    (h' : (gather (fetchAll fetch) (sources ++ more) cap).result = .ok gathered') :
    gathered.rules <+: gathered'.rules := by
  rw [rules_of_gather_eq_ok h, rules_of_gather_eq_ok h', loadedTexts_append, List.flatMap_append,
    blockedDomains_append, firsts_append]
  -- further domains may repeat the others, but those stay where they are
  exact blocksOf_isPrefix (List.IsPrefix.take (prefix_firstsAfter id _ _) cap.toNat)

end Gather

/-- A registry whose lists are not all out of reach gives rules under every positive cap, and so
does every longer one. -/
theorem exists_gather_append_eq_ok {fetch : Fetcher} {sources : List Source}
    (hload : ∃ source ∈ enabledSources sources, ∃ text, fetch source.location = .ok text)
    (more : List Source) {cap : Int} (hcap : 1 ≤ cap)
    (hfetch : ∀ location ∈ wanted (sources ++ more), fetch location ≠ .error .cancelled) :
    ∃ gathered, (gather (fetchAll fetch) (sources ++ more) cap).result = .ok gathered := by
  obtain ⟨loaded, hloaded, hgather⟩ := exists_gather_eq_mergeLoaded (sources ++ more) hcap hfetch
  -- the list that is there is there in the longer registry, too
  have hsome : loaded.filterMap Loaded.rules? ≠ [] := by
    obtain ⟨source, hsource, text, htext⟩ := hload
    have hmem : text ∈ loadedTexts fetch (sources ++ more) := by
      rw [loadedTexts_append]
      exact List.mem_append_left _ (List.mem_filterMap.mpr ⟨source, hsource, by rw [htext]; rfl⟩)
    rw [sets_of_loadsAs hloaded, fetchedSources, textsOf_zip_told, ne_eq, List.map_eq_nil_iff]
    exact List.ne_nil_of_mem hmem
  rw [hgather]
  exact ⟨_, mergeLoaded_eq_ok_iff.mpr ⟨hsome, rfl⟩⟩

/-- **Rules stay as they are.** Let a fetcher give the list of at least one source of a registry. As
long as it is not cancelled, rules are gathered from the registry and from any longer one, under
every positive cap. Whenever rules are gathered, under whatever schedules, those under a lower cap
are the first of those under a higher one, and those of a registry are the first of those of a
longer one. -/
theorem gathered_rules_stable (fetch : Fetcher) (sources : List Source)
    (hload : ∃ source ∈ enabledSources sources, ∃ text, fetch source.location = .ok text)
    (concurrency concurrency' : Int) :
    (∀ more cap, 1 ≤ cap →
      (∀ location ∈ wanted (sources ++ more), fetch location ≠ .error .cancelled) →
      ∃ gathered, Gathers concurrency fetch (sources ++ more) cap (.ok gathered)) ∧
    (∀ cap cap' gathered gathered', 1 ≤ cap → cap ≤ cap' →
      Gathers concurrency fetch sources cap (.ok gathered) →
      Gathers concurrency' fetch sources cap' (.ok gathered') →
      gathered.rules = gathered'.rules.take cap.toNat) ∧
    (∀ more cap gathered gathered', 1 ≤ cap →
      Gathers concurrency fetch sources cap (.ok gathered) →
      Gathers concurrency' fetch (sources ++ more) cap (.ok gathered') →
      gathered.rules <+: gathered'.rules) := by
  -- by `gathers_iff`, whatever the schedule was
  refine ⟨fun more cap hcap hfetch => ?_, fun cap cap' gathered gathered' _ hle h h' => ?_,
    fun more cap gathered gathered' _ h h' => ?_⟩
  · obtain ⟨gathered, hgathered⟩ := exists_gather_append_eq_ok hload more hcap hfetch
    exact ⟨gathered, gathers_iff.mpr hgathered⟩
  · exact take_rules_of_le hle (gathers_iff.mp h) (gathers_iff.mp h')
  · exact rules_isPrefix_append (gathers_iff.mp h) (gathers_iff.mp h')

/-- The overlapping lists under a cap of one and of three, and with the second list registered once
more. -/
theorem gathered_rules_stable_overlapping :
    (∃ source ∈ enabledSources overlappingSources, ∃ text,
      overlappingLists source.location = .ok text) ∧
    (1 : Int) ≤ 1 ∧ (1 : Int) ≤ 3 ∧ (∀ location, overlappingLists location ≠ .error .cancelled) ∧
    ∃ low high longer, Gathers 0 overlappingLists overlappingSources 1 (.ok low) ∧
      Gathers 4 overlappingLists overlappingSources 3 (.ok high) ∧
      Gathers 4 overlappingLists (overlappingSources ++ overlappingSources) 1 (.ok longer) ∧
      low.rules = high.rules.take 1 ∧ low.rules <+: longer.rules := by
  have hload : ∃ source ∈ enabledSources overlappingSources, ∃ text,
      overlappingLists source.location = .ok text :=
    ⟨⟨"easylist", "First", "first", 1, true⟩, by decide, _, rfl⟩
  obtain ⟨-, hcaps, hlonger⟩ :=
    gathered_rules_stable overlappingLists overlappingSources hload 0 4
  -- each of the three is gathered under a number of fetches of its own
  obtain ⟨low, hlow⟩ := (gathered_rules_stable overlappingLists overlappingSources hload 0 0).1
    [] 1 (by decide) fun location _ => overlappingLists_ne_cancelled location
  obtain ⟨hgathers, -, -⟩ := gathered_rules_stable overlappingLists overlappingSources hload 4 4
  obtain ⟨high, hhigh⟩ :=
    hgathers [] 3 (by decide) fun location _ => overlappingLists_ne_cancelled location
  obtain ⟨longer, hlong⟩ := hgathers overlappingSources 1 (by decide)
    fun location _ => overlappingLists_ne_cancelled location
  rw [List.append_nil] at hlow hhigh
  exact ⟨hload, by decide, by decide, overlappingLists_ne_cancelled, low, high, longer, hlow, hhigh,
    hlong, hcaps 1 3 low high (by decide) (by decide) hlow hhigh,
    hlonger overlappingSources 1 low longer (by decide) hlow hlong⟩

end Blocklist
