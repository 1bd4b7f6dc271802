import Blocklist.Proofs.Balance
import Blocklist.Proofs.Gathering
import Blocklist.Proofs.RuleFile
import Blocklist.Proofs.RuleLayout
import Mathlib.Algebra.Ring.Nat

/-!
# Nothing that is read is unaccounted for

The counts of the lists, those of the merge and those of a build fit together: what one stage puts
out is what the next takes in, and every stage accounts for all it takes in. No parsed rule is
without a filter, so that the merge drops only what is a duplicate or over the cap.

* `Gathered.Balanced` — the balance of what was gathered; `balanced_of_gather_eq_ok` — it always
  holds;
* `BuildStats.Balanced` — the balance of a build; `Gathered.Balanced.stats` — it is that of what was
  gathered, with the privacy signal added;
* `counts_balanced` — the main statement, down to the rule file that is left behind.
-/

namespace Blocklist

/-! ### Lists -/

/-- The counts of the lists that were loaded. -/
def loadedCounts (reports : List SourceReport) : List ParseCounts :=
  reports.filterMap fun report => report.outcome.toOption

/-- Lists that balance one by one do so together. -/
theorem sum_linesRead_of_balanced {counts : List ParseCounts} (h : ∀ c ∈ counts, c.Balanced) :
    (counts.map ParseCounts.linesRead).sum
      = (counts.map fun c => c.skipped.total).sum
        + (counts.map ParseCounts.duplicatePruned).sum
        + (counts.map ParseCounts.rulesEmitted).sum := by
  induction counts with
  | nil => rfl
  | cons c counts ih =>
    obtain ⟨hc, hcounts⟩ := List.forall_mem_cons.mp h
    -- the sums of the others balance, and so does what is added to them
    have hrest := ih hcounts
    have hfirst : c.linesRead = c.skipped.total + c.duplicatePruned + c.rulesEmitted := hc
    simp only [List.map_cons, List.sum_cons]
    omega

section Loaded

variable {cap : Int} {fetched : List (Source × FetchResult)} {loaded : List Loaded}

theorem balanced_of_mem_loadedCounts (h : List.Forall₂ (LoadsAs cap) fetched loaded) :
    ∀ c ∈ loadedCounts (loaded.map Loaded.report), c.Balanced := by
  induction h with
  | nil => exact nofun
  | cons hfirst _ ih =>
    -- a source that failed has no counts
    cases hfirst with
    | failed _ => exact ih
    | parsed _ hparse => exact List.forall_mem_cons.mpr ⟨balanced_of_parse_eq_ok hparse, ih⟩

/-- **What the lists give is what the merge takes in.** -/
theorem sum_rules_of_loadsAs (h : List.Forall₂ (LoadsAs cap) fetched loaded) :
    ((loaded.map Loaded.report).map SourceReport.rules).sum
      = (loaded.filterMap Loaded.rules?).flatten.length := by
  induction h with
  | nil => rfl
  | cons hfirst _ ih =>
    rw [List.map_cons, List.map_cons, List.sum_cons, ih]
    -- a source that failed reports no rules, and brings no set
    cases hfirst with
    | failed _ => exact Nat.zero_add _
    | @parsed _ _ _ parsed _ hparse =>
      have hrules : parsed.counts.rulesEmitted = parsed.rules.length :=
        rulesEmitted_of_parse_eq_ok hparse
      change parsed.counts.rulesEmitted + _ = (parsed.rules :: _).flatten.length
      rw [List.flatten_cons, List.length_append, hrules]

/-- **No parsed rule is without a filter.** -/
theorem countP_isBare_of_loadsAs (h : List.Forall₂ (LoadsAs cap) fetched loaded) :
    (loaded.filterMap Loaded.rules?).flatten.countP NetworkRule.isBare = 0 := by
  rw [List.countP_eq_zero]
  intro rule hrule
  obtain ⟨set, hset, hmem⟩ := List.mem_flatten.mp hrule
  -- every set is made of blocks, and a block has the filter of its domain
  obtain ⟨-, domains, rfl⟩ := exists_blocksOf_of_loadsAs h hset
  rw [NetworkRule.isBare_iff]
  exact filter_ne_of_mem_blocksOf hmem

end Loaded

/-! ### What was gathered -/

/-- **The balance of what was gathered.** -/
structure Gathered.Balanced (g : Gathered) : Prop where
  /-- Every list that was loaded balances. -/
  each : ∀ c ∈ loadedCounts g.reports, c.Balanced
  /-- So do all of them together. -/
  lines : ((loadedCounts g.reports).map ParseCounts.linesRead).sum
    = ((loadedCounts g.reports).map fun c => c.skipped.total).sum
      + ((loadedCounts g.reports).map ParseCounts.duplicatePruned).sum
      + ((loadedCounts g.reports).map ParseCounts.rulesEmitted).sum
  /-- What the sources give is merged. -/
  parsed : (g.reports.map SourceReport.rules).sum = g.counts.totalInput
  /-- What is merged is kept, or a duplicate, or over the cap. -/
  merged : g.counts.totalInput = g.rules.length + g.counts.duplicatePruned + g.counts.capPruned
  noneBare : g.counts.emptyFilterSkipped = 0

/-- **Everything that is gathered balances.** -/
theorem balanced_of_gather_eq_ok {fetch : List String → Except Fault (List FetchResult)}
    {sources : List Source} {cap : Int} {gathered : Gathered}
    (h : (gather fetch sources cap).result = .ok gathered) : gathered.Balanced := by
  obtain ⟨results, loaded, -, hloaded, hmerge⟩ := gatherFetched_eq_ok_iff.mp h
  obtain ⟨-, rfl⟩ := mergeLoaded_eq_ok_iff.mp hmerge
  set sets := loaded.filterMap Loaded.rules? with hsets
  have heach := balanced_of_mem_loadedCounts hloaded
  have hcounts := balanced_counts_merge sets cap
  have hnone : (merge sets cap).counts.emptyFilterSkipped = 0 :=
    hcounts.emptyFilterSkipped_eq.trans (countP_isBare_of_loadsAs hloaded)
  refine ⟨heach, sum_linesRead_of_balanced heach, ?_, ?_, hnone⟩
  · exact (sum_rules_of_loadsAs hloaded).trans hcounts.totalInput_eq.symm
  · -- without rules that are bare, three terms are left of the four
    have hbalance := hcounts.balance
    rw [hnone, totalOutput_merge] at hbalance
    simpa only [Nat.add_zero] using hbalance

/-! ### Builds -/

/-- **The balance of a build.** -/
structure BuildStats.Balanced (s : BuildStats) : Prop where
  sources : s.sourcesEnabled = s.sourcesLoaded + s.sourcesFailed
  rules : s.rulesParsed = s.blockingRules + s.duplicatePruned + s.capPruned
  /-- Besides the blocking rules there is the privacy signal. -/
  signal : s.networkRules = s.blockingRules + 1

theorem Gathered.Balanced.stats {g : Gathered} (h : g.Balanced) (signal : NetworkRule)
    (signed : List Signature) : (g.stats (g.rules ++ [signal]) signed).Balanced := by
  refine ⟨?_, h.merged, List.length_append⟩
  -- the failed sources are counted as what is left of all of them
  have hle : g.reports.countP SourceReport.ok ≤ g.reports.length := List.countP_le_length
  exact (Nat.add_sub_cancel' hle).symm

section Build

variable {fetch : List String → Except Fault (List FetchResult)} {place : Place} {process : Nat}
  {r : Recipe} {stats : BuildStats}

/-- **A build that goes well has made everything and saved it.** -/
theorem exists_prepare_of_build_eq_ok (h : (build fetch place process r).2.result = .ok stats) :
    ∃ made, (prepare fetch r).result = .ok made ∧ stats = made.stats ∧
      (saveAll place process r made).2 = .ok () := by
  -- neither a stage nor a save has failed
  cases hprepared : (prepare fetch r).result with
  | error e =>
    rw [build_of_prepare_eq_error hprepared] at h
    cases h
  | ok made =>
    rw [build_of_prepare_eq_ok hprepared] at h
    cases hsaved : (saveAll place process r made).2 with
    | error e =>
      simp only [hsaved] at h
      cases h
    | ok _ =>
      simp only [hsaved] at h
      exact ⟨made, rfl, (Except.ok.inj h).symm, hsaved⟩

/-- **Whatever is saved is there** right after. -/
theorem exists_holds_of_saveAt_eq_ok {destination : Option String} {value : Json}
    (h : (saveAt place process destination value).2 = .ok ()) :
    ∃ q ∈ place.output? destination, (saveAt place process destination value).1.Holds q value := by
  cases destination with
  | none => cases h
  | some path =>
    simp only [saveAt] at h ⊢
    cases hsave : save place process path value with
    | mk after saved =>
      rw [hsave] at h
      cases saved with
      | error e => cases h
      | ok q =>
        obtain ⟨rfl, hholds⟩ := of_save_eq_ok hsave
        exact ⟨_, rfl, hholds⟩

/-- If everything was saved, the rules were. -/
theorem saveAt_rules_of_saveAll_eq_ok {made : Prepared}
    (h : (saveAll place process r made).2 = .ok ()) :
    (saveAt place process r.rulesOut (ruleFile made.rules)).2 = .ok () := by
  unfold saveAll at h
  cases hsave : saveAt place process r.rulesOut (ruleFile made.rules) with
  | mk between saved =>
    rw [hsave] at h
    cases saved with
    | error e => cases h
    | ok _ => rfl

end Build

/-- **The counts balance.** Of everything that is gathered, all lines and all rules are accounted
for. The statistics of a build that goes well balance too, and they give the number of objects in
the rule file: it is saved with so many, and left behind with so many, unless the signatures get in
its way. -/
theorem counts_balanced (fetch : List String → Except Fault (List FetchResult)) (place : Place)
    (process : Nat) (r : Recipe) :
    (∀ gathered, (gather fetch r.sources r.cap).result = .ok gathered → gathered.Balanced) ∧
    ∀ stats, (build fetch place process r).2.result = .ok stats →
      stats.Balanced ∧
      ∃ gathered made q, (gather fetch r.sources r.cap).result = .ok gathered ∧
        (prepare fetch r).result = .ok made ∧
        stats = gathered.stats made.rules made.signatures ∧
        q ∈ place.output? r.rulesOut ∧
        (saveAt place process r.rulesOut (ruleFile made.rules)).1.HoldsObjects q
          stats.networkRules ∧
        (Separate place process r →
          (build fetch place process r).1.HoldsObjects q stats.networkRules) := by
  refine ⟨fun gathered => balanced_of_gather_eq_ok, fun stats hstats => ?_⟩
  obtain ⟨made, hmade, rfl, hsaved⟩ := exists_prepare_of_build_eq_ok hstats
  obtain ⟨gathered, signal, signed, hgathered, -, -, rfl⟩ := prepare_eq_ok_iff.mp hmade
  obtain ⟨q, hq, hholds⟩ := exists_holds_of_saveAt_eq_ok (saveAt_rules_of_saveAll_eq_ok hsaved)
  have hbalanced := balanced_of_gather_eq_ok hgathered
  refine ⟨hbalanced.stats signal signed, gathered, _, q, hgathered, hmade, rfl, hq,
    hholds.holdsObjects, fun hseparate => ?_⟩
  -- what goes well leaves no draft
  obtain ⟨hleft, -⟩ | ⟨hleft, -⟩ := build_outcome fetch hseparate
  · rw [hstats] at hleft
    obtain ⟨⟨q', hq', hholds'⟩, -⟩ := hleft.holds hmade
    obtain rfl := Option.some.inj (hq.symm.trans hq')
    exact hholds'.holdsObjects
  · rw [hstats] at hleft
    cases hleft

/-- Where there is nothing yet, all that has a text is saved. -/
theorem saveAll_overlapping {cap : Int} {made : Prepared}
    (hrules : (ruleFile made.rules).writable = true)
    (hsignatures : (signatureFile made.signatures).writable = true) :
    (saveAll {} 1 (overlappingRecipe cap) made).2 = .ok () := by
  obtain ⟨rules, hrules⟩ := Json.exists_text_eq_ok_iff.mpr hrules
  obtain ⟨signatures, hsignatures⟩ := Json.exists_text_eq_ok_iff.mpr hsignatures
  have hpath : Path.ofString "rules.json" = ⟨.here, ["rules.json"]⟩ := by decide +kernel
  have hpath' : Path.ofString "signatures.json" = ⟨.here, ["signatures.json"]⟩ := by
    decide +kernel
  have hfirst : saveAt {} 1 (some "rules.json") (ruleFile made.rules)
      = ({ tree := ⟨[(["rules.json"], .file rules.toUTF8)]⟩ }, .ok ()) := by
    rw [saveAt_eq_replace_of_name hrules hpath (by decide +kernel) rfl
      (Text.Codec.not_hasHalf_plain rules)]
    rfl
  unfold saveAll overlappingRecipe
  simp only [hfirst]
  rw [saveAt_eq_replace_of_name hsignatures hpath' (by decide +kernel) rfl
    (Text.Codec.not_hasHalf_plain signatures)]
  rfl

/-- The build of the overlapping lists, where there is nothing yet, goes well. -/
theorem exists_build_overlapping_eq_ok :
    ∃ stats, (build (fetchAll overlappingLists) {} 1 (overlappingRecipe 3)).2.result
      = .ok stats := by
  obtain ⟨made, hmade, hrules, hsignatures⟩ := exists_prepare_overlapping
  refine ⟨made.stats, ?_⟩
  rw [build_of_prepare_eq_ok hmade, saveAll_overlapping hrules hsignatures]
  rfl

/-- The two destinations of that build are separate. -/
theorem separate_overlapping (cap : Int) : Separate {} 1 (overlappingRecipe cap) := by
  have hrules : Place.output? {} (some "rules.json") = some ["rules.json"] := by decide +kernel
  have hsignatures : Place.output? {} (some "signatures.json") = some ["signatures.json"] := by
    decide +kernel
  have hdraft : Place.outputDraft? {} 1 (some "rules.json") = some ["rules.json.1.tmp"] := by
    decide +kernel
  have hdraft' : Place.outputDraft? {} 1 (some "signatures.json")
      = some ["signatures.json.1.tmp"] := by decide +kernel
  refine ⟨?_, ?_, ?_, ?_, ?_⟩
  all_goals
    simp only [overlappingRecipe, hrules, hsignatures, hdraft, hdraft']
    intro q hq
    obtain rfl := Option.some.inj hq
    decide

/-- The overlapping lists under a cap of three, which give three blocking rules, and a build of them
that leaves four rules behind. -/
theorem counts_balanced_overlapping :
    ∃ gathered stats,
      (gather (fetchAll overlappingLists) overlappingSources 3).result = .ok gathered ∧
      gathered.Balanced ∧ gathered.rules.length = 3 ∧
      (build (fetchAll overlappingLists) {} 1 (overlappingRecipe 3)).2.result = .ok stats ∧
      stats.Balanced ∧ stats.networkRules = 4 ∧
      Separate {} 1 (overlappingRecipe 3) ∧
      (build (fetchAll overlappingLists) {} 1 (overlappingRecipe 3)).1.HoldsObjects
        ["rules.json"] 4 := by
  obtain ⟨gathered, hgather, -⟩ := exists_gather_eq_ok overlappingSources
    (by decide : (1 : Int) ≤ 3) overlappingLists_ne_cancelled
    ⟨⟨"easylist", "First", "first", 1, true⟩, by decide, _, rfl⟩
  obtain ⟨stats, hstats⟩ := exists_build_overlapping_eq_ok
  obtain ⟨hgathered, hbuilt⟩ :=
    counts_balanced (fetchAll overlappingLists) {} 1 (overlappingRecipe 3)
  obtain ⟨hbalanced, gathered', made, q, hgather', -, rfl, hq, -, hleft⟩ := hbuilt stats hstats
  obtain rfl := Except.ok.inj (hgather.symm.trans hgather')
  obtain rfl := Option.some.inj
    (hq.symm.trans (by decide +kernel : _ = some ["rules.json"]))
  -- four domains are in the lists, of which the cap leaves three
  have hlength : gathered.rules.length = 3 := by rw [rules_overlapping hgather]; rfl
  have hfour : (gathered.stats made.rules made.signatures).networkRules = 4 :=
    hbalanced.signal.trans (congrArg (· + 1) hlength)
  have hobjects := hleft (separate_overlapping 3)
  rw [hfour] at hobjects
  exact ⟨gathered, _, hgather, hgathered gathered hgather, hlength, hstats, hbalanced, hfour,
    separate_overlapping 3, hobjects⟩

end Blocklist
