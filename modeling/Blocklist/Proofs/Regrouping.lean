import Blocklist.Proofs.Balance
import Blocklist.Proofs.KeptRules

/-!
# Merges of merges

Rule sets may be merged in one go, or group by group and the results once more. It comes to the
same, as long as no group is cut shorter than the whole: a group that was cut has as many distinct
filters left as the last cap allows for, so at its end the outer merge is full.

* `renumber_kept_congr` — ids are given anew by each merge, so that rules with the same contents are
  merged alike;
* `kept_flatten_kept` — what is kept of the groups, under caps of their own, before it is numbered;
* `rules_merge_groups` — the merge of the merged groups is the merge of all their sets;
* `MergeTree` — merges of merges to any depth, under one cap; `MergeTree.rules_merge_singleton` — a
  tree counts for as much as the sets at its leaves;
* `merge_regroups` — the main statement.
-/

namespace Blocklist

/-! ### Contents -/

/-- The filter that a content has. -/
def filterIn (content : Int × Action × Condition) : String := content.2.2.urlFilter

/-- What is kept is judged by the contents alone. -/
theorem map_content_kept (cap : Int) (rules : List NetworkRule) :
    (kept cap rules).map NetworkRule.content
      = (firsts filterIn
          ((rules.map NetworkRule.content).filter fun c => filterIn c ≠ "")).take cap.toNat := by
  have hnamed : (rules.map NetworkRule.content).filter (fun c => filterIn c ≠ "")
      = (named rules).map NetworkRule.content := List.filter_map
  rw [hnamed, firsts_map, ← List.map_take]
  rfl

theorem renumber_congr {rules rules' : List NetworkRule}
    (h : rules.map NetworkRule.content = rules'.map NetworkRule.content) :
    renumber rules = renumber rules' := by
  ext1 i
  unfold renumber
  rw [List.getElem?_mapIdx, List.getElem?_mapIdx]
  -- at each place stand two rules with one content, which makes them equal under the same id
  have hi : rules[i]?.map NetworkRule.content = rules'[i]?.map NetworkRule.content := by
    rw [← List.getElem?_map, ← List.getElem?_map, h]
  cases hrule : rules[i]? with
  | none =>
    rw [hrule, Option.map_none, eq_comm, Option.map_eq_none_iff] at hi
    rw [hi]
  | some rule =>
    rw [hrule, Option.map_some, eq_comm, Option.map_eq_some_iff] at hi
    obtain ⟨rule', hrule', hcontent⟩ := hi
    obtain ⟨hpriority, haction, hcondition⟩ : rule'.priority = rule.priority ∧
        rule'.action = rule.action ∧ rule'.condition = rule.condition := by
      simpa [NetworkRule.content] using hcontent
    rw [hrule', Option.map_some, Option.map_some]
    simp only [NetworkRule.withId, hpriority, haction, hcondition]

/-- **Rules with the same contents are merged alike**, whatever ids they had. -/
theorem renumber_kept_congr {cap : Int} {rules rules' : List NetworkRule}
    (h : rules.map NetworkRule.content = rules'.map NetworkRule.content) :
    renumber (kept cap rules) = renumber (kept cap rules') := by
  apply renumber_congr
  rw [map_content_kept, map_content_kept, h]

/-! ### Groups -/

theorem named_flatten (parts : List (List NetworkRule)) :
    named parts.flatten = (parts.map named).flatten := List.filter_flatten

theorem named_kept (cap : Int) (rules : List NetworkRule) :
    named (kept cap rules) = kept cap rules := by
  refine List.filter_eq_self.mpr fun rule hrule => ?_
  exact decide_eq_true (mem_of_mem_kept hrule).2

/-- **What is kept of groups** of which each was cut under a cap of its own, if none of these caps
is below the last one. -/
theorem kept_flatten_kept {cap : Int} (groups : List (List NetworkRule × Int))
    (h : ∀ g ∈ groups, cap ≤ g.2) :
    kept cap (groups.map fun g => kept g.2 g.1).flatten
      = kept cap (groups.map Prod.fst).flatten := by
  -- rules without a filter may be left out of the groups before anything is kept
  set parts : List (List NetworkRule × Nat) := groups.map fun g => (named g.1, g.2.toNat)
    with hparts
  have hcaps : ∀ p ∈ parts, cap.toNat ≤ p.2 := by
    intro p hp
    obtain ⟨g, hg, rfl⟩ := List.mem_map.mp hp
    exact Int.toNat_le_toNat (h g hg)
  have hcut : named (groups.map fun g => kept g.2 g.1).flatten
      = (parts.map fun p => (firsts NetworkRule.filter p.1).take p.2).flatten := by
    rw [named_flatten, hparts, List.map_map, List.map_map]
    congr 1
    exact List.map_congr_left fun g _ => named_kept g.2 g.1
  have hwhole : named (groups.map Prod.fst).flatten = (parts.map Prod.fst).flatten := by
    rw [named_flatten, hparts, List.map_map, List.map_map]
    rfl
  calc kept cap (groups.map fun g => kept g.2 g.1).flatten
      = (firsts NetworkRule.filter
          (parts.map fun p => (firsts NetworkRule.filter p.1).take p.2).flatten).take
            cap.toNat := by rw [kept, hcut]
    _ = (firsts NetworkRule.filter (parts.map Prod.fst).flatten).take cap.toNat :=
        take_firsts_flatten_cuts NetworkRule.filter parts hcaps
    _ = kept cap (groups.map Prod.fst).flatten := by rw [kept, hwhole]

/-- **Merging merged groups** gives what merging all their sets gives. -/
theorem rules_merge_groups {cap : Int} (groups : List (List (List NetworkRule) × Int))
    (h : ∀ g ∈ groups, cap ≤ g.2) :
    (merge (groups.map fun g => (merge g.1 g.2).rules) cap).rules
      = (merge (groups.map Prod.fst).flatten cap).rules := by
  have hkept := kept_flatten_kept (groups.map fun g => (g.1.flatten, g.2))
    (List.forall_mem_map.mpr h)
  rw [List.map_map, List.map_map] at hkept
  -- the groups come with ids, which the last merge does not look at
  have hcontents : (groups.map fun g => (merge g.1 g.2).rules).flatten.map NetworkRule.content
      = (groups.map fun g => kept g.2 g.1.flatten).flatten.map NetworkRule.content := by
    rw [List.map_flatten, List.map_flatten, List.map_map, List.map_map]
    congr 1
    refine List.map_congr_left fun g _ => ?_
    show ((merge g.1 g.2).rules).map NetworkRule.content = _
    rw [rules_merge]
    exact map_renumber (fun _ _ _ => rfl) _
  calc (merge (groups.map fun g => (merge g.1 g.2).rules) cap).rules
      = renumber (kept cap (groups.map fun g => (merge g.1 g.2).rules).flatten) :=
        rules_merge _ cap
    _ = renumber (kept cap (groups.map fun g => kept g.2 g.1.flatten).flatten) :=
        renumber_kept_congr hcontents
    _ = renumber (kept cap (groups.map fun g => g.1.flatten).flatten) := congrArg renumber hkept
    _ = renumber (kept cap (groups.map Prod.fst).flatten.flatten) := by
        rw [List.flatten_flatten, List.map_map]
        rfl
    _ = (merge (groups.map Prod.fst).flatten cap).rules := (rules_merge _ cap).symm

/-- **Merging again** changes nothing and drops nothing. -/
theorem merge_singleton_merge (sets : List (List NetworkRule)) (cap : Int) :
    merge [(merge sets cap).rules] cap
      = ⟨(merge sets cap).rules,
          { sourcesMerged := 1
            totalInput := (merge sets cap).rules.length
            totalOutput := (merge sets cap).rules.length
            duplicatePruned := 0
            emptyFilterSkipped := 0
            capPruned := 0 }⟩ := by
  set once := (merge sets cap).rules with honce
  have hrules : (merge [once] cap).rules = once := by
    have hgroups := rules_merge_groups [(sets, cap)] (List.forall_mem_singleton.mpr (le_refl cap))
    rwa [List.map_singleton, List.map_singleton, List.flatten_singleton] at hgroups
  -- as many come out as go in, so nothing is left to be dropped
  have hbalanced := balanced_counts_merge [once] cap
  have hinput : (merge [once] cap).counts.totalInput = once.length := by
    rw [hbalanced.totalInput_eq, List.flatten_singleton]
  have houtput : (merge [once] cap).counts.totalOutput = once.length := by
    rw [totalOutput_merge, hrules]
  have hbalance := hbalanced.balance
  rw [hinput, houtput] at hbalance
  have hsources : (merge [once] cap).counts.sourcesMerged = 1 := rfl
  cases hmerge : merge [once] cap with
  | mk rules counts =>
    rw [hmerge] at hrules hinput houtput hbalance hsources
    obtain ⟨sources, input, output, duplicates, empty, overCap⟩ := counts
    simp only at hrules hinput houtput hbalance hsources
    rw [hrules, hinput, houtput, hsources, show duplicates = 0 by omega, show empty = 0 by omega,
      show overCap = 0 by omega]

/-! ### Trees -/

/-- **A tree of merges**: rule sets at its leaves, and a merge of its parts at each other node. -/
inductive MergeTree where
  | set (rules : List NetworkRule)
  | merged (parts : List MergeTree)

namespace MergeTree

/-- What a tree comes to if every merge in it has the same cap. -/
def rules (cap : Int) : MergeTree → List NetworkRule
  | .set rules => rules
  | .merged parts => (merge (parts.map (rules cap)) cap).rules

/-- The sets at the leaves of a tree, in order. -/
def leaves : MergeTree → List (List NetworkRule)
  | .set rules => [rules]
  | .merged parts => (parts.map leaves).flatten

/-- The merge of some trees, if each of them counts for as much as its leaves. -/
theorem rules_merge_map {cap : Int} {parts : List MergeTree}
    (h : ∀ t ∈ parts, (merge [t.rules cap] cap).rules = (merge t.leaves cap).rules) :
    (merge (parts.map (rules cap)) cap).rules = (merge (parts.map leaves).flatten cap).rules := by
  have hroots := rules_merge_groups (parts.map fun t => ([t.rules cap], cap))
    (List.forall_mem_map.mpr fun _ _ => le_refl cap)
  have hleaves := rules_merge_groups (parts.map fun t => (t.leaves, cap))
    (List.forall_mem_map.mpr fun _ _ => le_refl cap)
  rw [List.map_map, List.map_map] at hroots hleaves
  -- each part is merged once more on its own, and then replaced by the merge of its leaves
  calc (merge (parts.map (rules cap)) cap).rules
      = (merge (parts.map fun t => [t.rules cap]).flatten cap).rules := by
        rw [List.map_eq_flatMap, List.flatMap_def]
    _ = (merge (parts.map fun t => (merge [t.rules cap] cap).rules) cap).rules := hroots.symm
    _ = (merge (parts.map fun t => (merge t.leaves cap).rules) cap).rules := by
        rw [List.map_congr_left h]
    _ = (merge (parts.map leaves).flatten cap).rules := hleaves

/-- **A tree counts for as much as its leaves** in any merge under the same cap. -/
theorem rules_merge_singleton (cap : Int) :
    (t : MergeTree) → (merge [t.rules cap] cap).rules = (merge t.leaves cap).rules
  | .set rules => by rw [MergeTree.rules, leaves]
  | .merged parts => by
    -- the parts count for as much as their leaves, which is all that the merge of them depends on
    have hparts : (merge (parts.map (MergeTree.rules cap)) cap).rules
        = (merge (parts.map leaves).flatten cap).rules :=
      rules_merge_map fun t ht => rules_merge_singleton cap t
    rw [MergeTree.rules, merge_singleton_merge, leaves, hparts]

end MergeTree

/-! ### The main statement -/

/-- **Merges can be regrouped.** Groups of sets that were merged one by one, each under a cap that
is no less than the last one, are merged to the rules of all their sets. So merging the rules of a
merge again changes nothing and drops nothing, and a tree of merges under one cap comes to the merge
of the sets at its leaves. -/
theorem merge_regroups (cap : Int) (groups : List (List (List NetworkRule) × Int))
    (hcaps : ∀ g ∈ groups, cap ≤ g.2) :
    (merge (groups.map fun g => (merge g.1 g.2).rules) cap).rules
        = (merge (groups.map Prod.fst).flatten cap).rules ∧
    (∀ sets, merge [(merge sets cap).rules] cap
      = ⟨(merge sets cap).rules,
          { sourcesMerged := 1
            totalInput := (merge sets cap).rules.length
            totalOutput := (merge sets cap).rules.length
            duplicatePruned := 0
            emptyFilterSkipped := 0
            capPruned := 0 }⟩) ∧
    ∀ parts, (MergeTree.merged parts).rules cap
      = (merge (MergeTree.merged parts).leaves cap).rules := by
  refine ⟨rules_merge_groups groups hcaps, fun sets => merge_singleton_merge sets cap, ?_⟩
  intro parts
  rw [MergeTree.rules, MergeTree.leaves]
  exact MergeTree.rules_merge_map fun t _ => MergeTree.rules_merge_singleton cap t

/-- Two groups of sets that share a domain. The cap of the first cuts off its third domain, which
stands in the second as well. -/
def sharedGroups : List (List (List NetworkRule) × Int) :=
  [([blocksOf ["a.test", "b.test"], blocksOf ["a.test", "c.test"]], 2),
    ([blocksOf ["b.test"], blocksOf ["c.test", "d.test"]], 3)]

theorem merge_regroups_shared :
    (∀ g ∈ sharedGroups, (2 : Int) ≤ g.2) ∧
    (merge (sharedGroups.map fun g => (merge g.1 g.2).rules) 2).rules
      = blocksOf ["a.test", "b.test"] := by
  have hcaps : ∀ g ∈ sharedGroups, (2 : Int) ≤ g.2 := by decide
  refine ⟨hcaps, ?_⟩
  calc (merge (sharedGroups.map fun g => (merge g.1 g.2).rules) 2).rules
      = (merge (sharedGroups.map Prod.fst).flatten 2).rules :=
        (merge_regroups 2 sharedGroups hcaps).1
    _ = renumber (kept 2 ([["a.test", "b.test"], ["a.test", "c.test"], ["b.test"],
          ["c.test", "d.test"]].map blocksOf).flatten) := rules_merge _ 2
    _ = blocksOf ["a.test", "b.test"] := by
        rw [renumber_kept_blocksOf]
        rfl

end Blocklist
