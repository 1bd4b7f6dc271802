import Blocklist.Proofs.KeptRules
import Blocklist.Proofs.Pruning

/-!
# Rules in another order

Which rules a merge keeps hangs on their order: of the rules with one filter the first wins, and the
cap is filled by the filters that come first. How much it keeps does not. As many rules come out as
there are filters, up to the cap, so the rules with a filter that are dropped are as many in every
order, and only the reason why each of them is dropped may change. Where the cap has room for all
filters, not even that changes, and all orders keep the same filters.

* `distinctFilters_of_perm` — another order has as many filters;
* `totalOutput_eq_min` — how many rules come out;
* `toFinset_map_filter_merge`, `capPruned_eq_zero` — with room for all filters, all of them come out
  and no rule is over the cap;
* `MergeCounts.AgreeInSize` — counts that tell the same but for the reasons; `merge_of_perm` — the
  main statement.
-/

namespace Blocklist

/-! ### Without the order -/

/-- How many filters there are does not hang on the order. -/
theorem distinctFilters_of_perm {rules rules' : List NetworkRule} (h : rules.Perm rules') :
    distinctFilters rules = distinctFilters rules' := by
  unfold distinctFilters
  rw [List.toFinset_eq_of_perm _ _ (h.map NetworkRule.filter)]

/-- **How many rules come out**: as many as there are filters, up to the cap. -/
theorem totalOutput_eq_min (sets : List (List NetworkRule)) (cap : Int) :
    ((merge sets cap).counts.totalOutput : Int)
      = min (max cap 0) (distinctFilters sets.flatten) := by
  rw [totalOutput_merge, rules_merge, length_renumber, length_kept]

section Room

variable {sets : List (List NetworkRule)} {cap : Int}
  (hroom : (distinctFilters sets.flatten : Int) ≤ cap)
include hroom

/-- **With room for all filters**, those that come out are those that went in. -/
theorem toFinset_map_filter_merge :
    ((merge sets cap).rules.map NetworkRule.filter).toFinset
      = (sets.flatten.map NetworkRule.filter).toFinset.erase "" := by
  -- the cap cuts nothing off
  have hkept : kept cap sets.flatten = firsts NetworkRule.filter (named sets.flatten) := by
    refine List.take_of_length_le ?_
    rw [length_firsts_named]
    omega
  rw [rules_merge, map_filter_renumber, hkept, ← toFinset_map_filter_named]
  ext f
  rw [List.mem_toFinset, List.mem_toFinset, mem_map_key_firsts]

/-- And so none is over the cap. -/
theorem capPruned_eq_zero : (merge sets cap).counts.capPruned = 0 := by
  rw [capPruned_merge]
  -- a rule that was dropped for the cap would have a filter that does not come out
  refine leftOver_eq_zero fun rule hrule hne => ?_
  rw [← List.mem_toFinset, toFinset_map_filter_merge hroom, Finset.mem_erase, List.mem_toFinset]
  exact ⟨hne, List.mem_map_of_mem hrule⟩

end Room

/-! ### Two orders -/

/-- **Counts that tell the same**, but for the reasons why rules with a filter were dropped. -/
structure MergeCounts.AgreeInSize (c c' : MergeCounts) : Prop where
  totalInput_eq : c.totalInput = c'.totalInput
  totalOutput_eq : c.totalOutput = c'.totalOutput
  emptyFilterSkipped_eq : c.emptyFilterSkipped = c'.emptyFilterSkipped
  pruned_eq : c.duplicatePruned + c.capPruned = c'.duplicatePruned + c'.capPruned

section Perm

variable {sets sets' : List (List NetworkRule)} (h : sets.flatten.Perm sets'.flatten)
include h

theorem agreeInSize_of_perm (cap : Int) :
    (merge sets cap).counts.AgreeInSize (merge sets' cap).counts := by
  have hbalanced := balanced_counts_merge sets cap
  have hbalanced' := balanced_counts_merge sets' cap
  have hinput : (merge sets cap).counts.totalInput = (merge sets' cap).counts.totalInput := by
    rw [hbalanced.totalInput_eq, hbalanced'.totalInput_eq, h.length_eq]
  have hempty : (merge sets cap).counts.emptyFilterSkipped
      = (merge sets' cap).counts.emptyFilterSkipped := by
    rw [hbalanced.emptyFilterSkipped_eq, hbalanced'.emptyFilterSkipped_eq, h.countP_eq]
  -- what comes out is told without an order
  have houtput : (merge sets cap).counts.totalOutput = (merge sets' cap).counts.totalOutput := by
    have hmin := totalOutput_eq_min sets cap
    rw [distinctFilters_of_perm h, ← totalOutput_eq_min sets' cap] at hmin
    exact Int.ofNat.inj hmin
  -- what is left of the balance is what was dropped for either reason
  have hbalance := hbalanced.balance
  have hbalance' := hbalanced'.balance
  exact ⟨hinput, houtput, hempty, by omega⟩

/-- With room for all filters, the filters that come out only change places. -/
theorem map_filter_merge_perm {cap : Int} (hroom : (distinctFilters sets.flatten : Int) ≤ cap) :
    ((merge sets cap).rules.map NetworkRule.filter).Perm
      ((merge sets' cap).rules.map NetworkRule.filter) := by
  have hroom' : (distinctFilters sets'.flatten : Int) ≤ cap := by
    rwa [← distinctFilters_of_perm h]
  -- no filter comes out twice, so that it is enough to know which ones do
  refine List.perm_of_nodup_nodup_toFinset_eq ?_ ?_ ?_
  · rw [rules_merge, map_filter_renumber]
    exact nodup_map_filter_kept cap _
  · rw [rules_merge, map_filter_renumber]
    exact nodup_map_filter_kept cap _
  · rw [toFinset_map_filter_merge hroom, toFinset_map_filter_merge hroom',
      List.toFinset_eq_of_perm _ _ (h.map NetworkRule.filter)]

/-- **The order decides who wins, never how much.** In another order as many rules go in, come out,
are without a filter, and are dropped for another reason. With room for all filters the same filters
come out, as many rules are duplicates, and none is over the cap. -/
theorem merge_of_perm (cap : Int) :
    (merge sets cap).counts.AgreeInSize (merge sets' cap).counts ∧
    ((distinctFilters sets.flatten : Int) ≤ cap →
      ((merge sets cap).rules.map NetworkRule.filter).Perm
        ((merge sets' cap).rules.map NetworkRule.filter) ∧
      (merge sets cap).counts.duplicatePruned = (merge sets' cap).counts.duplicatePruned ∧
      (merge sets cap).counts.capPruned = 0 ∧ (merge sets' cap).counts.capPruned = 0) := by
  have hsize := agreeInSize_of_perm h cap
  refine ⟨hsize, fun hroom => ?_⟩
  have hroom' : (distinctFilters sets'.flatten : Int) ≤ cap := by
    rwa [← distinctFilters_of_perm h]
  have hover := capPruned_eq_zero hroom
  have hover' := capPruned_eq_zero hroom'
  have hpruned := hsize.pruned_eq
  -- with none over the cap, all that were dropped are duplicates
  exact ⟨map_filter_merge_perm h hroom, by omega, hover, hover'⟩

end Perm

/-- Two sets of blocks in either order. Under a cap of two another block is over the cap, and under
a cap of three the same filters come out. -/
theorem merge_of_perm_swapped :
    [blocksOf ["a", "b"], blocksOf ["b", "c"]].flatten.Perm
      [blocksOf ["b", "c"], blocksOf ["a", "b"]].flatten ∧
    (merge [blocksOf ["a", "b"], blocksOf ["b", "c"]] 2).rules = blocksOf ["a", "b"] ∧
    (merge [blocksOf ["b", "c"], blocksOf ["a", "b"]] 2).rules = blocksOf ["b", "c"] ∧
    (merge [blocksOf ["a", "b"], blocksOf ["b", "c"]] 2).counts.AgreeInSize
      (merge [blocksOf ["b", "c"], blocksOf ["a", "b"]] 2).counts ∧
    ((merge [blocksOf ["a", "b"], blocksOf ["b", "c"]] 3).rules.map NetworkRule.filter).Perm
      ((merge [blocksOf ["b", "c"], blocksOf ["a", "b"]] 3).rules.map NetworkRule.filter) := by
  have hperm : [blocksOf ["a", "b"], blocksOf ["b", "c"]].flatten.Perm
      [blocksOf ["b", "c"], blocksOf ["a", "b"]].flatten := by
    simpa using List.perm_append_comm
  have hroom : (distinctFilters [blocksOf ["a", "b"], blocksOf ["b", "c"]].flatten : Int) ≤ 3 := by
    decide +kernel
  refine ⟨hperm, ?_, ?_, (merge_of_perm hperm 2).1, ((merge_of_perm hperm 3).2 hroom).1⟩
  · rw [rules_merge]
    exact (renumber_kept_blocksOf 2 [["a", "b"], ["b", "c"]]).trans (congrArg blocksOf (by decide))
  · rw [rules_merge]
    exact (renumber_kept_blocksOf 2 [["b", "c"], ["a", "b"]]).trans (congrArg blocksOf (by decide))

end Blocklist
