import Blocklist.Proofs.Balance

/-!
# What the counts of a merge mean

Every counter of a merge is told by the rules that went in and those that came out, without the
order in which the merge has looked at them. A rule counts as over the cap exactly if its filter is
not kept in the end, and as a duplicate if it is, but for the one rule that keeps it.

* `mem_map_filter_kept_of_lt` — while there is room, the filter of every rule so far is kept. So the
  first rule over the cap comes when nothing is kept any more, and a filter that is dropped over the
  cap once is dropped whenever it comes again;
* `Merge.State.Prunes` — the invariant of merging with the rules over the cap counted. It speaks of
  what is kept of the rules so far, and no later rule can belie it;
* `countP_filters` — a rule has no filter, or one of some filters, or another one;
* `MergeCounts.Means` — what the counts mean; `counts_merge_mean` — the main statement.
-/

namespace Blocklist

/-! ### Rules over the cap -/

/-- **While there is room**, the filter of every rule is kept. -/
theorem mem_map_filter_kept_of_lt {cap : Int} {rules : List NetworkRule}
    (hroom : ((kept cap rules).length : Int) < cap) {rule : NetworkRule} (hrule : rule ∈ rules)
    (hne : rule.filter ≠ "") : rule.filter ∈ (kept cap rules).map NetworkRule.filter := by
  rw [kept_eq_firsts_of_lt hroom, mem_map_key_firsts]
  refine List.mem_map_of_mem (List.mem_filter.mpr ⟨hrule, ?_⟩)
  exact decide_eq_true hne

/-- **How many rules have a filter that is not kept** of some others. -/
def leftOver (keeping rules : List NetworkRule) : Nat :=
  rules.countP fun rule => rule.filter ≠ "" ∧ rule.filter ∉ keeping.map NetworkRule.filter

theorem leftOver_concat (keeping rules : List NetworkRule) (rule : NetworkRule) :
    leftOver keeping (rules ++ [rule]) = leftOver keeping rules
      + if rule.filter ≠ "" ∧ rule.filter ∉ keeping.map NetworkRule.filter then 1 else 0 := by
  unfold leftOver
  rw [List.countP_append, List.countP_singleton]
  simp only [decide_eq_true_eq]

theorem leftOver_eq_zero {keeping rules : List NetworkRule}
    (h : ∀ rule ∈ rules, rule.filter ≠ "" → rule.filter ∈ keeping.map NetworkRule.filter) :
    leftOver keeping rules = 0 := by
  refine List.countP_eq_zero.mpr fun rule hrule hleft => ?_
  obtain ⟨hne, hnot⟩ := of_decide_eq_true hleft
  exact hnot (h rule hrule hne)

namespace Merge.State

/-- **What adding some rules comes to**, with those over the cap counted. -/
structure Prunes (cap : Int) (s : State) (rules : List NetworkRule) : Prop
    extends Adds cap s rules where
  overCap_eq : s.overCap = leftOver (kept cap rules) rules

theorem Prunes.initial (cap : Int) : Prunes cap {} [] := ⟨Adds.initial cap, rfl⟩

/-- **Invariant preservation.** Adding a rule keeps `Prunes`. -/
theorem Prunes.add {cap : Int} {s : State} {rules : List NetworkRule} (h : s.Prunes cap rules)
    (rule : NetworkRule) : (s.add cap rule).Prunes cap (rules ++ [rule]) := by
  refine ⟨h.toAdds.add rule, ?_⟩
  have hcount := h.overCap_eq
  have hadded := added_add cap s rule
  generalize s.add cap rule = s' at hadded ⊢
  cases hadded with
  | bare hempty =>
    rw [kept_concat_of_filter_eq hempty, leftOver_concat, if_neg (fun hleft => hleft.1 hempty)]
    exact hcount
  | repeated hne hseen =>
    have hkept := (h.mem_seen _).mp hseen
    rw [kept_concat_of_mem hne hkept, leftOver_concat, if_neg (fun hleft => hleft.2 hkept)]
    exact hcount
  | overCap hne hnew hfull =>
    -- nothing is kept from here on, so a filter that is not kept now never will be
    have hnot : rule.filter ∉ (kept cap rules).map NetworkRule.filter :=
      fun hmem => hnew ((h.mem_seen _).mpr hmem)
    rw [h.size_rules] at hfull
    rw [kept_concat_of_le hne hfull, leftOver_concat, if_pos ⟨hne, hnot⟩]
    exact congrArg (· + 1) hcount
  | kept hne hnew hroom =>
    -- there was room up to here, so no rule has been over the cap yet
    rw [h.size_rules] at hroom
    have hnot : rule.filter ∉ (kept cap rules).map NetworkRule.filter :=
      fun hmem => hnew ((h.mem_seen _).mpr hmem)
    have hbefore : leftOver (kept cap rules) rules = 0 :=
      leftOver_eq_zero fun _ => mem_map_filter_kept_of_lt hroom
    have hafter : leftOver (kept cap rules ++ [rule]) (rules ++ [rule]) = 0 := by
      refine leftOver_eq_zero fun old hold holdne => ?_
      rw [List.map_append, List.mem_append]
      rcases List.mem_append.mp hold with hold | hlast
      · exact .inl (mem_map_filter_kept_of_lt hroom hold holdne)
      · exact .inr (List.mem_map_of_mem hlast)
    rw [kept_concat_of_lt hne hnot hroom, hafter]
    exact hcount.trans hbefore

theorem prunes_after (cap : Int) (rules : List NetworkRule) : (after cap rules).Prunes cap rules :=
  foldl_induction (P := Prunes cap) (Prunes.initial cap) (fun _ _ rule h => h.add rule) rules

end Merge.State

/-- **The rules over the cap** are those whose filter is not kept. -/
theorem capPruned_merge (sets : List (List NetworkRule)) (cap : Int) :
    (merge sets cap).counts.capPruned = leftOver (merge sets cap).rules sets.flatten := by
  have hprunes := Merge.State.prunes_after cap sets.flatten
  -- numbering changes no filter
  have hfilters : (merge sets cap).rules.map NetworkRule.filter
      = (kept cap sets.flatten).map NetworkRule.filter := by
    rw [rules_merge, map_filter_renumber]
  unfold leftOver
  rw [hfilters]
  exact hprunes.overCap_eq

/-! ### All rules -/

/-- **A rule has no filter, or one of some filters, or another one.** -/
theorem countP_filters {filters : List String} (h : "" ∉ filters) (rules : List NetworkRule) :
    rules.countP (fun rule => rule.filter = "") + rules.countP (fun rule => rule.filter ∈ filters)
      + rules.countP (fun rule => rule.filter ≠ "" ∧ rule.filter ∉ filters) = rules.length := by
  induction rules with
  | nil => rfl
  | cons rule rules ih =>
    -- the rule raises one of the three counts
    simp only [List.countP_cons, List.length_cons, decide_eq_true_eq]
    by_cases hempty : rule.filter = ""
    · have hnot : rule.filter ∉ filters := fun hmem => h (hempty ▸ hmem)
      rw [if_pos hempty, if_neg hnot, if_neg (fun hleft => hleft.1 hempty)]
      omega
    · by_cases hmem : rule.filter ∈ filters
      · rw [if_neg hempty, if_pos hmem, if_neg (fun hleft => hleft.2 hmem)]
        omega
      · rw [if_neg hempty, if_neg hmem, if_pos ⟨hempty, hmem⟩]
        omega

/-! ### The main statement -/

/-- **What the counts of a merge mean**, for the rules that went in and those that came out. -/
structure MergeCounts.Means (c : MergeCounts) (rules merged : List NetworkRule) : Prop where
  totalInput_eq : c.totalInput = rules.length
  totalOutput_eq : c.totalOutput = merged.length
  emptyFilterSkipped_eq : c.emptyFilterSkipped = rules.countP fun rule => rule.filter = ""
  /-- Over the cap are the rules whose filter is not kept. -/
  capPruned_eq : c.capPruned = rules.countP fun rule =>
    rule.filter ≠ "" ∧ rule.filter ∉ merged.map NetworkRule.filter
  /-- Of the rules whose filter is kept, as many as there are filters have kept them. The others are
  duplicates. -/
  duplicatePruned_eq : (c.duplicatePruned : Int) =
    (rules.countP fun rule => rule.filter ∈ merged.map NetworkRule.filter) - c.totalOutput
  /-- Every rule is counted once. -/
  balance : c.totalInput
    = c.totalOutput + c.duplicatePruned + c.emptyFilterSkipped + c.capPruned

/-- **The counts of every merge mean what they say**, for any sets and any whole number as a cap. -/
theorem counts_merge_mean (sets : List (List NetworkRule)) (cap : Int) :
    (merge sets cap).counts.Means sets.flatten (merge sets cap).rules := by
  have hbalanced := balanced_counts_merge sets cap
  have hinput := hbalanced.totalInput_eq
  have hempty := hbalanced.emptyFilterSkipped_eq
  have hover := capPruned_merge sets cap
  -- no rule without a filter is kept, so the three kinds of rules do not overlap
  have hnone : "" ∉ (merge sets cap).rules.map NetworkRule.filter := by
    rw [rules_merge, map_filter_renumber]
    intro hmem
    obtain ⟨rule, hrule, hfilter⟩ := List.mem_map.mp hmem
    exact (mem_of_mem_kept hrule).2 hfilter
  have hall := countP_filters hnone sets.flatten
  have hbalance := hbalanced.balance
  refine ⟨hinput, totalOutput_merge sets cap, hempty, hover, ?_, hbalance⟩
  -- what is neither without a filter nor over the cap is kept or a duplicate
  change _ + _ + leftOver (merge sets cap).rules sets.flatten = _ at hall
  change _ = sets.flatten.countP (fun rule => rule.filter = "") at hempty
  omega

end Blocklist
