import Blocklist.Proofs.Merging

/-!
# Counts that balance

Each line that is read, and each rule that is merged, is counted once: as what it has become, or by
the reason why it has become nothing. So the counts of a list and of a merge balance, whatever the
lines and the rules are, and wherever a cap has ended the reading.

* `ParseCounts.Balanced` — the balance of one list; `balanced_of_parse_eq_ok` — every list that
  parses has it;
* `Merge.State.Counted` — the invariant of the counts of a merge, kept by every rule
  (`Merge.State.Counted.add`);
* `MergeCounts.Balanced` — the balance of a merge; `balanced_counts_merge` — every merge has it.

Both are one-step arguments: each branch of a step raises one counter besides the total.
-/

namespace Blocklist

/-! ### One list -/

/-- **The balance of a list**: every line that was read was skipped, was a duplicate, or has made a
rule. -/
def ParseCounts.Balanced (c : ParseCounts) : Prop :=
  c.linesRead = c.skipped.total + c.duplicatePruned + c.rulesEmitted

namespace Parse.State

/-- The same while the list is still being read. -/
def Balanced (s : State) : Prop := s.linesRead = s.skipped.total + s.duplicates + s.rules.size

/-- Nothing is read, and nothing is counted. -/
theorem Balanced.initial : Balanced {} := rfl

/-- **Invariant preservation.** A line raises one of the counters. -/
theorem Balanced.read {s : State} (h : s.Balanced) (line : String) : (s.read line).Balanced := by
  unfold Balanced at h ⊢
  have htook := took_read s line
  generalize s.read line = s' at htook ⊢
  -- the line that is counted is one that is skipped, a repetition or a rule
  cases htook with
  | skipped hline =>
    simp only [Tally.total_add]
    omega
  | repeated hline hseen =>
    simp only
    omega
  | new hline hnew =>
    simp only [Array.size_push]
    omega

/-- The counts balance after any lines. -/
theorem balanced_after (lines : List String) : (after lines).Balanced :=
  foldl_induction (P := fun (s : State) _ => s.Balanced) Balanced.initial
    (fun _ _ line h => h.read line) lines

end Parse.State

/-- **The counts of a list balance.** -/
theorem balanced_of_parse_eq_ok {lines : List String} {cap : Int} {parsed : Parsed}
    (h : parse lines cap = .ok parsed) : parsed.counts.Balanced := by
  obtain ⟨-, front, capped, -, rfl⟩ := exists_ends_of_parse_eq_ok h
  exact Parse.State.balanced_after front

/-! ### A merge -/

/-- Whether a rule has no filter. -/
def NetworkRule.isBare (r : NetworkRule) : Bool := r.filter = ""

theorem NetworkRule.isBare_iff (r : NetworkRule) : r.isBare = true ↔ r.filter = "" :=
  decide_eq_true_iff

namespace Merge.State

/-- **What is counted when some rules are added.** -/
structure Counted (s : State) (rules : List NetworkRule) : Prop where
  totalInput_eq : s.totalInput = rules.length
  emptyFilters_eq : s.emptyFilters = rules.countP NetworkRule.isBare
  /-- Every rule was kept, or dropped for one reason. -/
  balance : s.totalInput = s.rules.size + s.duplicates + s.emptyFilters + s.overCap

/-- Nothing is added, and nothing is counted. -/
theorem Counted.initial : Counted {} [] := ⟨rfl, rfl, rfl⟩

/-- **Invariant preservation.** A rule raises the total and one of the counters. -/
theorem Counted.add {s : State} {rules : List NetworkRule} (h : s.Counted rules) (cap : Int)
    (rule : NetworkRule) : (s.add cap rule).Counted (rules ++ [rule]) := by
  obtain ⟨htotal, hempty, hbalance⟩ := h
  have hlength : s.totalInput + 1 = (rules ++ [rule]).length := by
    rw [htotal, List.length_append, List.length_singleton]
  -- only a rule without a filter is counted as one
  have hbare : (rules ++ [rule]).countP NetworkRule.isBare
      = s.emptyFilters + if rule.filter = "" then 1 else 0 := by
    rw [List.countP_append, List.countP_singleton, hempty]
    simp only [NetworkRule.isBare_iff]
  have hadded := added_add cap s rule
  generalize s.add cap rule = s' at hadded ⊢
  -- the rule that is counted is counted for one reason, or is there
  cases hadded with
  | bare hfilter =>
    rw [if_pos hfilter] at hbare
    exact ⟨hlength, hbare.symm, by simp only; omega⟩
  | repeated hne _ =>
    rw [if_neg hne] at hbare
    exact ⟨hlength, hbare.symm, by simp only; omega⟩
  | overCap hne _ _ =>
    rw [if_neg hne] at hbare
    exact ⟨hlength, hbare.symm, by simp only; omega⟩
  | kept hne _ _ =>
    rw [if_neg hne] at hbare
    exact ⟨hlength, hbare.symm, by simp only [Array.size_push]; omega⟩

/-- The counts balance after any rules. -/
theorem counted_after (cap : Int) (rules : List NetworkRule) : (after cap rules).Counted rules :=
  foldl_induction (P := Counted) Counted.initial (fun _ _ rule h => h.add cap rule) rules

end Merge.State

/-- **The balance of a merge** of some rules. -/
structure MergeCounts.Balanced (c : MergeCounts) (rules : List NetworkRule) : Prop where
  totalInput_eq : c.totalInput = rules.length
  emptyFilterSkipped_eq : c.emptyFilterSkipped = rules.countP NetworkRule.isBare
  /-- Every rule was kept, or dropped for one reason. -/
  balance : c.totalInput
    = c.totalOutput + c.duplicatePruned + c.emptyFilterSkipped + c.capPruned

/-- **The counts of a merge balance.** -/
theorem balanced_counts_merge (sets : List (List NetworkRule)) (cap : Int) :
    (merge sets cap).counts.Balanced sets.flatten := by
  have hcounted := Merge.State.counted_after cap sets.flatten
  exact ⟨hcounted.totalInput_eq, hcounted.emptyFilters_eq, hcounted.balance⟩

/-- The rules of a merge are counted. -/
theorem totalOutput_merge (sets : List (List NetworkRule)) (cap : Int) :
    (merge sets cap).counts.totalOutput = (merge sets cap).rules.length :=
  Array.length_toList.symm

end Blocklist
