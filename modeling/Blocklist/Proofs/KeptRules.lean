import Blocklist.Proofs.Merging

/-!
# Which rules a merge keeps

A merge takes its rules in a row and keeps the first of each filter, up to the cap. What it keeps it
does not change, but for the ids. In which order the reasons to drop a rule are looked at cannot be
seen in the result.

* `NetworkRule.content` — all of a rule but its id; `distinctFilters` — how many filters some rules
  have;
* `firstOfEachFilter` — what is to be kept, told without a pass; `kept_eq_firstOfEachFilter` — it is
  what the pass keeps; `exists_of_mem_kept` — of the rules with one filter it is the earliest;
* `MergesTo` — what a merge comes to; `merge_keeps_first_occurrences` — the main statement, for any
  sets and any whole number as a cap.
-/

namespace Blocklist

/-- All of a rule but its id. -/
def NetworkRule.content (r : NetworkRule) : Int × Action × Condition :=
  (r.priority, r.action, r.condition)

/-- **How many filters some rules have**, not counting the empty one. -/
def distinctFilters (rules : List NetworkRule) : Nat :=
  ((rules.map NetworkRule.filter).toFinset.erase "").card

/-! ### What is kept -/

/-- **The first rule of each filter**, up to a cap: of the rules with a filter, those which repeat
the filter of an earlier one are dropped, and then those over the cap. A cap below zero allows for
none. -/
def firstOfEachFilter (cap : Int) (rules : List NetworkRule) : List NetworkRule :=
  ((rules.filter fun rule => rule.filter ≠ "").eraseDupsBy
    fun later first => later.filter == first.filter).take (max cap 0).toNat

/-- That is what a merge keeps. -/
theorem kept_eq_firstOfEachFilter (cap : Int) (rules : List NetworkRule) :
    kept cap rules = firstOfEachFilter cap rules := by
  have hcap : (max cap 0).toNat = cap.toNat := by omega
  rw [kept, named, firsts_eq_eraseDupsBy, firstOfEachFilter, hcap]

/-- Rules without a filter leave the other filters as they are. -/
theorem toFinset_map_filter_named (rules : List NetworkRule) :
    ((named rules).map NetworkRule.filter).toFinset
      = (rules.map NetworkRule.filter).toFinset.erase "" := by
  ext f
  simp only [named, List.mem_toFinset, List.mem_map, List.mem_filter, decide_eq_true_eq,
    Finset.mem_erase]
  constructor
  · rintro ⟨rule, ⟨hrule, hne⟩, rfl⟩
    exact ⟨hne, rule, hrule, rfl⟩
  · rintro ⟨hne, rule, hrule, rfl⟩
    exact ⟨rule, ⟨hrule, hne⟩, rfl⟩

/-- There is a first rule for each filter. -/
theorem length_firsts_named (rules : List NetworkRule) :
    (firsts NetworkRule.filter (named rules)).length = distinctFilters rules := by
  rw [length_firsts, toFinset_map_filter_named, distinctFilters]

/-- As many rules are kept as there are filters, up to the cap. -/
theorem length_kept (cap : Int) (rules : List NetworkRule) :
    ((kept cap rules).length : Int) = min (max cap 0) (distinctFilters rules) := by
  rw [kept, List.length_take, length_firsts_named]
  omega

/-- **The earliest wins.** In front of a rule that is kept no rule has its filter. -/
theorem exists_of_mem_kept {cap : Int} {rules : List NetworkRule} {rule : NetworkRule}
    (h : rule ∈ kept cap rules) :
    ∃ before after, rules = before ++ rule :: after ∧
      rule.filter ∉ before.map NetworkRule.filter := by
  have hfirst : rule ∈ firsts NetworkRule.filter (named rules) := List.mem_of_mem_take h
  have hnamed : named rules = rules.filter fun rule => decide (rule.filter ≠ "") := rfl
  -- the rules without a filter could be dropped later just as well
  rw [hnamed, firsts_filter NetworkRule.filter (fun f => decide (f ≠ ""))] at hfirst
  exact (mem_firsts_iff NetworkRule.filter).mp (List.mem_of_mem_filter hfirst)

/-! ### Numbers -/

/-- Numbering by a check at each rule refuses none of them. -/
theorem mapIdx_make_eq_renumber (rules : List NetworkRule) :
    (rules.mapIdx fun i rule =>
        NetworkRule.make (i + 1) rule.priority rule.action rule.condition)
      = (renumber rules).map Except.ok := by
  have hmake : ∀ (i : Nat) (rule : NetworkRule),
      NetworkRule.make (i + 1) rule.priority rule.action rule.condition
        = .ok (rule.withId (i + 1) (Nat.succ_pos i)) := by
    intro i rule
    -- every place is a number from one on
    have hid : (1 : Int) ≤ (i : Int) + 1 := by omega
    rw [NetworkRule.make, dif_pos hid]
    rfl
  ext1 i
  rw [renumber, List.getElem?_mapIdx, List.getElem?_map, List.getElem?_mapIdx, Option.map_map]
  simp only [hmake]
  rfl

/-! ### The whole merge -/

/-- **What a merge of some rules comes to** under a cap. -/
structure MergesTo (cap : Int) (rules merged : List NetworkRule) : Prop where
  /-- The first rule of each filter is kept, up to the cap. Under the ids from one on, no check
  refuses any of them. -/
  numbered : merged.map Except.ok = (firstOfEachFilter cap rules).mapIdx fun i rule =>
    NetworkRule.make (i + 1) rule.priority rule.action rule.condition
  /-- What is kept is what it was, but for its id. -/
  content_eq :
    merged.map NetworkRule.content = (firstOfEachFilter cap rules).map NetworkRule.content
  ids_eq : merged.map NetworkRule.id = List.range' 1 merged.length
  filter_ne : ∀ rule ∈ merged, rule.filter ≠ ""
  nodup_filters : (merged.map NetworkRule.filter).Nodup
  /-- Each comes from a rule in front of which none has its filter. -/
  earliest : ∀ rule ∈ merged, ∃ before old after, rules = before ++ old :: after ∧
    old.content = rule.content ∧ rule.filter ∉ before.map NetworkRule.filter
  length_eq : (merged.length : Int) = min (max cap 0) (distinctFilters rules)

/-- **A merge keeps exactly the first occurrences.** -/
theorem merge_keeps_first_occurrences (sets : List (List NetworkRule)) (cap : Int) :
    MergesTo cap sets.flatten (merge sets cap).rules := by
  rw [rules_merge]
  -- all but the first two by what is known of the rules that are kept
  refine ⟨?_, ?_, ?_, ?_, ?_, ?_, ?_⟩
  · rw [← kept_eq_firstOfEachFilter, mapIdx_make_eq_renumber]
  · rw [← kept_eq_firstOfEachFilter]
    exact map_renumber (fun _ _ _ => rfl) _
  · rw [map_id_renumber, length_renumber]
  · intro rule hrule
    obtain ⟨old, hold, hsame⟩ := exists_of_mem_renumber hrule
    rw [hsame]
    exact (mem_of_mem_kept hold).2
  · rw [map_filter_renumber]
    exact nodup_map_filter_kept cap _
  · intro rule hrule
    obtain ⟨old, hold, hsame⟩ := exists_of_mem_renumber hrule
    obtain ⟨before, after, hsplit, hnew⟩ := exists_of_mem_kept hold
    refine ⟨before, old, after, hsplit, ?_, ?_⟩
    · rw [hsame]
      rfl
    · rw [hsame]
      exact hnew
  · rw [length_renumber, length_kept]

end Blocklist
