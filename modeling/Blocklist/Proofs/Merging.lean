import Blocklist.Merge
import Blocklist.Proofs.Parsing

/-!
# What rule sets merge to

A merge keeps the first occurrence of each filter in all the sets put together, up to the cap, and
numbers what it keeps.

* `renumber` — rules with their ids replaced by 1, 2, 3 and so on; `named` — the rules with a
  filter;
* `Merge.State.Added` — what one rule does to a merge, in four cases (`Merge.State.added_add`);
* `Merge.State.Adds` — the invariant of merging, kept by every rule (`Merge.State.Adds.add`), so
  that it holds after any rules (`Merge.State.adds_after`). Filters that were dropped over the cap
  are not in the set of seen filters, so the set is that of the kept ones only, and a full merge
  stays what it is because the cap cuts whatever comes;
* `rules_merge` — the rules of a merge, for any sets and any whole number as a cap;
* `rules_merge_blocksOf` — the merge of lists that were parsed one by one under the same cap is the
  parse of all of them in a row.
-/

namespace Blocklist

/-- The filter of a rule, by which rules are told apart. -/
def NetworkRule.filter (r : NetworkRule) : String := r.condition.urlFilter

/-- **The rules with their places for ids**, the first being 1. -/
def renumber (rules : List NetworkRule) : List NetworkRule :=
  rules.mapIdx fun i rule => rule.withId (i + 1) (Nat.succ_pos i)

/-- The last rule is numbered by how many there are. -/
theorem renumber_concat (rules : List NetworkRule) (rule : NetworkRule) :
    renumber (rules ++ [rule])
      = renumber rules ++ [rule.withId (rules.length + 1) (Nat.succ_pos _)] := List.mapIdx_concat

@[simp] theorem length_renumber (rules : List NetworkRule) :
    (renumber rules).length = rules.length := List.length_mapIdx

/-- **Numbers from 1 up**, without a gap. -/
theorem map_id_renumber (rules : List NetworkRule) :
    (renumber rules).map NetworkRule.id = List.range' 1 rules.length := by
  induction rules using List.reverseRecOn with
  | nil => rfl
  | append_singleton rules rule ih =>
    -- the last rule has the number of all rules
    rw [renumber_concat, List.map_append, ih, List.length_append, List.length_singleton,
      List.range'_concat, Nat.one_mul, Nat.add_comm 1]
    rfl

/-- What a rule says apart from its id stays the same. -/
theorem map_renumber {α : Type} {f : NetworkRule → α}
    (hf : ∀ (rule : NetworkRule) (id : Nat) (h : 0 < id), f (rule.withId id h) = f rule)
    (rules : List NetworkRule) : (renumber rules).map f = rules.map f := by
  induction rules using List.reverseRecOn with
  | nil => rfl
  | append_singleton rules rule ih =>
    rw [renumber_concat, List.map_append, List.map_append, ih, List.map_singleton, hf,
      List.map_singleton]

/-- New numbers leave the filters as they are. -/
theorem map_filter_renumber (rules : List NetworkRule) :
    (renumber rules).map NetworkRule.filter = rules.map NetworkRule.filter :=
  map_renumber (fun _ _ _ => rfl) rules

/-- Every renumbered rule is one of the rules, but for its number. -/
theorem exists_of_mem_renumber {rules : List NetworkRule} {rule : NetworkRule}
    (h : rule ∈ renumber rules) :
    ∃ old ∈ rules, rule = old.withId rule.id rule.id_pos := by
  obtain ⟨i, hi, rfl⟩ := List.mem_mapIdx.mp h
  exact ⟨rules[i], List.getElem_mem hi, rfl⟩

def named (rules : List NetworkRule) : List NetworkRule :=
  rules.filter fun rule => rule.filter ≠ ""

/-- What is kept of some rules under a cap, before it is numbered. -/
def kept (cap : Int) (rules : List NetworkRule) : List NetworkRule :=
  (firsts NetworkRule.filter (named rules)).take cap.toNat

/-- The cap holds. -/
theorem length_kept_le (cap : Int) (rules : List NetworkRule) :
    (kept cap rules).length ≤ cap.toNat := List.length_take_le _ _

/-- No filter is kept twice. -/
theorem nodup_map_filter_kept (cap : Int) (rules : List NetworkRule) :
    ((kept cap rules).map NetworkRule.filter).Nodup := by
  unfold kept
  rw [List.map_take]
  exact (nodup_map_key_firsts _ (named rules)).sublist (List.take_sublist _ _)

/-- What is kept is one of the rules, with a filter. -/
theorem mem_of_mem_kept {cap : Int} {rules : List NetworkRule} {rule : NetworkRule}
    (h : rule ∈ kept cap rules) : rule ∈ rules ∧ rule.filter ≠ "" := by
  have hnamed : rule ∈ named rules := mem_of_mem_firsts _ (List.mem_of_mem_take h)
  unfold named at hnamed
  rw [List.mem_filter, decide_eq_true_iff] at hnamed
  exact hnamed

/-- As long as there is room, nothing has been cut. -/
theorem kept_eq_firsts_of_lt {cap : Int} {rules : List NetworkRule}
    (h : ((kept cap rules).length : Int) < cap) :
    kept cap rules = firsts NetworkRule.filter (named rules) := by
  unfold kept at h ⊢
  rw [List.length_take] at h
  exact List.take_of_length_le (by omega)

namespace Merge.State

/-! ### One rule -/

/-- **What one rule does to a merge**, by the first reason that holds. -/
inductive Added (cap : Int) (s : State) (rule : NetworkRule) : State → Prop
  | bare (hempty : rule.filter = "") :
    Added cap s rule
      { s with totalInput := s.totalInput + 1, emptyFilters := s.emptyFilters + 1 }
  | repeated (hne : rule.filter ≠ "") (hseen : s.seen.contains rule.filter = true) :
    Added cap s rule { s with totalInput := s.totalInput + 1, duplicates := s.duplicates + 1 }
  | overCap (hne : rule.filter ≠ "") (hnew : ¬ s.seen.contains rule.filter = true)
      (hfull : cap ≤ s.rules.size) :
    Added cap s rule { s with totalInput := s.totalInput + 1, overCap := s.overCap + 1 }
  | kept (hne : rule.filter ≠ "") (hnew : ¬ s.seen.contains rule.filter = true)
      (hroom : s.rules.size < cap) :
    Added cap s rule
      { s with
        totalInput := s.totalInput + 1
        rules := s.rules.push (rule.withId (s.rules.size + 1) (Nat.succ_pos _))
        seen := s.seen.insert rule.filter }

/-- Every statement about what a merge keeps from rule to rule is by cases on this one. -/
theorem added_add (cap : Int) (s : State) (rule : NetworkRule) :
    Added cap s rule (s.add cap rule) := by
  unfold State.add
  simp only
  -- a filter that is empty, one that is there, one that is over the cap, and any other
  split_ifs with hempty hseen hfull
  · exact .bare hempty
  · exact .repeated hempty hseen
  · exact .overCap hempty hseen hfull
  · exact .kept hempty hseen (Int.not_le.mp hfull)

/-! ### The invariant of merging -/

/-- **What adding some rules comes to.** -/
structure Adds (cap : Int) (s : State) (rules : List NetworkRule) : Prop where
  /-- What is kept is numbered. -/
  rules_eq : s.rules.toList = renumber (kept cap rules)
  /-- The seen filters are those of the kept rules. -/
  mem_seen : ∀ f, s.seen.contains f = true ↔ f ∈ (kept cap rules).map NetworkRule.filter

/-- Nothing is added at the start. -/
theorem Adds.initial (cap : Int) : Adds cap {} [] where
  rules_eq := by simp [kept, named, renumber]
  mem_seen := fun f => by simp [kept, named]

/-- There are as many rules as are kept. -/
theorem Adds.size_rules {cap : Int} {s : State} {rules : List NetworkRule}
    (h : s.Adds cap rules) : s.rules.size = (kept cap rules).length := by
  rw [← Array.length_toList, h.rules_eq, length_renumber]

/-- A rule that leaves no trace in what is kept. -/
theorem Adds.of_kept_eq {cap : Int} {s s' : State} {rules : List NetworkRule}
    {rule : NetworkRule} (h : s.Adds cap rules) (hrules : s'.rules = s.rules)
    (hseen : s'.seen = s.seen) (hkept : kept cap (rules ++ [rule]) = kept cap rules) :
    s'.Adds cap (rules ++ [rule]) where
  rules_eq := by rw [hrules, hkept, h.rules_eq]
  mem_seen := fun f => by rw [hseen, hkept, h.mem_seen]

/-- A rule with a filter is one of those that count. -/
theorem named_concat_of_filter_ne {rules : List NetworkRule} {rule : NetworkRule}
    (h : rule.filter ≠ "") : named (rules ++ [rule]) = named rules ++ [rule] := by
  unfold named
  rw [List.filter_append, List.filter_singleton]
  simp [h]

/-- A rule without a filter changes nothing. -/
theorem kept_concat_of_filter_eq {cap : Int} {rules : List NetworkRule} {rule : NetworkRule}
    (h : rule.filter = "") : kept cap (rules ++ [rule]) = kept cap rules := by
  unfold kept named
  rw [List.filter_append, List.filter_singleton]
  simp [h]

/-- A rule whose filter is kept already is not kept again. -/
theorem kept_concat_of_mem {cap : Int} {rules : List NetworkRule} {rule : NetworkRule}
    (hne : rule.filter ≠ "") (h : rule.filter ∈ (kept cap rules).map NetworkRule.filter) :
    kept cap (rules ++ [rule]) = kept cap rules := by
  -- what is kept under the cap would be kept without it
  have hmem : rule.filter ∈ (firsts NetworkRule.filter (named rules)).map NetworkRule.filter := by
    unfold kept at h
    rw [List.map_take] at h
    exact List.mem_of_mem_take h
  unfold kept
  rw [named_concat_of_filter_ne hne, firsts_concat, addFirst_of_mem _ hmem]

/-- Nor does any rule behind a full set. -/
theorem kept_concat_of_le {cap : Int} {rules : List NetworkRule} {rule : NetworkRule}
    (hne : rule.filter ≠ "") (h : cap ≤ (kept cap rules).length) :
    kept cap (rules ++ [rule]) = kept cap rules := by
  unfold kept at h ⊢
  rw [List.length_take] at h
  rw [named_concat_of_filter_ne hne]
  -- the cap is reached by the rules before
  exact take_firsts_append _ (by omega) [rule]

/-- A new filter is kept as long as there is room. -/
theorem kept_concat_of_lt {cap : Int} {rules : List NetworkRule} {rule : NetworkRule}
    (hne : rule.filter ≠ "") (hnot : rule.filter ∉ (kept cap rules).map NetworkRule.filter)
    (hlt : ((kept cap rules).length : Int) < cap) :
    kept cap (rules ++ [rule]) = kept cap rules ++ [rule] := by
  -- while there is room the cap has cut nothing off
  have hall := kept_eq_firsts_of_lt hlt
  rw [hall] at hnot hlt ⊢
  unfold kept
  rw [named_concat_of_filter_ne hne, firsts_concat, addFirst_of_notMem _ hnot]
  refine List.take_of_length_le ?_
  rw [List.length_append, List.length_singleton]
  omega

/-- **Invariant preservation.** Adding a rule keeps `Adds`. -/
theorem Adds.add {cap : Int} {s : State} {rules : List NetworkRule} (h : s.Adds cap rules)
    (rule : NetworkRule) : (s.add cap rule).Adds cap (rules ++ [rule]) := by
  have hadded := added_add cap s rule
  generalize s.add cap rule = s' at hadded ⊢
  -- no reason to drop a rule leaves a trace in what is kept
  cases hadded with
  | bare hempty => exact h.of_kept_eq rfl rfl (kept_concat_of_filter_eq hempty)
  | repeated hne hseen =>
    exact h.of_kept_eq rfl rfl (kept_concat_of_mem hne ((h.mem_seen _).mp hseen))
  | overCap hne hnew hfull =>
    rw [h.size_rules] at hfull
    exact h.of_kept_eq rfl rfl (kept_concat_of_le hne hfull)
  | kept hne hnew hroom =>
    -- the rule is the last one, and its filter is seen from now on
    rw [h.size_rules] at hroom
    have hnot : rule.filter ∉ (kept cap rules).map NetworkRule.filter :=
      fun hmem => hnew ((h.mem_seen _).mpr hmem)
    have hkept := kept_concat_of_lt hne hnot hroom
    refine ⟨?_, fun f => ?_⟩
    · rw [hkept, renumber_concat]
      simp only [Array.toList_push, h.rules_eq, h.size_rules]
    · rw [hkept, List.map_append, List.mem_append, List.map_singleton, List.mem_singleton,
        Std.HashSet.contains_insert, Bool.or_eq_true, beq_iff_eq, h.mem_seen, or_comm, eq_comm]

/-! ### Runs -/

/-- What adding some rules from the start comes to. -/
def after (cap : Int) (rules : List NetworkRule) : State := rules.foldl (State.add cap) {}

/-- **What adding comes to**: what is kept from rule to rule, taken over all rules. -/
theorem adds_after (cap : Int) (rules : List NetworkRule) : (after cap rules).Adds cap rules :=
  foldl_induction (P := Adds cap) (Adds.initial cap) (fun _ _ rule h => h.add rule) rules

end Merge.State

/-- **The rules of a merge.** -/
theorem rules_merge (sets : List (List NetworkRule)) (cap : Int) :
    (merge sets cap).rules = renumber (kept cap sets.flatten) :=
  (Merge.State.adds_after cap sets.flatten).rules_eq

/-! ### Merging blocks -/

/-- The filter of a domain has stars around it, so it is not empty. -/
theorem filterOf_ne_empty (domain : String) : NetworkRule.filterOf domain ≠ "" := by
  intro h
  -- two stars are two characters
  have hlen := congrArg String.length h
  unfold NetworkRule.filterOf at hlen
  rw [String.length_append, String.length_append] at hlen
  simp at hlen

/-- So blocks always have a filter. -/
theorem filter_ne_of_mem_blocksOf {domains : List String} {rule : NetworkRule}
    (h : rule ∈ blocksOf domains) : rule.condition.urlFilter ≠ "" := by
  obtain ⟨i, hi, rfl⟩ := List.mem_mapIdx.mp h
  exact filterOf_ne_empty domains[i]

/-- Distinct domains have distinct filters. -/
theorem filterOf_injective : Function.Injective NetworkRule.filterOf := by
  intro d d' h
  have hlist := congrArg String.toList h
  unfold NetworkRule.filterOf at hlist
  -- a pattern is its domain between two fixed texts
  rw [String.toList_append, String.toList_append, String.toList_append,
    String.toList_append] at hlist
  exact String.toList_injective (List.append_cancel_left (List.append_cancel_right hlist))

/-- The filters of blocks are those of their domains. -/
theorem map_filter_blocksOf (domains : List String) :
    (blocksOf domains).map NetworkRule.filter = domains.map NetworkRule.filterOf := by
  induction domains using List.reverseRecOn with
  | nil => rfl
  | append_singleton domains domain ih =>
    -- the number of the last block is not in its filter
    rw [blocksOf_concat, List.map_append, List.map_append, ih]
    rfl

/-- Blocks tell which domains they are for. -/
theorem blocksOf_injective : Function.Injective blocksOf := by
  intro domains domains' h
  have hfilters := congrArg (List.map NetworkRule.filter) h
  rw [map_filter_blocksOf, map_filter_blocksOf] at hfilters
  exact List.map_injective_iff.mpr filterOf_injective hfilters

/-- The block for a domain at a place in some list. -/
def blockAt (p : String × Nat) : NetworkRule := .block (p.2 + 1) p.1

theorem blocksOf_eq_map (domains : List String) :
    blocksOf domains = domains.zipIdx.map blockAt := List.mapIdx_eq_zipIdx_map

/-- The places that blocks had before do not matter. -/
theorem renumber_map_blockAt (ps : List (String × Nat)) :
    renumber (ps.map blockAt) = blocksOf (ps.map Prod.fst) := by
  induction ps using List.reverseRecOn with
  | nil => rfl
  | append_singleton ps p ih =>
    -- a block does not hang on its number but for that number
    rw [List.map_append, List.map_append, List.map_singleton, List.map_singleton, renumber_concat,
      blocksOf_concat, ih]
    simp only [List.length_map]
    rfl

/-- **Merging numbered blocks.** The merge of sets of blocks is the numbered blocks for the first
occurrences of their domains. -/
theorem renumber_kept_blocksOf (cap : Int) (parts : List (List String)) :
    renumber (kept cap (parts.map blocksOf).flatten)
      = blocksOf ((firsts id parts.flatten).take cap.toNat) := by
  -- the rules are made of pairs of a domain and a place, and only the domains matter
  set ps : List (String × Nat) := (parts.map List.zipIdx).flatten with hps
  have hrules : (parts.map blocksOf).flatten = ps.map blockAt := by
    rw [hps, List.map_flatten, List.map_map]
    congr 1
    exact List.map_congr_left fun domains _ => blocksOf_eq_map domains
  have hdomains : ps.map Prod.fst = parts.flatten := by
    rw [hps, List.map_flatten, List.map_map]
    congr 1
    refine (List.map_congr_left fun domains _ => ?_).trans (List.map_id parts)
    exact List.zipIdx_map_fst 0 domains
  -- no block is without a filter
  have hnamed : named (ps.map blockAt) = ps.map blockAt := by
    refine List.filter_eq_self.mpr fun rule hrule => ?_
    obtain ⟨p, -, rfl⟩ := List.mem_map.mp hrule
    exact decide_eq_true (filterOf_ne_empty p.1)
  -- filters tell blocks apart as domains tell pairs apart
  have hkey : NetworkRule.filter ∘ blockAt = NetworkRule.filterOf ∘ Prod.fst := rfl
  have hfirsts : (firsts Prod.fst ps).map Prod.fst = firsts id (ps.map Prod.fst) := by
    rw [firsts_map, Function.id_comp]
  unfold kept
  rw [hrules, hnamed, firsts_map, hkey, firsts_comp_of_injective Prod.fst filterOf_injective,
    ← List.map_take, renumber_map_blockAt, List.map_take, hfirsts, hdomains]

/-- **Caps in layers.** Lists that were parsed under a cap one by one, and then merged under the
same cap, give the rules of all their domains in a row. -/
theorem rules_merge_blocksOf (cap : Int) (parts : List (List String)) :
    (merge (parts.map fun part => blocksOf ((firsts id part).take cap.toNat)) cap).rules
      = blocksOf ((firsts id parts.flatten).take cap.toNat) := by
  have hsets : (parts.map fun part => blocksOf ((firsts id part).take cap.toNat))
      = (parts.map fun part => (firsts id part).take cap.toNat).map blocksOf := by
    rw [List.map_map]
    rfl
  rw [rules_merge, hsets, renumber_kept_blocksOf, take_firsts_flatten id (Nat.le_refl _)]

end Blocklist
