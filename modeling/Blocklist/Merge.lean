import Blocklist.Rule
import Std.Data.HashSet

/-!
# Merging rule sets

Several sets of rules become one. The sets are visited in order; of the rules with one filter the
first is kept, rules without a filter are left out, and the kept rules are numbered from one.

* `Merge.State.add` — what one rule does;
* `merge` — the rules that sets give under a cap, and what became of the others.
-/

namespace Blocklist

/-- What became of the rules of a merge. -/
structure MergeCounts where
  sourcesMerged : Nat := 0
  totalInput : Nat := 0
  totalOutput : Nat := 0
  duplicatePruned : Nat := 0
  emptyFilterSkipped : Nat := 0
  capPruned : Nat := 0
deriving DecidableEq, Repr

/-- The rules of a merge, and what was counted. -/
structure Merged where
  rules : List NetworkRule
  counts : MergeCounts
deriving DecidableEq, Repr

namespace Merge

/-- What merging has come to: the kept rules and their filters. -/
structure State where
  rules : Array NetworkRule := #[]
  seen : Std.HashSet String := {}
  totalInput : Nat := 0
  duplicates : Nat := 0
  emptyFilters : Nat := 0
  overCap : Nat := 0

/-- **One rule.** It is left out if it has no filter, if its filter is taken, or if the cap is full;
the first of these that holds is counted. Any whole number is a cap. -/
def State.add (cap : Int) (s : State) (rule : NetworkRule) : State :=
  let s := { s with totalInput := s.totalInput + 1 }
  let filter := rule.condition.urlFilter
  if filter = "" then { s with emptyFilters := s.emptyFilters + 1 }
  else if s.seen.contains filter then { s with duplicates := s.duplicates + 1 }
  else if cap ≤ s.rules.size then { s with overCap := s.overCap + 1 }
  else
    { s with
      rules := s.rules.push (rule.withId (s.rules.size + 1) (by omega))
      seen := s.seen.insert filter }

/-- What has been merged of a number of sets. -/
def State.result (s : State) (sets : Nat) : Merged :=
  ⟨s.rules.toList,
    ⟨sets, s.totalInput, s.rules.size, s.duplicates, s.emptyFilters, s.overCap⟩⟩

end Merge

/-- **The merge of rule sets** under a cap. -/
def merge (sets : List (List NetworkRule)) (cap : Int) : Merged :=
  (sets.flatten.foldl (Merge.State.add cap) {}).result sets.length

end Blocklist
