import Blocklist.Program
import Mathlib.Tactic.SplitIfs

/-!
# What a run makes of a build

A run reads its options, looks up its sources and builds. What it leaves is what the build leaves,
and the code that it returns tells how the build has ended. A run that does not come so far leaves
everything as it was.

* `Builds` — what a run builds; `run_of_builds`, `run_of_not_builds` — what the run makes of it;
* `run_returns_zero_iff`, `run_returns_one_iff` — when a run returns zero, and when it returns one.
-/

namespace Blocklist

variable {host : Host} {sources : List Source} {words : List String} {built : Built}

/-- **What a run builds**, if its words and its sources let it come so far. -/
def Builds (host : Host) (sources : List Source) (words : List String) (built : Built) : Prop :=
  ∃ o chosen, Options.read words = .options o ∧ o.sources sources = .ok chosen ∧
    built = build (o.fetch host.reach) host.reach.place host.process
      ⟨o.rulesOut, o.signaturesOut, chosen, o.maxRules, host.clock⟩

/-- **What a run makes of a build**: it leaves what the build does, and ends as that has. -/
theorem run_of_builds (h : Builds host sources words built) :
    (run host sources words).place = built.1 ∧
      (run host sources words).ending = match built.2.result with
        | .ok _ => .returned 0
        | .error e => if e.isCancellation then .cancelled else .returned 1 := by
  obtain ⟨o, chosen, hread, hchosen, rfl⟩ := h
  simp only [run, hread, runWith, hchosen, true_and]
  cases (build (o.fetch host.reach) host.reach.place host.process
    ⟨o.rulesOut, o.signaturesOut, chosen, o.maxRules, host.clock⟩).2.result with
  | ok stats => rfl
  | error e => exact apply_ite Prod.fst (e.isCancellation = true) _ _

/-- A run that does not come to a build leaves everything as it was. -/
theorem run_of_not_builds (h : ∀ built, ¬ Builds host sources words built) :
    (run host sources words).place = host.reach.place ∧
      (run host sources words).ending ≠ .returned 0 ∧
      ((run host sources words).ending = .returned 1 ↔
        ∃ o e, Options.read words = .options o ∧ o.sources sources = .error e) := by
  cases hread : Options.read words with
  | refused e => simp [run, hread]
  | help => simp [run, hread]
  | vacant v => simp [run, hread]
  | options o =>
    -- only a choice of unknown sources stands between the options and the build
    cases hchosen : o.sources sources with
    | ok chosen => exact absurd ⟨o, chosen, hread, hchosen, rfl⟩ (h _)
    | error e => simp [run, hread, runWith, hchosen]

/-- **When a run returns zero.** -/
theorem run_returns_zero_iff :
    (run host sources words).ending = .returned 0 ↔
      ∃ built stats, Builds host sources words built ∧ built.2.result = .ok stats := by
  -- a run that builds ends as its build, and one that does not never returns zero
  by_cases hbuilds : ∃ built, Builds host sources words built
  · obtain ⟨built, hbuilt⟩ := hbuilds
    refine ⟨?_, ?_⟩
    · intro hzero
      have hending := hzero.symm.trans (run_of_builds hbuilt).2
      cases hresult : built.2.result with
      | ok stats => exact ⟨built, stats, hbuilt, hresult⟩
      | error e =>
        rw [hresult] at hending
        simp only at hending
        split_ifs at hending
        cases hending
    · rintro ⟨built', stats, hbuilt', hresult⟩
      rw [(run_of_builds hbuilt').2, hresult]
  · obtain ⟨-, hne, -⟩ := run_of_not_builds (not_exists.mp hbuilds)
    refine ⟨?_, ?_⟩
    · exact fun hzero => absurd hzero hne
    · rintro ⟨built, -, hbuilt, -⟩
      exact absurd ⟨built, hbuilt⟩ hbuilds

/-- **When a run returns one**: there is an error, and it is not a cancellation. -/
theorem run_returns_one_iff :
    (run host sources words).ending = .returned 1 ↔
      (∃ o e, Options.read words = .options o ∧ o.sources sources = .error e) ∨
      ∃ built e, Builds host sources words built ∧ built.2.result = .error e ∧
        e.isCancellation = false := by
  -- a run returns one for its build, or for its sources if it has not come to a build
  by_cases hbuilds : ∃ built, Builds host sources words built
  · obtain ⟨built, hbuilt⟩ := hbuilds
    refine ⟨?_, ?_⟩
    · intro hone
      have hending := hone.symm.trans (run_of_builds hbuilt).2
      cases hresult : built.2.result with
      | ok stats =>
        rw [hresult] at hending
        cases hending
      | error e =>
        rw [hresult] at hending
        simp only at hending
        -- a cancellation is not returned from
        split_ifs at hending with hcancelled
        exact .inr ⟨built, e, hbuilt, hresult, Bool.eq_false_iff.mpr hcancelled⟩
    · rintro (⟨o, e, hread, herror⟩ | ⟨built', e, hbuilt', hresult, hcancelled⟩)
      · -- a run without its sources builds nothing
        obtain ⟨o', chosen, hread', hchosen, -⟩ := hbuilt
        obtain rfl := Reading.options.inj (hread.symm.trans hread')
        rw [herror] at hchosen
        cases hchosen
      · rw [(run_of_builds hbuilt').2, hresult]
        simp only [hcancelled, Bool.false_eq_true, if_false]
  · obtain ⟨-, -, hone⟩ := run_of_not_builds (not_exists.mp hbuilds)
    refine hone.trans ⟨.inl, ?_⟩
    rintro (h | ⟨built, -, hbuilt, -⟩)
    · exact h
    · exact absurd ⟨built, hbuilt⟩ hbuilds

end Blocklist
