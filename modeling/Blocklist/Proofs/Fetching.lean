import Blocklist.Fetch
import Blocklist.Proofs.Outcome
import Mathlib.Data.List.Basic

/-!
# What fetches come to

As long as nothing is cancelled, every location has its result, which depends on its own fetch only.

* `FetchResult.told` — the result of a fetch that was not cancelled;
* `settle_eq_ok`, `fetchAll_eq_ok` — the results of many, in the order of the locations;
* `settle_eq_cancelled` — the first cancellation ends the whole;
* `fetchAll_eq_ok_iff` — there are results only if nothing was cancelled, and there are no others.
-/

namespace Blocklist

/-- **What is told of one fetch** that was not cancelled. -/
def FetchResult.told (location : String) : Except Fault String → FetchResult
  | .ok text => ⟨location, .ok text⟩
  | .error fault => ⟨location, .error (fault.report?.getD "")⟩

/-- A result has a text exactly if its fetch gave one. -/
@[simp] theorem FetchResult.toOption_outcome_told (location : String)
    (fetched : Except Fault String) :
    (FetchResult.told location fetched).outcome.toOption = fetched.toOption := by
  cases fetched <;> rfl

/-- Only a cancellation has no result. -/
theorem FetchResult.of_eq_ok {location : String} {fetched : Except Fault String}
    (h : fetched ≠ .error .cancelled) :
    FetchResult.of location fetched = .ok (.told location fetched) := by
  cases fetched with
  | ok text => rfl
  | error fault =>
    -- a refusal and a failure are told by a reason
    cases fault with
    | refusal _ reason => rfl
    | failure kind text => rfl
    | cancelled => exact absurd rfl h

/-- The first result, and then the others. -/
theorem settle_cons (entry : String × Except Fault String)
    (others : List (String × Except Fault String)) :
    settle (entry :: others) = (do
      let result ← FetchResult.of entry.1 entry.2
      let results ← settle others
      pure (result :: results)) := List.mapM_cons

/-- **Each fetch has its own result.** Fetches of which none was cancelled come to their own
results, in their order. -/
theorem settle_eq_ok {fetched : List (String × Except Fault String)}
    (h : ∀ entry ∈ fetched, entry.2 ≠ .error .cancelled) :
    settle fetched = .ok (fetched.map fun entry => .told entry.1 entry.2) := by
  induction fetched with
  | nil => rfl
  | cons entry others ih =>
    obtain ⟨hfirst, hothers⟩ := List.forall_mem_cons.mp h
    rw [settle_cons, FetchResult.of_eq_ok hfirst, ih hothers]
    rfl

/-- **Each location has its own result.** Without a cancellation many locations come to the results
of their own fetches, in their order. -/
theorem fetchAll_eq_ok {fetch : Fetcher} {locations : List String}
    (h : ∀ location ∈ locations, fetch location ≠ .error .cancelled) :
    fetchAll fetch locations
      = .ok (locations.map fun location => .told location (fetch location)) := by
  unfold fetchAll
  rw [settle_eq_ok (List.forall_mem_map.mpr h), List.map_map]
  rfl

/-- A cancellation has none. -/
theorem FetchResult.of_cancelled (location : String) :
    FetchResult.of location (.error .cancelled) = .error .cancelled := rfl

/-- **The first cancellation ends the whole**, whatever comes behind it. -/
theorem settle_eq_cancelled {front : List (String × Except Fault String)}
    (hfront : ∀ entry ∈ front, entry.2 ≠ .error .cancelled) (location : String)
    (back : List (String × Except Fault String)) :
    settle (front ++ (location, .error .cancelled) :: back) = .error .cancelled := by
  induction front with
  | nil =>
    rw [List.nil_append, settle_cons, FetchResult.of_cancelled]
    rfl
  | cons entry front ih =>
    obtain ⟨hentry, hothers⟩ := List.forall_mem_cons.mp hfront
    -- those in front have results, which are lost
    rw [List.cons_append, settle_cons, FetchResult.of_eq_ok hentry, ih hothers]
    rfl

/-- A cancellation ends the whole, wherever it stands. -/
theorem ne_cancelled_of_fetchAll_eq_ok {fetch : Fetcher} {locations : List String}
    {results : List FetchResult} (h : fetchAll fetch locations = .ok results) :
    ∀ location ∈ locations, fetch location ≠ .error .cancelled := by
  unfold fetchAll at h
  induction locations generalizing results with
  | nil => exact nofun
  | cons location locations ih =>
    rw [List.map_cons, settle_cons] at h
    obtain ⟨first, hfirst, h⟩ := bind_eq_ok_iff.mp h
    obtain ⟨others, hothers, -⟩ := bind_eq_ok_iff.mp h
    -- the first is not cancelled, as it has a result, and the others are not by induction
    refine List.forall_mem_cons.mpr ⟨fun hcancelled => ?_, ih hothers⟩
    rw [hcancelled, FetchResult.of_cancelled] at hfirst
    cases hfirst

/-- **When many locations have results, and which.** -/
theorem fetchAll_eq_ok_iff {fetch : Fetcher} {locations : List String}
    {results : List FetchResult} :
    fetchAll fetch locations = .ok results ↔
      (∀ location ∈ locations, fetch location ≠ .error .cancelled) ∧
        results = locations.map fun location => .told location (fetch location) := by
  refine ⟨fun h => ?_, ?_⟩
  · have hnone := ne_cancelled_of_fetchAll_eq_ok h
    rw [fetchAll_eq_ok hnone] at h
    exact ⟨hnone, (Except.ok.inj h).symm⟩
  · rintro ⟨hnone, rfl⟩
    exact fetchAll_eq_ok hnone

end Blocklist
