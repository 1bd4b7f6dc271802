import Blocklist.Build
import Blocklist.Proofs.Outcome

/-!
# The stages of a build

A build prepares everything that it saves, and then saves it. Whether it comes so far shows in what
it tells: the last stage is told exactly when everything is there.

* `prepare_eq_ok_iff` — when a build has everything that it saves, and what that is;
* `build_of_prepare_eq_ok`, `build_of_prepare_eq_error` — what it does then, and otherwise;
* `saving_mem_notices_iff` — when the last stage is told.
-/

namespace Blocklist

/-! ### Preparing -/

/-- **When a build has everything, and what that is.** -/
theorem prepare_eq_ok_iff {fetch : List String → Except Fault (List FetchResult)} {r : Recipe}
    {made : Prepared} :
    (prepare fetch r).result = .ok made ↔
      ∃ gathered signal signed, (gather fetch r.sources r.cap).result = .ok gathered ∧
        NetworkRule.privacySignal r.cap = .ok signal ∧ signatures r.now = .ok signed ∧
        made = ⟨gathered.rules ++ [signal], signed,
          gathered.stats (gathered.rules ++ [signal]) signed⟩ := by
  unfold prepare
  simp only [Told.result_bind, Told.result_tell, Told.result_ofExcept, Told.result_mapError,
    Told.result_pure, bind_eq_ok_iff, mapError_eq_ok_iff]
  -- notices do not stop a stage, so that only the three that can fail are left
  refine ⟨?_, ?_⟩
  · rintro ⟨_, -, gathered, hgathered, _, -, _, -, signal, hsignal, _, -, signed, hsigned, h⟩
    exact ⟨gathered, signal, signed, hgathered, hsignal, hsigned, (Except.ok.inj h).symm⟩
  · rintro ⟨gathered, signal, signed, hgathered, hsignal, hsigned, rfl⟩
    exact ⟨(), trivial, gathered, hgathered, (), trivial, (), trivial, signal, hsignal, (), trivial,
      signed, hsigned, rfl⟩

section Build

variable {fetch : List String → Except Fault (List FetchResult)} {place : Place} {process : Nat}
  {r : Recipe}

/-- A build that cannot prepare leaves everything as it is. -/
theorem build_of_prepare_eq_error {e : BuildError} (h : (prepare fetch r).result = .error e) :
    build fetch place process r = (place, ⟨(prepare fetch r).notices, .error e⟩) := by
  unfold build
  simp only [h]

/-- A build that comes to saving tells of it, and comes to what saving does. -/
theorem build_of_prepare_eq_ok {made : Prepared} (h : (prepare fetch r).result = .ok made) :
    build fetch place process r = ((saveAll place process r made).1,
      ⟨(prepare fetch r).notices ++ [.stage .saving],
        (saveAll place process r made).2.map fun _ => made.stats⟩) := by
  unfold build
  simp only [h]

end Build

/-! ### The last stage -/

/-- Whether all that a computation tells has a property. -/
def Told.Tells {ε α : Type} (P : Notice → Prop) (x : Told ε α) : Prop := ∀ n ∈ x.notices, P n

section Tells

variable {ε ε' α β : Type} {P : Notice → Prop}

theorem Told.tells_pure (a : α) : (pure a : Told ε α).Tells P :=
  fun _ h => absurd h List.not_mem_nil

theorem Told.tells_ofExcept (x : Except ε α) : (Told.ofExcept x).Tells P :=
  fun _ h => absurd h List.not_mem_nil

theorem Told.tells_tell {n : Notice} (h : P n) : (Told.tell n : Told ε Unit).Tells P := by
  intro m hm
  rwa [List.mem_singleton.mp hm]

/-- What two stages tell is what either does. -/
theorem Told.Tells.bind {x : Told ε α} {f : α → Told ε β} (hx : x.Tells P)
    (hf : ∀ a, (f a).Tells P) : (x >>= f).Tells P := by
  intro n hn
  -- after a failure the second stage does not begin
  cases hresult : x.result with
  | error e =>
    rw [Told.notices_bind_of_error hresult] at hn
    exact hx n hn
  | ok a =>
    rw [Told.notices_bind_of_ok hresult, List.mem_append] at hn
    exact hn.elim (hx n) (hf a n)

theorem Told.Tells.mapError {x : Told ε α} (hx : x.Tells P) (f : ε → ε') :
    (x.mapError f).Tells P := hx

end Tells

/-- Whether a notice does not say that the last stage has come. -/
def Notice.NotSaving (n : Notice) : Prop := n ≠ .stage .saving

/-- Loading a source does not tell of saving. -/
theorem tells_load (cap : Int) (source : Source) (result : FetchResult) :
    (load cap source result).Tells Notice.NotSaving := by
  unfold load
  refine (Told.tells_tell Notice.noConfusion).bind fun _ => ?_
  split
  · exact (Told.tells_tell Notice.noConfusion).bind fun _ => Told.tells_pure _
  · refine (Told.tells_ofExcept _).bind fun _ => ?_
    exact (Told.tells_tell Notice.noConfusion).bind fun _ => Told.tells_pure _

/-- Nor does loading all of them. -/
theorem tells_loadAll (cap : Int) (fetched : List (Source × FetchResult)) :
    (loadAll cap fetched).Tells Notice.NotSaving := by
  -- one source after the other, as they are loaded
  induction fetched with
  | nil => exact Told.tells_pure []
  | cons pair fetched ih =>
    obtain ⟨source, result⟩ := pair
    exact (tells_load cap source result).bind fun _ => ih.bind fun _ => Told.tells_pure _

/-- Nor does merging them. -/
theorem tells_mergeLoaded (cap : Int) (loaded : List Loaded) :
    (mergeLoaded cap loaded).Tells Notice.NotSaving := by
  unfold mergeLoaded
  simp only
  split
  · exact Told.tells_ofExcept _
  · refine (Told.tells_tell Notice.noConfusion).bind fun _ => ?_
    exact (Told.tells_tell Notice.noConfusion).bind fun _ => Told.tells_pure _

/-- **So gathering does not tell of saving.** -/
theorem tells_gather (fetch : List String → Except Fault (List FetchResult))
    (sources : List Source) (cap : Int) : (gather fetch sources cap).Tells Notice.NotSaving := by
  unfold gather gatherFetched
  have hunknown : (Told.tellAll ((unknownSources sources).map .unknownSource) :
      Told GatherError Unit).Tells Notice.NotSaving := by
    intro n hn
    obtain ⟨source, -, rfl⟩ := List.mem_map.mp hn
    exact Notice.noConfusion
  refine hunknown.bind fun _ => (Told.tells_ofExcept _).bind fun results => ?_
  exact ((tells_loadAll cap _).mapError _).bind fun loaded => tells_mergeLoaded cap loaded

/-- No part of preparing tells that the last stage has come. -/
theorem tells_prepare (fetch : List String → Except Fault (List FetchResult)) (r : Recipe) :
    (prepare fetch r).Tells Notice.NotSaving := by
  unfold prepare
  refine (Told.tells_tell (by simp [Notice.NotSaving])).bind fun _ => ?_
  refine ((tells_gather fetch r.sources r.cap).mapError _).bind fun gathered => ?_
  refine (Told.tells_tell Notice.noConfusion).bind fun _ => ?_
  refine (Told.tells_tell (by simp [Notice.NotSaving])).bind fun _ => ?_
  refine (Told.tells_ofExcept _).bind fun signal => ?_
  refine (Told.tells_tell (by simp [Notice.NotSaving])).bind fun _ => ?_
  exact (Told.tells_ofExcept _).bind fun signed => Told.tells_pure _

/-- **The last stage** is told exactly if everything is there. -/
theorem saving_mem_notices_iff {fetch : List String → Except Fault (List FetchResult)}
    {place : Place} {process : Nat} {r : Recipe} :
    .stage .saving ∈ (build fetch place process r).2.notices ↔
      ∃ made, (prepare fetch r).result = .ok made := by
  cases h : (prepare fetch r).result with
  | error e =>
    rw [build_of_prepare_eq_error h]
    refine ⟨?_, ?_⟩
    · -- all that was told was told while preparing
      intro hmem
      exact absurd rfl (tells_prepare fetch r _ hmem)
    · rintro ⟨made, hmade⟩
      cases hmade
  | ok made =>
    rw [build_of_prepare_eq_ok h]
    exact ⟨fun _ => ⟨made, rfl⟩, fun _ => List.mem_append_right _ List.mem_cons_self⟩

end Blocklist
