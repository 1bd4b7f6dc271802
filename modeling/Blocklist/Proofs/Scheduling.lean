import Blocklist.Schedule
import Mathlib.Data.List.Nodup

/-!
# Any schedule, one result

However many fetches may run at once, and in whatever order they end, they come to the same: what
`fetchAll` says, which knows of no order at all.

* `Schedule.Run.length_eq` — a run keeps the number of the fetches;
* `Schedule.EndedOnce` — a fetch ends once at most, and what it came to is on the trace, which every
  event keeps, as only a fetch that runs can end;
* `Schedule.StartedTo` — fetches start in their order, which every event keeps, as the first that
  waits is the next to start; `Schedule.Run.calls_eq` — so a run to the end has called for every
  location once;
* `Schedule.exists_run_finished` — a run to the end: as there is a permit, each fetch can start and
  end in its turn;
* `fetched_iff` — the result of all runs to the end.
-/

namespace Blocklist

namespace Schedule

variable {permits : Nat} {start tasks tasks' : List Task} {trace : List Event} {event : Event}

/-! ### What a run keeps -/

/-- No step adds a task or takes one away. -/
theorem Step.length_eq (h : Step permits tasks event tasks') : tasks'.length = tasks.length := by
  cases h with
  | start _ _ => simp
  | finish outcome => simp

/-- So no run does. -/
theorem Run.length_eq (h : Run permits start trace tasks) : tasks.length = start.length := by
  induction h with
  | refl => rfl
  | step _ hstep ih => rw [hstep.length_eq, ih]

/-- A run to the end has an outcome for each location. -/
theorem Run.length_outcomes {locations : List String} {outcomes : List (Except Fault String)}
    (h : Run permits (initial locations) trace (outcomes.map Task.finished)) :
    outcomes.length = locations.length := by
  have hrun := h.length_eq
  rwa [initial, List.length_map, List.length_map] at hrun

/-- Replacing one entry of a list touches no other. -/
theorem getElem?_append_cons_of_ne {front back : List Task} {old new : Task} {i : Nat}
    (h : i ≠ front.length) : (front ++ new :: back)[i]? = (front ++ old :: back)[i]? := by
  have hset : front ++ new :: back = (front ++ old :: back).set front.length new := by simp
  rw [hset, List.getElem?_set_ne h.symm]

/-! ### Ends -/

/-- The fetches that have ended in a trace, each with what it came to, in the order of their
ends. -/
def ends (trace : List Event) : List (Nat × Except Fault String) :=
  trace.filterMap fun event => match event with
    | .started _ => none
    | .finished index outcome => some (index, outcome)

theorem ends_append (trace more : List Event) :
    ends (trace ++ more) = ends trace ++ ends more := List.filterMap_append

/-- What has ended is what the trace says has. -/
theorem mem_ends_iff {i : Nat} {outcome : Except Fault String} :
    (i, outcome) ∈ ends trace ↔ .finished i outcome ∈ trace := by
  unfold ends
  rw [List.mem_filterMap]
  refine ⟨?_, ?_⟩
  · rintro ⟨event, hevent, hends⟩
    cases event with
    | started index => cases hends
    | finished index outcome' =>
      cases hends
      exact hevent
  · intro hevent
    exact ⟨_, hevent, rfl⟩

/-- **One end each**: no fetch has ended twice in a trace, and those that have ended there are those
that are finished, with what they came to. -/
structure EndedOnce (trace : List Event) (tasks : List Task) : Prop where
  nodup : ((ends trace).map Prod.fst).Nodup
  mem_iff : ∀ i outcome, (i, outcome) ∈ ends trace ↔ tasks[i]? = some (.finished outcome)

theorem endedOnce_initial (locations : List String) : EndedOnce [] (initial locations) where
  nodup := List.nodup_nil
  mem_iff := fun i outcome => by simp [ends, initial, List.getElem?_replicate]

/-- **One event** keeps this, as only a fetch that runs can end. -/
theorem EndedOnce.step (h : EndedOnce trace tasks) (hstep : Step permits tasks event tasks') :
    EndedOnce (trace ++ [event]) tasks' := by
  cases hstep with
  | @start front back _ _ =>
    have hends : ends (trace ++ [.started front.length]) = ends trace := by
      rw [ends_append]
      exact List.append_nil _
    refine ⟨by rw [hends]; exact h.nodup, fun i outcome => ?_⟩
    rw [hends, h.mem_iff]
    by_cases hi : i = front.length
    · -- the fetch that starts waited before and runs now, so it has not ended at all
      subst hi
      simp
    · rw [getElem?_append_cons_of_ne hi]
  | @finish front back outcome =>
    have hends : ends (trace ++ [.finished front.length outcome])
        = ends trace ++ [(front.length, outcome)] := by
      rw [ends_append]
      rfl
    -- the fetch that ends has run, so it had not ended before
    have hnot : ∀ o, (front.length, o) ∉ ends trace := by
      intro o ho
      have hran := (h.mem_iff front.length o).mp ho
      simp at hran
    refine ⟨?_, fun i o => ?_⟩
    · rw [hends, List.map_append]
      refine h.nodup.append (List.nodup_singleton _) (List.disjoint_singleton.mpr ?_)
      intro hmem
      obtain ⟨⟨j, o⟩, ho, hj⟩ := List.mem_map.mp hmem
      obtain rfl : j = front.length := hj
      exact hnot o ho
    · rw [hends, List.mem_append, List.mem_singleton]
      by_cases hi : i = front.length
      · subst hi
        simp [hnot o, eq_comm]
      · rw [getElem?_append_cons_of_ne hi, ← h.mem_iff]
        simp [hi]

/-- **No fetch ends twice**, and the trace knows every end. -/
theorem Run.endedOnce {locations : List String} (h : Run permits (initial locations) trace tasks) :
    EndedOnce trace tasks := by
  induction h with
  | refl => exact endedOnce_initial locations
  | step _ hstep ih => exact ih.step hstep

/-! ### The order of the starts -/

/-- The fetches that have started in a trace, in the order of their starts. -/
def starts (trace : List Event) : List Nat :=
  trace.filterMap fun event => match event with
    | .started index => some index
    | .finished _ _ => none

theorem starts_append (trace more : List Event) :
    starts (trace ++ more) = starts trace ++ starts more := List.filterMap_append

/-- **Starts in order**: the fetches before `n` have started one after the other, and all others
wait. -/
structure StartedTo (n : Nat) (trace : List Event) (tasks : List Task) : Prop where
  starts_eq : starts trace = List.range n
  le_length : n ≤ tasks.length
  waits_iff : ∀ i, tasks[i]? = some .waiting ↔ n ≤ i ∧ i < tasks.length

theorem startedTo_initial (locations : List String) : StartedTo 0 [] (initial locations) where
  starts_eq := rfl
  le_length := Nat.zero_le _
  waits_iff := fun i => by simp [initial, List.getElem?_replicate]

/-- The next fetch to start is the first that waits. -/
theorem StartedTo.eq_length {n : Nat} {front back : List Task}
    (h : StartedTo n trace (front ++ .waiting :: back))
    (hfront : ∀ task ∈ front, task ≠ .waiting) : n = front.length := by
  have hlast := ((h.waits_iff front.length).mp (by simp)).1
  refine Nat.le_antisymm hlast (Nat.not_lt.mp fun hlt => ?_)
  -- otherwise the one at `n` would wait, ahead of the first that waits
  have hwait := (h.waits_iff n).mpr ⟨Nat.le_refl n, by rw [List.length_append]; omega⟩
  rw [List.getElem?_append_left hlt] at hwait
  exact hfront _ (List.mem_of_getElem? hwait) rfl

/-- **One event** keeps the order: it is the start of the first fetch that waits, or no start. -/
theorem StartedTo.step {n : Nat} (h : StartedTo n trace tasks)
    (hstep : Step permits tasks event tasks') : ∃ n', StartedTo n' (trace ++ [event]) tasks' := by
  cases hstep with
  -- the task that starts is the first that waits, and the next one is the first from now on
  | @start front back hfront _ =>
    obtain rfl := h.eq_length hfront
    refine ⟨front.length + 1, ?_, by simp, fun i => ?_⟩
    · rw [starts_append, h.starts_eq, List.range_succ]
      rfl
    · by_cases hi : i = front.length
      · subst hi
        simp
      · rw [getElem?_append_cons_of_ne hi, h.waits_iff]
        simp only [List.length_append, List.length_cons]
        omega
  -- an end changes nothing about what has started
  | @finish front back outcome =>
    refine ⟨n, ?_, by simpa using h.le_length, fun i => ?_⟩
    · rw [starts_append, h.starts_eq]
      exact List.append_nil _
    · by_cases hi : i = front.length
      · -- the fetch that ends has run, so it did not wait before, nor does it now
        have hran := h.waits_iff i
        subst hi
        simpa using hran
      · rw [getElem?_append_cons_of_ne hi, h.waits_iff]
        simp

/-- **Fetches start in their order**, whichever way they run. -/
theorem Run.startedTo {locations : List String} (h : Run permits (initial locations) trace tasks) :
    ∃ n, StartedTo n trace tasks := by
  induction h with
  | refl => exact ⟨0, startedTo_initial locations⟩
  | step _ hstep ih =>
    obtain ⟨n, hstarted⟩ := ih
    exact hstarted.step hstep

/-- The locations that are called for in a trace, in the order of the calls. -/
def calls (locations : List String) (trace : List Event) : List String :=
  (starts trace).filterMap (locations[·]?)

theorem filterMap_getElem?_range (locations : List String) (n : Nat) :
    (List.range n).filterMap (locations[·]?) = locations.take n := by
  induction n with
  | zero => rfl
  | succ n ih =>
    rw [List.range_succ, List.filterMap_append, ih, List.take_add_one]
    cases h : locations[n]? <;> simp [h]

/-- **The calls of a run** are for the first locations, as many as have started. -/
theorem StartedTo.calls_eq {n : Nat} (h : StartedTo n trace tasks) (locations : List String) :
    calls locations trace = locations.take n := by
  rw [calls, h.starts_eq, filterMap_getElem?_range]

/-- **A run to the end has started every fetch once**, in the order of the locations. -/
theorem Run.starts_eq_range {locations : List String} {outcomes : List (Except Fault String)}
    (h : Run permits (initial locations) trace (outcomes.map Task.finished)) :
    starts trace = List.range locations.length := by
  obtain ⟨n, hstarted⟩ := h.startedTo
  have hlength := h.length_outcomes
  have hle : n ≤ locations.length := by
    have hle' := hstarted.le_length
    rwa [List.length_map, hlength] at hle'
  have hge : locations.length ≤ n := by
    apply Nat.not_lt.mp
    intro hlt
    -- a fetch that has not started would wait still, but all of them have ended
    have hwait := (hstarted.waits_iff n).mpr ⟨Nat.le_refl n, by rw [List.length_map]; omega⟩
    rw [List.getElem?_map] at hwait
    obtain ⟨outcome, -, houtcome⟩ := Option.map_eq_some_iff.mp hwait
    cases houtcome
  rw [hstarted.starts_eq, Nat.le_antisymm hle hge]

/-- So it has called for every location once, in their order. -/
theorem Run.calls_eq {locations : List String} {outcomes : List (Except Fault String)}
    (h : Run permits (initial locations) trace (outcomes.map Task.finished)) :
    calls locations trace = locations := by
  rw [calls, h.starts_eq_range, filterMap_getElem?_range, List.take_length]

/-! ### A run to the end -/

/-- Where some tasks have finished and the others wait, none is running. -/
private theorem countP_isRunning_eq_zero (done : List (Except Fault String)) (waiting : Nat) :
    (done.map Task.finished ++ .waiting :: List.replicate waiting Task.waiting).countP
      Task.isRunning = 0 := by
  rw [List.countP_eq_zero]
  intro task htask
  rcases List.mem_append.mp htask with hdone | hwait
  · obtain ⟨outcome, -, rfl⟩ := List.mem_map.mp hdone
    exact Bool.false_ne_true
  · rw [← List.replicate_succ] at hwait
    rw [List.eq_of_mem_replicate hwait]
    exact Bool.false_ne_true

/-- **A run to the end.** From where some fetches have ended and the others wait, the others can
start and end one by one, with any outcomes. The events to come are their ends, and their starts. -/
theorem exists_run_finished (hpermits : 0 < permits) (done todo : List (Except Fault String))
    (h : Run permits start trace
      (done.map Task.finished ++ List.replicate todo.length Task.waiting)) :
    ∃ more, Run permits start (trace ++ more) ((done ++ todo).map Task.finished) ∧
      ∀ i outcome, .finished i outcome ∈ more → (done ++ todo)[i]? = some outcome := by
  -- on the fetches that wait; those before them have ended, so every permit is free
  induction todo generalizing done trace with
  | nil =>
    refine ⟨[], ?_, fun i outcome hmem => absurd hmem List.not_mem_nil⟩
    simpa using h
  | cons outcome todo ih =>
    set front := done.map Task.finished with hfront
    set back := List.replicate todo.length Task.waiting with hback
    have hended : ∀ task ∈ front, task ≠ .waiting := by
      intro task htask
      obtain ⟨o, -, rfl⟩ := List.mem_map.mp htask
      exact Task.noConfusion
    have hfree : (front ++ .waiting :: back).countP Task.isRunning < permits := by
      rw [countP_isRunning_eq_zero]
      exact hpermits
    -- the first fetch that waits starts and ends, and the others follow
    have hrun := (h.step (Step.start hended hfree)).step (Step.finish outcome)
    have hshape : front ++ .finished outcome :: back
        = (done ++ [outcome]).map Task.finished ++ back := by
      rw [List.map_append, List.append_assoc]
      rfl
    rw [hshape] at hrun
    obtain ⟨more, hmore, hends⟩ := ih (done ++ [outcome]) hrun
    refine ⟨[.started front.length, .finished front.length outcome] ++ more, ?_, ?_⟩
    · rw [List.append_cons done outcome todo, ← List.append_assoc]
      simpa only [List.append_assoc, List.cons_append, List.nil_append] using hmore
    · intro i o hmem
      rw [List.append_cons done outcome todo]
      rcases List.mem_append.mp hmem with hpair | hlater
      · -- of the two events, the end is that of the fetch at hand
        obtain ⟨rfl, rfl⟩ : i = front.length ∧ o = outcome := by simpa using hpair
        rw [hfront, List.length_map, List.getElem?_append_left (by simp)]
        simp
      · exact hends i o hlater

/-- **Any outcomes** can be those of a run to the end, if there is one for each location. -/
theorem exists_run_initial (hpermits : 0 < permits) {locations : List String}
    {outcomes : List (Except Fault String)} (hlength : outcomes.length = locations.length) :
    ∃ trace, Run permits (initial locations) trace (outcomes.map Task.finished) ∧
      ∀ i outcome, .finished i outcome ∈ trace → outcomes[i]? = some outcome := by
  -- at the start none has finished and as many wait as there are outcomes
  have hinitial : initial locations = ([] : List (Except Fault String)).map Task.finished
      ++ List.replicate outcomes.length Task.waiting := by
    rw [initial, List.map_const', hlength]
    rfl
  have hstart : Run permits (initial locations) [] (([] : List (Except Fault String)).map
      Task.finished ++ List.replicate outcomes.length Task.waiting) := by
    rw [← hinitial]
    exact .refl
  exact exists_run_finished hpermits [] outcomes hstart

/-! ### The result -/

/-- Outcomes on the trace of a run to the end are those of the fetcher. -/
theorem Run.outcomes_eq {fetch : Fetcher} {locations : List String}
    {outcomes : List (Except Fault String)}
    (h : Run permits (initial locations) trace (outcomes.map Task.finished))
    (hanswers : Answers fetch locations trace) : outcomes = locations.map fetch := by
  have hlength := h.length_outcomes
  refine List.ext_getElem? fun i => ?_
  -- each task has finished, and what it has finished with is what was answered
  by_cases hi : i < outcomes.length
  · have hlast : (outcomes.map Task.finished)[i]? = some (.finished outcomes[i]) := by
      rw [List.getElem?_map, List.getElem?_eq_getElem hi, Option.map_some]
    rw [List.getElem?_eq_getElem hi, List.getElem?_map]
    have hend := mem_ends_iff.mp ((h.endedOnce.mem_iff i outcomes[i]).mpr hlast)
    exact (hanswers i outcomes[i] hend).symm
  · rw [List.getElem?_eq_none (by omega), List.getElem?_eq_none (by rw [List.length_map]; omega)]

end Schedule

/-- There is at least one permit. -/
theorem permits_pos (concurrency : Int) : 0 < permits concurrency := by
  unfold permits
  omega

/-- **Any schedule, one result.** Under any number of permits the fetches of some locations can run
to their end, and whichever way they do, they come to what `fetchAll` says. -/
theorem fetched_iff {concurrency : Int} {fetch : Fetcher} {locations : List String}
    {result : Except Fault (List FetchResult)} :
    Fetched concurrency fetch locations result ↔ result = fetchAll fetch locations := by
  refine ⟨?_, ?_⟩
  · -- a run to the end has the outcomes of the fetcher, whatever its order
    rintro ⟨trace, outcomes, hrun, hanswers, rfl⟩
    rw [hrun.outcomes_eq hanswers, ← List.map_prod_left_eq_zip, fetchAll]
  · -- one by one is an order in which the fetches can run
    rintro rfl
    have hlength : (locations.map fetch).length = locations.length := List.length_map fetch
    obtain ⟨trace, hrun, hends⟩ :=
      Schedule.exists_run_initial (permits_pos concurrency) hlength
    refine ⟨trace, locations.map fetch, hrun, fun i outcome hmem => ?_, ?_⟩
    · rw [← List.getElem?_map]
      exact hends i outcome hmem
    · rw [← List.map_prod_left_eq_zip, fetchAll]

/-- The same with the fetcher for pages and files. -/
theorem fetchedEverything_iff {concurrency : Int} {reach : Reach} {locations : List String}
    {result : Except Fault (List FetchResult)} :
    FetchedEverything concurrency reach locations result ↔
      result = fetchEverything reach locations := by
  unfold FetchedEverything fetchEverything
  cases anyHttp locations with
  | error e => exact Iff.rfl
  | ok session => exact fetched_iff

end Blocklist
