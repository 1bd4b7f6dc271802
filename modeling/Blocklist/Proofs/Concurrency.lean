import Blocklist.Proofs.Fetching
import Blocklist.Proofs.Scheduling
import Mathlib.Data.List.Forall2
import Mathlib.Data.List.Perm.Subperm

/-!
# Bounded, in order, and once each

Fetches side by side at any moment of any run, and what they have come to when all of them have
ended. The permits bound how many run, and the order of the locations says which starts next. When
and how a fetch ends is open: with a text, with a failure, or cancelled.

* `Schedule.Run.countP_isRunning_le` — never more fetches run than there are permits, as a start
  takes one that is free and an end gives it back;
* `Schedule.finished_or_exists_step`, `Schedule.Run.length_trace_le` — something can happen until
  all fetches have ended, and no fetch has more than two events, so every run comes to that;
* `FetchResult.Tells`, `ComesTo` — what is told of one fetch and of all, by how they ended;
* `fetches_bounded_ordered_once` — the main statement, over every run.

Each of these is about one event first (`Step`), and then by induction about runs.
-/

namespace Blocklist

namespace Schedule

variable {permits : Nat} {tasks tasks' : List Task} {trace : List Event} {event : Event}

/-! ### Permits -/

/-- **One event** keeps to the permits. -/
theorem Step.countP_isRunning_le (h : Step permits tasks event tasks')
    (hle : tasks.countP Task.isRunning ≤ permits) : tasks'.countP Task.isRunning ≤ permits := by
  cases h with
  | @start front back _ hfree =>
    -- one more runs, with the permit that was free
    have hmore : (front ++ .running :: back).countP Task.isRunning
        = (front ++ .waiting :: back).countP Task.isRunning + 1 := by
      simp [List.countP_cons, Task.isRunning, Nat.add_assoc]
    rw [hmore]
    exact hfree
  | @finish front back outcome =>
    -- one less runs, and its permit is free again
    have hless : (front ++ .running :: back).countP Task.isRunning
        = (front ++ .finished outcome :: back).countP Task.isRunning + 1 := by
      simp [List.countP_cons, Task.isRunning, Nat.add_assoc]
    omega

theorem countP_isRunning_initial (locations : List String) :
    (initial locations).countP Task.isRunning = 0 := by
  rw [List.countP_eq_zero]
  intro task htask
  obtain ⟨location, -, rfl⟩ := List.mem_map.mp htask
  exact Bool.false_ne_true

/-- **Never more fetches run than there are permits.** -/
theorem Run.countP_isRunning_le {locations : List String}
    (h : Run permits (initial locations) trace tasks) :
    tasks.countP Task.isRunning ≤ permits := by
  induction h with
  | refl =>
    rw [countP_isRunning_initial]
    exact Nat.zero_le permits
  | step _ hstep ih => exact hstep.countP_isRunning_le ih

/-! ### Every run comes to an end -/

/-- Tasks of which none waits and none runs have all finished. -/
theorem exists_outcomes_of_forall (h : ∀ task ∈ tasks, task ≠ .waiting ∧ task ≠ .running) :
    ∃ outcomes : List (Except Fault String), tasks = outcomes.map Task.finished := by
  induction tasks with
  | nil => exact ⟨[], rfl⟩
  | cons task tasks ih =>
    obtain ⟨⟨hwait, hrun⟩, hothers⟩ := List.forall_mem_cons.mp h
    obtain ⟨outcomes, rfl⟩ := ih hothers
    cases task with
    | waiting => exact absurd rfl hwait
    | running => exact absurd rfl hrun
    | finished outcome => exact ⟨outcome :: outcomes, rfl⟩

/-- **No fetch is stuck.** As long as not all fetches have ended, one that runs can end, or, if none
runs, all permits are free and the first that waits can start. -/
theorem finished_or_exists_step (hpermits : 0 < permits) (tasks : List Task) :
    (∃ outcomes : List (Except Fault String), tasks = outcomes.map Task.finished) ∨
      ∃ event tasks', Step permits tasks event tasks' := by
  -- a running task may finish; if none runs, a permit is free for the first that waits
  by_cases hrun : Task.running ∈ tasks
  · right
    obtain ⟨front, back, rfl⟩ := List.append_of_mem hrun
    exact ⟨_, _, .finish (.ok "")⟩
  · by_cases hwait : Task.waiting ∈ tasks
    · right
      obtain ⟨front, back, hsplit, hfront⟩ := List.eq_append_cons_of_mem hwait
      have hfree : tasks.countP Task.isRunning = 0 := by
        rw [List.countP_eq_zero]
        intro task htask hisRunning
        cases task with
        | waiting => cases hisRunning
        | running => exact hrun htask
        | finished outcome => cases hisRunning
      subst hsplit
      refine ⟨_, _, .start ?_ (by rw [hfree]; exact hpermits)⟩
      intro task htask heq
      exact hfront (heq ▸ htask)
    · left
      apply exists_outcomes_of_forall
      intro task htask
      exact ⟨fun heq => hwait (heq ▸ htask), fun heq => hrun (heq ▸ htask)⟩

/-- An event is a start or an end. -/
theorem length_trace_eq (trace : List Event) :
    trace.length = (starts trace).length + (ends trace).length := by
  induction trace with
  | nil => rfl
  | cons event trace ih =>
    rw [List.length_cons, ih]
    cases event with
    | started index => exact Nat.add_right_comm _ _ 1
    | finished index outcome => rfl

/-- Only fetches that are there have ended. -/
theorem EndedOnce.lt_length {n : Nat} (h : EndedOnce trace tasks) (hn : tasks.length = n) {i : Nat}
    (hi : i ∈ (ends trace).map Prod.fst) : i < n := by
  obtain ⟨⟨j, outcome⟩, hmem, rfl⟩ := List.mem_map.mp hi
  have hfinished := (h.mem_iff j outcome).mp hmem
  exact hn ▸ (List.getElem?_eq_some_iff.mp hfinished).1

/-- **At most two events a fetch**, its start and its end. -/
theorem Run.length_trace_le {locations : List String}
    (h : Run permits (initial locations) trace tasks) : trace.length ≤ 2 * locations.length := by
  obtain ⟨n, hstarted⟩ := h.startedTo
  have hlength : tasks.length = locations.length := by
    rw [h.length_eq, initial, List.length_map]
  have hstarts : (starts trace).length ≤ locations.length := by
    rw [hstarted.starts_eq, List.length_range, ← hlength]
    exact hstarted.le_length
  -- the fetches that have ended are distinct numbers below that of all fetches
  have hends : (ends trace).length ≤ locations.length := by
    have hsub : (ends trace).map Prod.fst ⊆ List.range locations.length := by
      intro i hi
      exact List.mem_range.mpr (h.endedOnce.lt_length hlength hi)
    have hle := (h.endedOnce.nodup.subperm hsub).length_le
    rwa [List.length_map, List.length_range] at hle
  rw [length_trace_eq]
  omega

/-! ### When all have ended -/

variable {locations : List String} {outcomes : List (Except Fault String)}

/-- What a fetch came to is what it ended with on the trace. -/
theorem Run.mem_trace_iff (h : Run permits (initial locations) trace (outcomes.map Task.finished))
    {i : Nat} {outcome : Except Fault String} :
    .finished i outcome ∈ trace ↔ outcomes[i]? = some outcome := by
  rw [← mem_ends_iff, h.endedOnce.mem_iff, List.getElem?_map, Option.map_eq_some_iff]
  refine ⟨?_, fun hi => ⟨outcome, hi, rfl⟩⟩
  rintro ⟨outcome', hi, heq⟩
  cases heq
  exact hi

/-- By then every fetch has ended once, in some order. -/
theorem Run.ends_perm_range
    (h : Run permits (initial locations) trace (outcomes.map Task.finished)) :
    ((ends trace).map Prod.fst).Perm (List.range locations.length) := by
  have hlength := h.length_outcomes
  -- no task ends twice, so that it is enough to know which ones do
  rw [List.perm_ext_iff_of_nodup h.endedOnce.nodup List.nodup_range]
  intro i
  refine ⟨fun hi => ?_, fun hi => ?_⟩
  · exact List.mem_range.mpr (h.endedOnce.lt_length (by rw [List.length_map, hlength]) hi)
  · have hlt : i < outcomes.length := by
      rw [hlength]
      exact List.mem_range.mp hi
    have hend := mem_ends_iff.mpr (h.mem_trace_iff.mpr (List.getElem?_eq_getElem hlt))
    exact List.mem_map.mpr ⟨_, hend, rfl⟩

end Schedule

/-! ### What is told -/

/-- **What is told of a fetch** by how it ended, unless it was cancelled: the text; the reason of a
refusal; and of another failure the text, or the name of its kind if it has none. -/
inductive FetchResult.Tells (location : String) : Except Fault String → FetchResult → Prop where
  | text (text : String) : Tells location (.ok text) ⟨location, .ok text⟩
  | refusal (place reason : String) :
    Tells location (.error (.refusal place reason)) ⟨location, .error reason⟩
  | failure (kind : FaultKind) {text : String} (htext : text ≠ "") :
    Tells location (.error (.failure kind text)) ⟨location, .error text⟩
  | wordless (kind : FaultKind) :
    Tells location (.error (.failure kind "")) ⟨location, .error kind.name⟩

/-- A result says what its fetch has come to, if it was not cancelled. -/
theorem FetchResult.tells_told (location : String) {fetched : Except Fault String}
    (h : fetched ≠ .error .cancelled) : Tells location fetched (told location fetched) := by
  cases fetched with
  | ok text => exact .text text
  | error fault =>
    cases fault with
    | refusal place reason => exact .refusal place reason
    | failure kind text =>
      -- a failure without a text is told by its kind
      by_cases htext : text = ""
      · subst htext
        exact .wordless kind
      · have htold : told location (.error (.failure kind text)) = ⟨location, .error text⟩ := by
          simp only [told, Fault.report?, if_neg htext, Option.getD_some]
        rw [htold]
        exact .failure kind htext
    | cancelled => exact absurd rfl h

/-- **What the fetches of some locations come to together**, by how each of them ended. -/
structure ComesTo (locations : List String) (outcomes : List (Except Fault String))
    (result : Except Fault (List FetchResult)) : Prop where
  /-- The first that was cancelled ends the whole: those before it have their results, and those
  behind it make no difference. -/
  cancelled : ∀ k, outcomes[k]? = some (.error .cancelled) →
    (∀ j < k, outcomes[j]? ≠ some (.error .cancelled)) →
    (∃ results, settle ((locations.zip outcomes).take k) = .ok results) ∧
      settle ((locations.zip outcomes).take (k + 1)) = .error .cancelled ∧
      result = .error .cancelled
  /-- If none was, each location is told of, in their order. -/
  told : .error .cancelled ∉ outcomes → ∃ results, result = .ok results ∧
    List.Forall₂ (fun fetched told => FetchResult.Tells fetched.1 fetched.2 told)
      (locations.zip outcomes) results

/-- **What all fetches come to** is told by their outcomes in the order of the locations. -/
theorem comesTo_settle {locations : List String} {outcomes : List (Except Fault String)}
    (hlength : outcomes.length = locations.length) :
    ComesTo locations outcomes (settle (locations.zip outcomes)) where
  cancelled := by
    intro k hk hfirst
    obtain ⟨hlt, hk⟩ := List.getElem?_eq_some_iff.mp hk
    set fetched := locations.zip outcomes with hfetched
    have hlt' : k < fetched.length := by
      rw [hfetched, List.length_zip]
      omega
    have hentry : fetched[k] = (locations[k], .error .cancelled) := by
      rw [List.getElem_zip, hk]
    -- no fetch before the first that was cancelled was cancelled
    have hfront : ∀ entry ∈ fetched.take k, entry.2 ≠ .error .cancelled := by
      intro entry hentry hcancelled
      obtain ⟨j, hj, rfl⟩ := List.mem_take_iff_getElem.mp hentry
      have hjlt : j < outcomes.length := by omega
      refine hfirst j (by omega) ?_
      rw [List.getElem?_eq_getElem hjlt, ← hcancelled, List.getElem_zip]
    have htake : fetched.take (k + 1) = fetched.take k ++ [(locations[k], .error .cancelled)] := by
      rw [List.take_succ_eq_append_getElem hlt', hentry]
    refine ⟨⟨_, settle_eq_ok hfront⟩, ?_, ?_⟩
    · rw [htake]
      exact settle_eq_cancelled hfront _ []
    · rw [← List.take_append_drop (k + 1) fetched, htake, List.append_assoc]
      exact settle_eq_cancelled hfront _ _
  told := by
    intro hnone
    have hall : ∀ entry ∈ locations.zip outcomes, entry.2 ≠ .error .cancelled := by
      intro entry hentry hcancelled
      have hmem := (List.of_mem_zip hentry).2
      rw [hcancelled] at hmem
      exact hnone hmem
    refine ⟨_, settle_eq_ok hall, ?_⟩
    rw [List.forall₂_map_right_iff, List.forall₂_same]
    intro entry hentry
    exact FetchResult.tells_told entry.1 (hall entry hentry)

/-! ### Every run -/

/-- **Bounded, in order, and once each.** At every moment of every run of the fetches of some
locations, at most `max concurrency 1` of them run, and those that have started are the first ones
of the locations, in their order. Unless all have ended, something can happen next, and there are no
more than two events a fetch. When all have ended, every one has started once and ended once, and
what they come to is settled by how each of them ended: it is the same for all runs with the same
ends, in whatever order, under whatever number of permits. -/
theorem fetches_bounded_ordered_once {concurrency : Int} {locations : List String}
    {trace : List Event} {tasks : List Task}
    (h : Schedule.Run (permits concurrency) (Schedule.initial locations) trace tasks) :
    ((tasks.countP Task.isRunning : Nat) : Int) ≤ max concurrency 1 ∧
    (∃ n, Schedule.StartedTo n trace tasks ∧ Schedule.calls locations trace = locations.take n) ∧
    ((∃ outcomes : List (Except Fault String), tasks = outcomes.map Task.finished) ∨
      ∃ event tasks', Schedule.Step (permits concurrency) tasks event tasks') ∧
    trace.length ≤ 2 * locations.length ∧
    ∀ outcomes : List (Except Fault String), tasks = outcomes.map Task.finished →
      Schedule.starts trace = List.range locations.length ∧
      ((Schedule.ends trace).map Prod.fst).Perm (List.range locations.length) ∧
      (∀ i outcome, .finished i outcome ∈ trace ↔ outcomes[i]? = some outcome) ∧
      ComesTo locations outcomes (settle (locations.zip outcomes)) ∧
      ∀ (concurrency' : Int) (trace' : List Event) (outcomes' : List (Except Fault String)),
        Schedule.Run (permits concurrency') (Schedule.initial locations) trace'
          (outcomes'.map Task.finished) →
        (∀ i outcome, Event.finished i outcome ∈ trace' ↔ .finished i outcome ∈ trace) →
        settle (locations.zip outcomes') = settle (locations.zip outcomes) := by
  refine ⟨?_, ?_, Schedule.finished_or_exists_step (permits_pos concurrency) tasks,
    h.length_trace_le, ?_⟩
  · have hle := h.countP_isRunning_le
    unfold permits at hle
    omega
  · obtain ⟨n, hstarted⟩ := h.startedTo
    exact ⟨n, hstarted, hstarted.calls_eq locations⟩
  · rintro outcomes rfl
    refine ⟨h.starts_eq_range, h.ends_perm_range, fun i outcome => h.mem_trace_iff,
      comesTo_settle h.length_outcomes, ?_⟩
    intro concurrency' trace' outcomes' h' hsame
    -- the outcomes can be read off the trace, and so they are the same
    have houtcomes : outcomes' = outcomes := by
      apply List.ext_getElem?
      intro i
      apply Option.ext
      intro outcome
      rw [← h'.mem_trace_iff, hsame, h.mem_trace_iff]
    rw [houtcomes]

/-- How three fetches may end, the first two of them of one location: with a text, with a refusal,
and with a failure that has no text. -/
def mixedEnds : List (Except Fault String) :=
  [.ok "||a.test^", .error (.refusal "list" "HTTP 500"), .error (.failure .value "")]

/-- Two at a time: the second fetch ends first and the first one last, and each has its own
result. -/
theorem fetches_bounded_ordered_once_mixed :
    ∃ trace, Schedule.Run (permits 2) (Schedule.initial ["list", "list", "other"]) trace
        (mixedEnds.map Task.finished) ∧
      (Schedule.ends trace).map Prod.fst = [1, 2, 0] ∧ Schedule.starts trace = [0, 1, 2] ∧
      settle (["list", "list", "other"].zip mixedEnds) = .ok
        [⟨"list", .ok "||a.test^"⟩, ⟨"list", .error "HTTP 500"⟩, ⟨"other", .error "ValueError"⟩] := by
  have hfirst : Schedule.Run (permits 2) (Schedule.initial ["list", "list", "other"])
      [.started 0] [.running, .waiting, .waiting] :=
    .step .refl (@Schedule.Step.start _ [] [.waiting, .waiting] nofun (by decide))
  have hsecond := hfirst.step
    (@Schedule.Step.start _ [.running] [.waiting] (by simp) (by decide))
  have hrefused := hsecond.step
    (@Schedule.Step.finish _ [.running] [.waiting] (.error (.refusal "list" "HTTP 500")))
  have hthird := hrefused.step
    (@Schedule.Step.start _ [.running, .finished (.error (.refusal "list" "HTTP 500"))] []
      (by simp) (by decide))
  have hfailed := hthird.step
    (@Schedule.Step.finish _ [.running, .finished _] [] (.error (.failure .value "")))
  have hread := hfailed.step
    (@Schedule.Step.finish _ [] [.finished _, .finished _] (.ok "||a.test^"))
  refine ⟨_, hread, rfl, ?_, ?_⟩
  · obtain ⟨-, -, -, -, hended⟩ := fetches_bounded_ordered_once hread
    exact (hended mixedEnds rfl).1
  · obtain ⟨-, -, -, -, hended⟩ := fetches_bounded_ordered_once hread
    obtain ⟨-, -, -, hcomes, -⟩ := hended mixedEnds rfl
    obtain ⟨results, hresults, htold⟩ := hcomes.told (by simp [mixedEnds])
    rw [hresults]
    -- each result is told by the end of its fetch
    cases htold with
    | cons hlist htold =>
      cases htold with
      | cons hrefusal htold =>
        cases htold with
        | cons hfailure htold =>
          cases htold
          cases hlist
          cases hrefusal
          cases hfailure with
          | failure _ htext => exact absurd rfl htext
          | wordless _ => rfl

end Blocklist
