import Blocklist.Fetch

/-!
# Fetching side by side

How the fetches of many locations go on at the same time. A number of permits is shared by all of
them. A fetch waits for a permit, holds it while it runs, and gives it back when it has a text or
has failed. Permits are handed out in the order of the locations; which of the running fetches ends
next is open.

* `Task` — how far one fetch has come; `Event` — what happens next;
* `Schedule.Step` — one event under a number of permits; `Schedule.Run` — any number of them, with
  their trace;
* `Fetched` — what the fetches of some locations come to, by some run to the end;
  `FetchedEverything` — the same with the fetcher for pages and files.
-/

namespace Blocklist

/-- How far one fetch has come. -/
inductive Task where
  | waiting
  | running
  | finished (outcome : Except Fault String)

/-- Whether a fetch holds a permit. -/
def Task.isRunning : Task → Bool
  | .running => true
  | .waiting | .finished _ => false

/-- What happens to the fetch at an index. -/
inductive Event where
  | started (index : Nat)
  | finished (index : Nat) (outcome : Except Fault String)

namespace Schedule

/-- **One event.** The first fetch that waits starts, if a permit is free; a fetch that runs
ends. -/
inductive Step (permits : Nat) : List Task → Event → List Task → Prop where
  | start {front back : List Task} :
    (∀ task ∈ front, task ≠ .waiting) →
    (front ++ .waiting :: back).countP Task.isRunning < permits →
    Step permits (front ++ .waiting :: back) (.started front.length) (front ++ .running :: back)
  | finish {front back : List Task} (outcome : Except Fault String) :
    Step permits (front ++ .running :: back) (.finished front.length outcome)
      (front ++ .finished outcome :: back)

/-- **Any number of events**, in their order, from a beginning. -/
inductive Run (permits : Nat) (start : List Task) : List Event → List Task → Prop where
  | refl : Run permits start [] start
  | step {trace : List Event} {event : Event} {tasks tasks' : List Task} :
    Run permits start trace tasks → Step permits tasks event tasks' →
    Run permits start (trace ++ [event]) tasks'

/-- Before anything has happened, all fetches wait. -/
def initial (locations : List String) : List Task := locations.map fun _ => .waiting

/-- Whether every fetch that has ended in a trace has come to what a fetcher gives. -/
def Answers (fetch : Fetcher) (locations : List String) (trace : List Event) : Prop :=
  ∀ index outcome, .finished index outcome ∈ trace →
    locations[index]?.map fetch = some outcome

end Schedule

/-- **What the fetches of some locations come to** if a number of them may run at once: they are
waited for until all have ended, in whatever order that is. -/
def Fetched (concurrency : Int) (fetch : Fetcher) (locations : List String)
    (result : Except Fault (List FetchResult)) : Prop :=
  ∃ trace outcomes,
    Schedule.Run (permits concurrency) (Schedule.initial locations) trace
      (outcomes.map Task.finished) ∧
    Schedule.Answers fetch locations trace ∧
    result = settle (locations.zip outcomes)

/-- **What some pages and files come to** if a number of fetches may run at once. No fetch starts
before it is known whether a page is among them. -/
def FetchedEverything (concurrency : Int) (reach : Reach) (locations : List String)
    (result : Except Fault (List FetchResult)) : Prop :=
  match anyHttp locations with
  | .error e => result = .error (.ofLocation e)
  | .ok session => Fetched concurrency (fetchLocation reach session) locations result

end Blocklist
