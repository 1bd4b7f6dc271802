import Blocklist.Line
import Blocklist.Rule
import Blocklist.Text.Lines
import Std.Data.HashSet

/-!
# Rules from the lines of a list

Lines are read in order from a supply that may fail. Each domain gets one rule, where it first
stands, and the rules are numbered from one. Reading stops with the rule that fills the cap: the
line after it is not asked for.

* `Supply` — lines that come one at a time;
* `Parse.State.read` — what one line does; `parseSupply` — what a whole supply gives, with the part
  of it that was not asked for;
* `parse` — the same of lines that are all there;
* `Tally` — how many lines were skipped, by reason.
-/

namespace Blocklist

/-! ### Tallies -/

/-- Counts by reason, in the order in which reasons first came up. -/
structure Tally where
  entries : List (SkipReason × Nat) := []
deriving DecidableEq, Repr

namespace Tally

/-- Counts one more of a reason. -/
def bump (reason : SkipReason) : List (SkipReason × Nat) → List (SkipReason × Nat)
  | [] => [(reason, 1)]
  | (r, n) :: rest => if r = reason then (r, n + 1) :: rest else (r, n) :: bump reason rest

/-- The tally with one more of a reason. -/
def add (t : Tally) (reason : SkipReason) : Tally :=
  ⟨bump reason t.entries⟩

/-- How many there are of a reason. -/
def count (t : Tally) (reason : SkipReason) : Nat :=
  (t.entries.lookup reason).getD 0

/-- How many there are of all reasons. -/
def total (t : Tally) : Nat :=
  t.entries.foldr (fun e n => e.2 + n) 0

theorem count_add (t : Tally) (r r' : SkipReason) :
    (t.add r).count r' = t.count r' + if r' = r then 1 else 0 := by
  obtain ⟨entries⟩ := t
  simp only [add, count]
  induction entries with
  | nil => by_cases h : r' = r <;> simp [bump, List.lookup_cons, h, beq_eq_false_iff_ne.2]
  | cons e rest ih =>
    obtain ⟨s, n⟩ := e
    by_cases hs : s = r
    · by_cases h : r' = r
      · simp [bump, hs, h]
      · simp [bump, List.lookup_cons, hs, h, beq_eq_false_iff_ne.2 h]
    · by_cases h : r' = s
      · subst h
        simp [bump, hs]
      · simp [bump, List.lookup_cons, hs, beq_eq_false_iff_ne.2 h, ih]

theorem total_add (t : Tally) (r : SkipReason) : (t.add r).total = t.total + 1 := by
  obtain ⟨entries⟩ := t
  simp only [add, total]
  induction entries with
  | nil => rfl
  | cons e rest ih =>
    obtain ⟨s, n⟩ := e
    by_cases hs : s = r
    · simp [bump, hs]; omega
    · simp [bump, hs, ih]; omega

end Tally

/-! ### Supplies -/

/-- Why a supply of lines broke off. -/
structure ReadFailure where
  text : String
deriving DecidableEq, Repr

/-- **A supply of lines**, asked one at a time: at each place stands a line, or what happens to
whoever asks for it. -/
abbrev Supply := List (Except ReadFailure String)

/-- The supply that has the given lines and never fails. -/
def Supply.ofLines (lines : List String) : Supply := lines.map .ok

/-- The supply of the given lines that fails at place `n`, if there is a line at that place. -/
def Supply.failingAt (n : Nat) (failure : ReadFailure) (lines : List String) : Supply :=
  lines.mapIdx fun i line => if i = n then .error failure else .ok line

/-- Why lines give no rules. -/
inductive ParseError where
  | capNotPositive (cap : Int)
  | broken (failure : ReadFailure)
deriving DecidableEq, Repr

def ParseError.message : ParseError → String
  | .capNotPositive cap => s!"max_rules must be positive, got {cap}"
  | .broken failure => failure.text

/-! ### Parsing -/

/-- What is counted while a list is read. -/
structure ParseCounts where
  linesRead : Nat := 0
  rulesEmitted : Nat := 0
  duplicatePruned : Nat := 0
  capped : Bool := false
  skipped : Tally := {}
deriving DecidableEq, Repr

/-- The rules of a list, and what was counted. -/
structure Parsed where
  rules : List NetworkRule
  counts : ParseCounts
deriving DecidableEq, Repr

namespace Parse

/-- What reading has come to: the rules so far and the domains they block. -/
structure State where
  rules : Array NetworkRule := #[]
  seen : Std.HashSet String := {}
  linesRead : Nat := 0
  duplicates : Nat := 0
  skipped : Tally := {}

/-- **One line.** A domain that is not yet blocked gets the next id. -/
def State.read (s : State) (line : String) : State :=
  let s := { s with linesRead := s.linesRead + 1 }
  match Line.read line with
  | .skipped reason => { s with skipped := s.skipped.add reason }
  | .blocks domain =>
    if s.seen.contains domain then { s with duplicates := s.duplicates + 1 }
    else
      { s with
        rules := s.rules.push (.block (s.rules.size + 1) domain)
        seen := s.seen.insert domain }

/-- What has been read, and whether the cap ended it. -/
def State.result (s : State) (capped : Bool) : Parsed :=
  ⟨s.rules.toList, ⟨s.linesRead, s.rules.size, s.duplicates, capped, s.skipped⟩⟩

/-- Reads on until the cap is full or the supply ends or fails. -/
def State.run (cap : Nat) (s : State) : Supply → Except ReadFailure (Parsed × Supply)
  | [] => .ok (s.result false, [])
  | .error failure :: _ => .error failure
  | .ok line :: rest =>
    let s := s.read line
    if cap ≤ s.rules.size then .ok (s.result true, rest) else s.run cap rest

end Parse

/-- **The rules of a supply of lines** under a cap, with what is left of the supply. -/
def parseSupply (supply : Supply) (cap : Int) : Except ParseError (Parsed × Supply) :=
  if cap < 1 then .error (.capNotPositive cap)
  else (Parse.State.run cap.toNat {} supply).mapError .broken

/-- **The rules of some lines** under a cap. -/
def parse (lines : List String) (cap : Int) : Except ParseError Parsed :=
  (parseSupply (.ofLines lines) cap).map (·.1)

end Blocklist
