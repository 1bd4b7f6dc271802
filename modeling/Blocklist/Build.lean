import Blocklist.Gather
import Blocklist.Save
import Blocklist.Signature
import Blocklist.Vacancy

/-!
# Building

A build makes the two files of the extension: it gathers the blocking rules, puts the privacy signal
behind them, makes the signatures, and saves rules and signatures. Nothing is saved before all of it
is made.

* `Recipe` — what a build is asked for;
* `prepare` — everything that is to be saved;
* `build` — a whole build: the files it leaves behind, what it tells, and its `BuildStats`.
-/

namespace Blocklist

/-- Why a build fails. -/
inductive BuildError where
  | gather (error : GatherError)
  | rule (error : RuleError)
  | moment (error : MomentError)
  | save (error : SaveError)
  | vacant (use : Vacancy)
deriving DecidableEq, Repr

namespace BuildError

def message : BuildError → String
  | .gather error => error.message
  | .rule error => error.message
  | .moment error => error.message
  | .save error => error.message
  | .vacant use => use.message

/-- Whether a build did not fail but was cancelled. -/
def isCancellation (e : BuildError) : Bool :=
  e == .gather (.fetch .cancelled)

end BuildError

/-- What is counted in a build. -/
structure BuildStats where
  sourcesEnabled : Nat
  sourcesLoaded : Nat
  sourcesFailed : Nat
  rulesParsed : Nat
  duplicatePruned : Nat
  capPruned : Nat
  blockingRules : Nat
  networkRules : Nat
  signatures : Nat
deriving DecidableEq, Repr

/-- What a build is asked for: where to save, unless that is vacant, which sources to use under
which cap, and the moment of the signatures. -/
structure Recipe where
  rulesOut : Option String
  signaturesOut : Option String
  sources : List Source
  cap : Int
  now : Moment

/-- What a build has made and is about to save. -/
structure Prepared where
  rules : List NetworkRule
  signatures : List Signature
  stats : BuildStats

/-- The counts of a build that has gathered some rules and made the rest. -/
def Gathered.stats (g : Gathered) (rules : List NetworkRule) (signatures : List Signature) :
    BuildStats :=
  let loaded := g.reports.countP SourceReport.ok
  { sourcesEnabled := g.reports.length
    sourcesLoaded := loaded
    sourcesFailed := g.reports.length - loaded
    rulesParsed := g.counts.totalInput
    duplicatePruned := g.counts.duplicatePruned
    capPruned := g.counts.capPruned
    blockingRules := g.rules.length
    networkRules := rules.length
    signatures := signatures.length }

/-- **Everything that a build saves**, by a function that fetches many locations. -/
def prepare (fetch : List String → Except Fault (List FetchResult)) (r : Recipe) :
    Told BuildError Prepared := do
  Told.tell (.stage .fetching)
  let gathered ← (gather fetch r.sources r.cap).mapError .gather
  Told.tell (.blocking gathered.rules.length)
  Told.tell (.stage .headerRule)
  let signal ← Told.ofExcept ((NetworkRule.privacySignal r.cap).mapError .rule)
  let rules := gathered.rules ++ [signal]
  Told.tell (.stage .signatures)
  let signatures ← Told.ofExcept ((signatures r.now).mapError .moment)
  pure ⟨rules, signatures, gathered.stats rules signatures⟩

/-- What a build leaves behind: the files, and what it tells. -/
abbrev Built := Place × Told BuildError BuildStats

/-- Saves a value at a destination that may be vacant. -/
def saveAt (place : Place) (process : Nat) (destination : Option String) (value : Json) :
    Place × Except BuildError Unit :=
  match destination with
  | none => (place, .error (.vacant .destination))
  | some path =>
    let (place, saved) := save place process path value
    (place, (saved.mapError .save).map fun _ => ())

/-- Saves what was made: the rules and then, if that went well, the signatures. -/
def saveAll (place : Place) (process : Nat) (r : Recipe) (made : Prepared) :
    Place × Except BuildError Unit :=
  match saveAt place process r.rulesOut (ruleFile made.rules) with
  | (place, .error e) => (place, .error e)
  | (place, .ok ()) => saveAt place process r.signaturesOut (signatureFile made.signatures)

/-- **A build**, by a function that fetches many locations, in a process with a number. -/
def build (fetch : List String → Except Fault (List FetchResult)) (place : Place) (process : Nat)
    (r : Recipe) : Built :=
  let prepared := prepare fetch r
  match prepared.result with
  | .error e => (place, ⟨prepared.notices, .error e⟩)
  | .ok made =>
    let (place, saved) := saveAll place process r made
    (place, ⟨prepared.notices ++ [.stage .saving], saved.map fun _ => made.stats⟩)

end Blocklist
