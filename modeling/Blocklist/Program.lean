import Blocklist.Build
import Blocklist.Options
import Blocklist.Text.Tenths

/-!
# The program

A run of the program from its command line on: what it prints, the files it leaves behind, and how
it ends.

* `Host` — what a run finds: pages and files, the time, and how long the run will have taken;
* `run` — the run;
* `summary` — the counts of a build, laid out for reading.
-/

namespace Blocklist

/-- What a run finds. -/
structure Host where
  reach : Reach := {}
  clock : Moment
  process : Nat
  elapsedMillis : Int := 0

/-- How a run ends: it returns a code, it exits with one or breaks off before it has begun, or it is
cancelled. -/
inductive Ending where
  | returned (code : Nat)
  | exited (code : Nat)
  | brokenOff (v : Vacancy)
  | cancelled
deriving DecidableEq, Repr

/-- **A run.** The options are there unless the run ends before it has begun; the requests are those
for pages, over the connections of a session. -/
structure Run where
  place : Place
  console : Console
  ending : Ending
  options : Option Options := none
  requests : List Request := []
  connector : Option Connector := none

def column (n : Nat) : String := Text.padLeft 10 (Text.grouped n)

def ruler (c : Char) : String := String.ofList (List.replicate 60 c)

/-- **The counts of a build**, line by line. Failed sources and dropped rules are shown if there are
any. -/
def summary (s : BuildStats) (outputs : List String) : List String :=
  ["\n" ++ ruler '=', "📊 BUILD SUMMARY", ruler '=',
    s!"\n📁 Sources: {s.sourcesLoaded}/{s.sourcesEnabled} loaded"] ++
  (if s.sourcesFailed = 0 then [] else [s!"   Failed:  {s.sourcesFailed}"]) ++
  ["\n📈 Rules:",
    s!"   Parsed:             {column s.rulesParsed}",
    s!"   Cross-source dups:  {column s.duplicatePruned}"] ++
  (if s.capPruned = 0 then [] else [s!"   Over cap:           {column s.capPruned}"]) ++
  [s!"   Blocking rules:     {column s.blockingRules}",
    s!"   Network rules:      {column s.networkRules}",
    s!"\n🍪 CMP signatures:     {column s.signatures}",
    "\n📦 Output:"] ++
  outputs.map fun output => s!"   {output}"

def greeting : List String := ["🚀 Ghost Rejector Builder", ruler '-']

def farewell (elapsedMillis : Int) : List String :=
  [s!"\n⏱️  Total time: {Text.seconds elapsedMillis}s", "✅ Build completed successfully!"]

/-- What is printed after a failure; with details, it says where the failure came from. -/
def failureLines (verbose : Bool) (message : String) : List String :=
  s!"\n❌ ERROR: {message}" :: if verbose then ["Traceback (most recent call last):"] else []

/-- Why there are no sources for a run. -/
inductive SelectionError where
  | vacant (v : Vacancy)
  | unknown (e : UnknownIds)
deriving DecidableEq, Repr

def SelectionError.message : SelectionError → String
  | .vacant v => v.message
  | .unknown e => e.message

namespace Options

/-- The sources that options ask for: those of the registry by their ids, or else the given ones.
One vacant id among them counts before any that is unknown. -/
def sources (o : Options) (sources : List Source) : Except SelectionError (List Source) :=
  if o.sourceIds.isEmpty then .ok sources
  else match o.sourceIds.mapM id with
    | none => .error (.vacant .source)
    | some ids => (selectSources ids registry).mapError .unknown

/-- How a run with some options fetches. Without a number of fetches to run at once none is
begun. -/
def fetch (o : Options) (reach : Reach) (locations : List String) :
    Except Fault (List FetchResult) :=
  match o.concurrency with
  | none => .error (.failure .mismatch Vacancy.concurrency.message)
  | some _ => fetchEverything reach locations

/-- The requests of a run with some options that fetches some locations. -/
def requests (o : Options) (locations : List String) : List Request :=
  match o.concurrency with
  | none => []
  | some _ => Blocklist.requests o.timeout locations

/-- The connections of a run with some options that fetches some locations. -/
def connector? (o : Options) (locations : List String) : Option Connector :=
  o.concurrency.bind fun concurrency => Blocklist.connector? concurrency locations

/-- Where a run with some options saves: the rules and then the signatures. -/
def outputs (o : Options) : List String := o.rulesOut.toList ++ o.signaturesOut.toList

end Options

def runWith (host : Host) (sources : List Source) (o : Options) : Run :=
  let place := host.reach.place
  match o.sources sources with
  | .error e =>
    { place, ending := .returned 1, options := some o
      console := (failureLines o.verbose e.message).map .error }
  | .ok sources =>
    let recipe : Recipe := ⟨o.rulesOut, o.signaturesOut, sources, o.maxRules, host.clock⟩
    let (place, told) := build (o.fetch host.reach) place host.process recipe
    let begun := greeting.map .standard ++ told.console o.verbose
    let (ending, closing) : Ending × Console := match told.result with
      | .ok stats =>
        (.returned 0, (summary stats o.outputs ++ farewell host.elapsedMillis).map .standard)
      | .error e =>
        if e.isCancellation then (.cancelled, [])
        else (.returned 1, (failureLines o.verbose e.message).map .error)
    let locations := wanted sources
    { place, ending, options := some o, console := begun ++ closing
      requests := o.requests locations
      connector := o.connector? locations }

/-- **A run of the program** with the words of its command line. -/
def run (host : Host) (sources : List Source) (words : List String) : Run :=
  let place := host.reach.place
  match Options.read words with
  | .refused e => { place, ending := .exited 2, console := e.lines.map .error }
  | .help => { place, ending := .exited 0, console := help.map .standard }
  | .vacant v => { place, ending := .brokenOff v, console := [] }
  | .options o => runWith host sources o

end Blocklist
