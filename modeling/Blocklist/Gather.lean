import Blocklist.Fetch
import Blocklist.Notice

/-!
# Gathering rules from sources

Every enabled source is fetched, parsed and merged with the others. Parsing starts when all fetches
are through. A source that cannot be fetched is reported and left out; there is an error only if no
source at all gives rules.

* `gather` — the merged rules of a registry, with a report for each source that was fetched;
* `wanted` — the locations that are fetched; `load` — what one fetched source gives;
* `mergeLoaded` — the merge of what was loaded.
-/

namespace Blocklist

/-- Why no rules were gathered. -/
inductive GatherError where
  | fetch (fault : Fault)
  | parse (error : ParseError)
  | noSources
  | allFailed (reasons : List (String × String))
deriving DecidableEq, Repr

def GatherError.message : GatherError → String
  | .fetch fault => fault.message
  | .parse error => error.message
  | .noSources => "No enabled filter list sources configured"
  | .allFailed reasons =>
    let told := reasons.map fun (name, reason) => name ++ " (" ++ reason ++ ")"
    "Could not load any filter list source: " ++ ", ".intercalate told

/-- **What became of one source**: what was counted in its list, or why it was not fetched. -/
structure SourceReport where
  source : Source
  outcome : Except String ParseCounts

namespace SourceReport

/-- Whether the source was loaded. -/
def ok (r : SourceReport) : Bool := r.outcome.isOk

/-- How many rules the source gave. -/
def rules (r : SourceReport) : Nat :=
  match r.outcome with
  | .ok counts => counts.rulesEmitted
  | .error _ => 0

/-- Why the source was not fetched. -/
def reason? (r : SourceReport) : Option String :=
  match r.outcome with
  | .ok _ => none
  | .error reason => some reason

end SourceReport

/-- The rules of a loaded source, and the report on it. -/
structure Loaded where
  report : SourceReport
  rules? : Option (List NetworkRule)

/-- The merged rules of some sources, and the reports on them. -/
structure Gathered where
  rules : List NetworkRule
  counts : MergeCounts
  reports : List SourceReport

/-- **What one fetched source gives** under a cap. -/
def load (cap : Int) (source : Source) (result : FetchResult) : Told ParseError Loaded := do
  Told.tell (.source source)
  match result.outcome with
  | .error reason =>
    Told.tell (.notFetched source reason)
    pure ⟨⟨source, .error reason⟩, none⟩
  | .ok text =>
    let parsed ← Told.ofExcept (parse (Text.splitLines text) cap)
    Told.tell (.parsed parsed.counts cap)
    pure ⟨⟨source, .ok parsed.counts⟩, some parsed.rules⟩

/-- What all the fetched sources give, one after the other. -/
def loadAll (cap : Int) : List (Source × FetchResult) → Told ParseError (List Loaded)
  | [] => pure []
  | (source, result) :: rest => do
    let first ← load cap source result
    let others ← loadAll cap rest
    pure (first :: others)

/-- The merge of what was loaded; there is something to merge as soon as one source was loaded. -/
def mergeLoaded (cap : Int) (loaded : List Loaded) : Told GatherError Gathered := do
  let reports := loaded.map Loaded.report
  let sets := loaded.filterMap Loaded.rules?
  if sets.isEmpty then
    Told.ofExcept <| .error <|
      if loaded.isEmpty then .noSources
      else .allFailed (reports.filterMap fun r => r.reason?.map fun told => (r.source.name, told))
  else
    Told.tell .merging
    let merged := merge sets cap
    Told.tell (.merged merged.counts cap)
    pure ⟨merged.rules, merged.counts, reports⟩

/-- The locations that are fetched for a registry, in order. -/
def wanted (sources : List Source) : List String := (enabledSources sources).map Source.location

/-- The rules of a registry, once what is wanted for it has been fetched. -/
def gatherFetched (sources : List Source) (cap : Int)
    (fetched : Except Fault (List FetchResult)) : Told GatherError Gathered := do
  Told.tellAll ((unknownSources sources).map .unknownSource)
  let results ← Told.ofExcept (fetched.mapError .fetch)
  let loaded ← (loadAll cap ((enabledSources sources).zip results)).mapError .parse
  mergeLoaded cap loaded

/-- **The rules of a registry** under a cap, by a function that fetches many locations. -/
def gather (fetch : List String → Except Fault (List FetchResult)) (sources : List Source)
    (cap : Int) : Told GatherError Gathered :=
  gatherFetched sources cap (fetch (wanted sources))

end Blocklist
