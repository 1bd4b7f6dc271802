import Blocklist.Console
import Blocklist.Merge
import Blocklist.Parse
import Blocklist.Source
import Blocklist.Text.Grouped

/-!
# Notices

What a build tells while it is under way. A notice says what happened; how it is worded, and whether
details are shown, is settled when it is printed.

* `Notice` — what there is to tell; `Notice.lines` — the wording;
* `Told` — a computation that tells notices and ends in a value or an error; whatever was told
  before an error stays told.
-/

namespace Blocklist

/-- The stages of a build. -/
inductive Stage where
  | fetching
  | headerRule
  | signatures
  | saving
deriving DecidableEq, Repr

/-- What there is to tell. -/
inductive Notice where
  | unknownSource (source : Source)
  | source (source : Source)
  | notFetched (source : Source) (reason : String)
  | parsed (counts : ParseCounts) (cap : Int)
  | merging
  | merged (counts : MergeCounts) (cap : Int)
  | stage (stage : Stage)
  | blocking (rules : Nat)
deriving DecidableEq, Repr

namespace Notice

/-- A line that is shown only if there is something to count. -/
def countLine (n : Nat) (line : String) : Console :=
  if n = 0 then [] else [.standard line]

/-- The heading of a stage. -/
def heading : Stage → String
  | .fetching => "📥 [1/4] Fetching filter lists..."
  | .headerRule => "🛡️  [2/4] Adding GPC header rule..."
  | .signatures => "🍪 [3/4] Generating CMP signatures..."
  | .saving => "💾 [4/4] Saving files..."

/-- The details of a list. -/
def details (c : ParseCounts) (cap : Int) : Console :=
  let number (n : Nat) := Text.grouped n
  .standard s!"   Lines read: {number c.linesRead}, skipped: {number c.skipped.total}" ::
    (countLine c.duplicatePruned s!"   Duplicates skipped: {number c.duplicatePruned}" ++
      if c.capped then [.standard s!"   Stopped at the {Text.grouped cap} rule cap"] else [])

/-- **The wording of a notice**, with details or without. -/
def lines (verbose : Bool) : Notice → Console
  | .unknownSource s =>
    [.error s!"Warning: Unknown source {Text.quoted s.id} ({s.name}), skipping"]
  | .source s => [.standard s!"\n[Source: {s.name}]"]
  | .notFetched s reason =>
    [.error s!"Warning: Could not fetch {s.name} ({s.location}): {reason}"]
  | .parsed c cap =>
    .standard s!"   Parsed {Text.grouped c.rulesEmitted} blocking rules" ::
      if verbose then details c cap else []
  | .merging => [.standard "\n[Merging sources]"]
  | .merged c cap =>
    countLine c.duplicatePruned
        s!"   Removed {Text.grouped c.duplicatePruned} duplicates across sources" ++
      countLine c.capPruned
        s!"   Dropped {Text.grouped c.capPruned} rules over the {Text.grouped cap} rule cap"
  | .stage s => [.standard (heading s)]
  | .blocking n => [.standard s!"   Merged {Text.grouped n} blocking rules"]

end Notice

/-! ### Computations that tell -/

/-- Notices, and a value or an error after them. -/
structure Told (ε α : Type) where
  notices : List Notice
  result : Except ε α

namespace Told

variable {ε ε' α β : Type}

def tell (n : Notice) : Told ε Unit := ⟨[n], .ok ()⟩

def tellAll (ns : List Notice) : Told ε Unit := ⟨ns, .ok ()⟩

/-- Ends with what is at hand. -/
def ofExcept (x : Except ε α) : Told ε α := ⟨[], x⟩

/-- Goes on with the value of the first; after an error nothing more is told. -/
def bind (x : Told ε α) (f : α → Told ε β) : Told ε β :=
  match x.result with
  | .error e => ⟨x.notices, .error e⟩
  | .ok a =>
    let y := f a
    ⟨x.notices ++ y.notices, y.result⟩

instance : Monad (Told ε) where
  pure a := ⟨[], .ok a⟩
  bind := bind

def mapError (f : ε → ε') (x : Told ε α) : Told ε' α := ⟨x.notices, x.result.mapError f⟩

def console (verbose : Bool) (x : Told ε α) : Console :=
  x.notices.flatMap (Notice.lines verbose)

@[simp] theorem result_pure (a : α) : (pure a : Told ε α).result = .ok a := rfl

@[simp] theorem result_tell (n : Notice) : (tell n : Told ε Unit).result = .ok () := rfl

@[simp] theorem result_tellAll (ns : List Notice) :
    (tellAll ns : Told ε Unit).result = .ok () := rfl

@[simp] theorem result_ofExcept (x : Except ε α) : (ofExcept x).result = x := rfl

@[simp] theorem result_mapError (f : ε → ε') (x : Told ε α) :
    (x.mapError f).result = x.result.mapError f := rfl

@[simp] theorem result_bind (x : Told ε α) (f : α → Told ε β) :
    (x >>= f).result = x.result >>= fun a => (f a).result := by
  obtain ⟨ns, r⟩ := x
  cases r <;> rfl

theorem notices_bind_of_ok {x : Told ε α} {a : α} (h : x.result = .ok a) (f : α → Told ε β) :
    (x >>= f).notices = x.notices ++ (f a).notices := by
  obtain ⟨ns, r⟩ := x
  subst h
  rfl

theorem notices_bind_of_error {x : Told ε α} {e : ε} (h : x.result = .error e)
    (f : α → Told ε β) : (x >>= f).notices = x.notices := by
  obtain ⟨ns, r⟩ := x
  subst h
  rfl

end Told

end Blocklist
