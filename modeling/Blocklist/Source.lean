import Blocklist.Text.Quoted

/-!
# Sources

A source is a filter list that rules can come from. Sources stand in a registry, some of them
switched on.

* `registry` — the sources that come with the program;
* `enabledSources` — those of a registry that are on and whose lists can be read;
* `selectSources` — those of a registry that are asked for by id, switched on.
-/

namespace Blocklist

/-- A filter list that rules can come from. The priority is on record only: of two sources the
first in the registry wins. -/
structure Source where
  id : String
  name : String
  location : String
  priority : Int
  enabled : Bool
deriving DecidableEq, Repr

/-- The sources that come with the program. -/
def registry : List Source :=
  [⟨"easyprivacy", "EasyPrivacy", "https://easylist.to/easylist/easyprivacy.txt", 1, true⟩,
    ⟨"easylist", "EasyList", "https://easylist.to/easylist/easylist.txt", 2, false⟩]

/-- The ids of the sources whose lists can be read. -/
def knownIds : List String := ["easylist", "easyprivacy"]

/-- Whether the list of a source can be read. -/
def Source.isKnown (s : Source) : Bool := knownIds.contains s.id

/-- **The sources to fetch**, in their order. -/
def enabledSources (sources : List Source) : List Source :=
  sources.filter fun s => s.enabled && s.isKnown

/-- The sources that are on although their lists cannot be read. -/
def unknownSources (sources : List Source) : List Source :=
  sources.filter fun s => s.enabled && !s.isKnown

/-- Ids that are in no registry. -/
structure UnknownIds where
  ids : List String
deriving DecidableEq, Repr

/-- The wording of the error. -/
def UnknownIds.message (e : UnknownIds) : String :=
  "Unknown source id(s): " ++ ", ".intercalate e.ids

/-- **The sources asked for by id**, in the order of the registry, and all of them on. -/
def selectSources (ids : List String) (sources : List Source) :
    Except UnknownIds (List Source) :=
  let unknown := ids.filter fun id => !(sources.map Source.id).contains id
  if unknown.isEmpty then
    .ok ((sources.filter fun s => ids.contains s.id).map fun s => { s with enabled := true })
  else .error ⟨unknown⟩

end Blocklist
