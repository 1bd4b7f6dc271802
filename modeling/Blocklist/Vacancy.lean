/-!
# Vacant settings

A setting is vacant if it was set to nothing at all: its default is gone, and no other value has
come in its place. A vacant timeout does no harm, as nothing is reckoned with it; any other vacant
setting fails where it is put to use.

* `Vacancy` — a use that cannot be made of a vacant setting; `Vacancy.message` — the wording.
-/

namespace Blocklist

/-- A use that cannot be made of a vacant setting: a cap is compared with the least cap there may
be, and a concurrency with the least one; a source is looked up by its id; a destination is saved
at. -/
inductive Vacancy where
  | cap
  | concurrency
  | source
  | destination
deriving DecidableEq, Repr

/-- The wording of the failure. -/
def Vacancy.message : Vacancy → String
  | .cap => "'<' not supported between instances of 'list' and 'int'"
  | .concurrency => "'>' not supported between instances of 'int' and 'list'"
  | .source => "unhashable type: 'list'"
  | .destination => "expected str, bytes or os.PathLike object, not list"

end Blocklist
