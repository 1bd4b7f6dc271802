/-!
# What is printed

Lines of output, each for one of two streams.

* `Console` — the lines of a run, in order; `Console.standard` and `Console.errors` — what each
  stream shows of it.
-/

namespace Blocklist

/-- A line of output. -/
inductive Output where
  | standard (line : String)
  | error (line : String)
deriving DecidableEq, Repr

/-- The lines of a run. -/
abbrev Console := List Output

namespace Console

/-- What the standard stream shows. -/
def standard (c : Console) : String :=
  String.join (c.map fun
    | .standard line => line ++ "\n"
    | .error _ => "")

/-- What the error stream shows. -/
def errors (c : Console) : String :=
  String.join (c.map fun
    | .standard _ => ""
    | .error line => line ++ "\n")

end Console

end Blocklist
