import Blocklist.Text.Fields

/-!
# Paths

How files are named. A path is a list of names from a directory down to a file or directory; it
starts at the top or in the working directory.

* `Path.ofString` — the path that a text spells, in its shortest spelling: repeated slashes, single
  points and a slash at the end are dropped, and `..` and two slashes at the start are kept;
* `Path.text` — the spelling; `Path.parent`, `Path.name?`, `Path.sibling` — its parts.
-/

namespace Blocklist

/-- Where a path starts: in the working directory, or at the top. Two slashes, and no more of them,
are a second spelling of the top, which is kept apart from the first. -/
inductive Root where
  | here
  | top
  | secondTop
deriving DecidableEq, Repr

namespace Root

/-- How a path with this start begins. -/
def text : Root → String
  | .here => ""
  | .top => "/"
  | .secondTop => "//"

/-- Where a text that spells a path starts. -/
def ofChars (cs : List Char) : Root :=
  match (cs.takeWhile (· == '/')).length with
  | 0 => .here
  | 2 => .secondTop
  | _ => .top

end Root

/-- A path in its shortest spelling. -/
structure Path where
  root : Root
  names : List String
deriving DecidableEq, Repr

namespace Path

/-- The path that a text spells. -/
def ofString (s : String) : Path :=
  let parts := (Text.fields '/' s.toList).filter fun part => part ≠ [] ∧ part ≠ ['.']
  ⟨.ofChars s.toList, parts.map String.ofList⟩

/-- The spelling of a path. -/
def text (p : Path) : String :=
  if p.root = .here ∧ p.names = [] then "." else p.root.text ++ "/".intercalate p.names

-- Of slashes at the start, two alone stay two.
example : ["", "/", "//", "///", "//./a//b/"].map (fun s => (ofString s).text) =
    [".", "/", "//", "/", "//a/b"] := by
  decide +kernel

/-- The last name of a path. -/
def name? (p : Path) : Option String := p.names.getLast?

/-- The path without its last name. -/
def parent (p : Path) : Path := { p with names := p.names.dropLast }

/-- The path with another last name. -/
def sibling (p : Path) (name : String) : Path := { p with names := p.names.dropLast ++ [name] }

/-- Whether a text holds a NUL, which no file name can. -/
def holdsNul (s : String) : Bool := s.toList.contains '\x00'

/-- The longest spelling, in bytes, that the system takes, and one more. -/
def byteLimit : Nat := 4096

/-- The longest name in bytes. -/
def nameLimit : Nat := 255

/-- The names that a spelling leads through as it stands. A slash at the end asks for a directory,
which a single point stands for. -/
def steps (s : String) : List String :=
  let cs := s.toList
  let parts := ((Text.fields '/' cs).filter (· ≠ [])).map String.ofList
  if cs.getLast? = some '/' then parts ++ ["."] else parts

end Path

end Blocklist
