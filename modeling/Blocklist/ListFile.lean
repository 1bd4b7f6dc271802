import Blocklist.FileTree
import Blocklist.Parse
import Blocklist.Text.Utf8

/-!
# Rules from a file

A list on disk is read as it streams in: its lines keep the line feeds that end them, and a file
that ends within its byte order mark has no lines.

* `parseFile` — the rules of a file, or why there are none: a file that cannot be opened comes
  before a cap that is not positive.
-/

namespace Blocklist

/-- Why a file gives no rules. -/
inductive ListFileError where
  | nulInPath
  | unreadable (path : String) (fault : FileFault)
  | parse (error : ParseError)
deriving DecidableEq, Repr

def ListFileError.message : ListFileError → String
  | .nulInPath => "embedded null byte"
  | .unreadable path fault => s!"[Errno {fault.number}] {fault.message}: {Text.quoted path}"
  | .parse error => error.message

/-- **The rules of a file** under a cap. -/
def parseFile (place : Place) (path : String) (cap : Int) : Except ListFileError Parsed :=
  if Path.holdsNul path then .error .nulInPath
  else match place.readFile path with
    | .error fault => .error (.unreadable path fault)
    | .ok content => (parse (Text.keepLines (Text.Utf8.decodeFile content)) cap).mapError .parse

end Blocklist
