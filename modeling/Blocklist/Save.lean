import Blocklist.FileTree
import Blocklist.Json
import Blocklist.Text.Quoted

/-!
# Saving

A JSON value is saved in one piece or not at all: its text goes to a file beside the destination,
which then takes the destination's place. If the system refuses a part of that, the file is removed
again; it is not if the text has no bytes.

* `save` — saves a value at a path, and makes the directories that the path leads through;
* `SaveError` — why a value was not saved.
-/

namespace Blocklist

/-- Why a value was not saved. -/
inductive SaveError where
  | noName (path : Path)
  | noText (error : JsonError)
  | nulInPath
  | notWritten (path : Path) (fault : FileFault)
  | notEncoded (error : Text.Unencodable)
deriving DecidableEq, Repr

def SaveError.message : SaveError → String
  | .noName path => s!"PosixPath({Text.quoted path.text}) has an empty name"
  | .noText error => error.message
  | .nulInPath => "embedded null byte"
  | .notWritten path fault => s!"Could not write {path.text}: {fault.message}"
  | .notEncoded error => error.message

/-- What saving leaves behind, and the path of the saved file. -/
abbrev Saved := Place × Except SaveError Path

namespace Save

/-- The file that a text goes to first. Its name holds the number of the process, so that two that
save at once do not meet. -/
def temporary (process : Nat) (p : Path) (name : String) : Path :=
  p.sibling s!"{name}.{process}.tmp"

/-- Gives up after a fault: what is left of the temporary file is removed. -/
def giveUp (w : Place) (temp p : Path) (fault : FileFault) : Saved :=
  ((w.removeFile temp).toOption.getD w, .error (.notWritten p fault))

/-- Writes the temporary file and moves it to the destination. -/
def replace (w : Place) (temp p : Path) (content : ByteArray) : Saved :=
  match w.writeFile temp content with
  | .error fault => giveUp w temp p fault
  | .ok written =>
    match written.renameFile temp p with
    | .error fault => giveUp written temp p fault
    | .ok moved => (moved, .ok p)

/-- Opens the temporary file, and goes on from there if the text for it has bytes. That it has none
is no fault of the system, so nothing is given up for it: the file stays as it was opened. -/
def draft (w : Place) (temp p : Path) (content : String) : Saved :=
  match w.codec.encode content with
  | .ok bytes => replace w temp p bytes
  | .error e =>
    match w.writeFile temp .empty with
    | .error fault => giveUp w temp p fault
    | .ok opened => (opened, .error (.notEncoded e))

/-- Makes the directories that a path leads through, and writes its file. -/
def lay (w : Place) (process : Nat) (p : Path) (name content : String) : Saved :=
  if Path.holdsNul p.parent.text then (w, .error .nulInPath)
  else
    let temp := temporary process p name
    match w.makeDirectories p.parent with
    | (w', made) =>
      if Path.holdsNul name then (w', .error .nulInPath)
      else match made with
        | .error fault => giveUp w' temp p fault
        | .ok () => draft w' temp p content

end Save

/-- **Saves a value** at a path. Nothing is touched before the value has a text. -/
def save (w : Place) (process : Nat) (path : String) (value : Json) : Saved :=
  let p := Path.ofString path
  match p.name?, value.text with
  | none, _ => (w, .error (.noName p))
  | some _, .error e => (w, .error (.noText e))
  | some name, .ok content => Save.lay w process p name content

end Blocklist
