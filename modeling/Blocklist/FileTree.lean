import Blocklist.Path
import Blocklist.Text.Encode

/-!
# File trees

A directory with all that is in it, and what the system does with files in it.

* `FileTree` — the entries by their names from the top; `get?`, `insert` and `erase` with the
  equations between them;
* `Place` — a tree, the working directory in it, from where paths lead, and the codec of its files;
* `readFile`, `makeDirectory`, `makeDirectories`, `writeFile`, `renameFile`, `removeFile` — one
  operation of the system each, with its `FileFault`.
-/

namespace Blocklist

/-- Why the system refuses an operation. -/
inductive FileFault where
  | missing
  | alreadyThere
  | notDirectory
  | isDirectory
  | busy
  | nameTooLong
deriving DecidableEq, Repr

namespace FileFault

def message : FileFault → String
  | .missing => "No such file or directory"
  | .alreadyThere => "File exists"
  | .notDirectory => "Not a directory"
  | .isDirectory => "Is a directory"
  | .busy => "Device or resource busy"
  | .nameTooLong => "File name too long"

def number : FileFault → Nat
  | .missing => 2
  | .busy => 16
  | .alreadyThere => 17
  | .notDirectory => 20
  | .isDirectory => 21
  | .nameTooLong => 36

end FileFault

/-- What stands at a path. -/
inductive Entry where
  | directory
  | file (content : ByteArray)

instance : DecidableEq Entry
  | .directory, .directory => isTrue rfl
  | .directory, .file _ | .file _, .directory => isFalse nofun
  | .file content, .file content' =>
    @decidable_of_decidable_of_iff _ _ (ByteArray.instDecidableEq content content')
      ⟨congrArg Entry.file, Entry.file.inj⟩

/-- **A file tree**: its entries by their names from the top. The top itself is a directory. -/
structure FileTree where
  entries : List (List String × Entry) := []

namespace FileTree

/-- What stands at the end of some names from the top. -/
def get? (t : FileTree) (path : List String) : Option Entry :=
  if path = [] then some .directory else t.entries.lookup path

/-- The tree without what stands at a path. -/
def erase (t : FileTree) (path : List String) : FileTree :=
  ⟨t.entries.filter fun e => e.1 != path⟩

/-- The tree with an entry at a path, in place of what stands there. -/
def insert (t : FileTree) (path : List String) (entry : Entry) : FileTree :=
  ⟨(path, entry) :: (t.erase path).entries⟩

/-- **What is left after an erasure**: nothing at the path, and what was there elsewhere. The top is
never lost, as it stands in no list. -/
theorem get?_erase (t : FileTree) (p q : List String) :
    (t.erase p).get? q = if q = p ∧ p ≠ [] then none else t.get? q := by
  obtain ⟨entries⟩ := t
  by_cases hq : q = []
  · subst hq
    by_cases hp : p = [] <;> simp [get?, hp, eq_comm]
  · simp only [get?, erase, hq, if_false]
    by_cases h : q = p
    · -- every entry at the path is filtered out, not only the first, which a lookup would find
      subst h
      simp only [ne_eq, hq, not_false_eq_true, and_self, if_true]
      induction entries with
      | nil => rfl
      | cons e es ih =>
        by_cases he : e.1 = q
        · simpa [he] using ih
        · have : (q == e.1) = false := by simpa using Ne.symm he
          simp only [List.filter_cons, bne_iff_ne, ne_eq, he, not_false_eq_true, if_true]
          obtain ⟨k, v⟩ := e
          simp only [List.lookup_cons, this]
          exact ih
    · -- what is filtered out here, a lookup of another path passes over as well
      simp only [h, false_and, if_false]
      induction entries with
      | nil => rfl
      | cons e es ih =>
        obtain ⟨k, v⟩ := e
        by_cases hk : k = p
        · have : (q == k) = false := by simpa [hk] using h
          simp only [List.filter_cons, hk, bne_self_eq_false, Bool.false_eq_true, if_false,
            List.lookup_cons]
          rw [ih]
          simp [show (q == p) = false by simpa using h]
        · simp only [List.filter_cons, bne_iff_ne, ne_eq, hk, not_false_eq_true, if_true,
            List.lookup_cons, ih]

/-- **What is there after an insertion**: the entry at the path, and what was there elsewhere. -/
theorem get?_insert (t : FileTree) (p q : List String) (entry : Entry) (hp : p ≠ []) :
    (t.insert p entry).get? q = if q = p then some entry else t.get? q := by
  by_cases h : q = p
  · subst h
    simp [insert, get?, hp]
  · have hb : (q == p) = false := by simpa using h
    -- the new entry is passed over, and behind it stands the tree without the path
    have := get?_erase t p q
    simp only [h, false_and, if_false] at this
    by_cases hq : q = []
    · simp [get?, hq, Ne.symm hp]
    · simp only [get?, hq, if_false] at this ⊢
      simp [insert, List.lookup_cons, hb, h, this]

/-- The spelling of an entry's path from the top: a directory has a slash at its end. -/
def label (names : List String) : Entry → String
  | .directory => "/".intercalate names ++ "/"
  | .file _ => "/".intercalate names

/-- Every entry by its spelling, in the order of code points. -/
def listing (t : FileTree) : List (String × Entry) :=
  (t.entries.map fun (names, entry) => (label names entry, entry)).mergeSort
    fun a b => decide (a.1 ≤ b.1)

end FileTree

/-! ### Following paths -/

/-- **A tree and a working directory in it**, given by its names from the top. The codec says how
texts that are written there become bytes. -/
structure Place where
  tree : FileTree := {}
  here : List String := []
  codec : Text.Codec := .plain

namespace Place

/-- The directory in which a path starts. -/
def base (w : Place) (root : Root) : List String :=
  if root = .here then w.here else []

/-- One step from a directory: a point stays, two points go up, and any other name is looked up. -/
def step (t : FileTree) (dir : List String) (name : String) : Except FileFault (List String) :=
  if name = "." then .ok dir
  else if name = ".." then .ok dir.dropLast
  else if Path.nameLimit < name.utf8ByteSize then .error .nameTooLong
  else if (t.get? (dir ++ [name])).isSome then .ok (dir ++ [name])
  else .error .missing

/-- Follows names from an entry, which has to be a directory if there are any. -/
def follow (t : FileTree) (path : List String) : List String → Except FileFault (List String)
  | [] => .ok path
  | name :: names =>
    match t.get? path with
    | some .directory => step t path name >>= fun next => follow t next names
    | some (.file _) => .error .notDirectory
    | none => .error .missing

def followToDirectory (t : FileTree) (path : List String) (names : List String) :
    Except FileFault (List String) :=
  follow t path names >>= fun dir =>
    match t.get? dir with
    | some .directory => .ok dir
    | some (.file _) => .error .notDirectory
    | none => .error .missing

/-- **The content of a file** whose path is spelt as given. -/
def readFile (w : Place) (path : String) : Except FileFault ByteArray :=
  if Path.byteLimit ≤ path.utf8ByteSize then .error .nameTooLong
  else if path = "" then .error .missing
  else
    follow w.tree (w.base (.ofChars path.toList)) (Path.steps path) >>= fun dir =>
      match w.tree.get? dir with
      | some .directory => .error .isDirectory
      | some (.file content) => .ok content
      | none => .error .missing

/-- Where the last name of a path stands or would stand: the directory it is in, and the name. A
path that ends in `..`, or has no names, has no such place: then `special` is the fault. -/
def locate (w : Place) (p : Path) (special : FileFault) : Except FileFault (List String) :=
  if Path.byteLimit ≤ p.text.utf8ByteSize then .error .nameTooLong
  else match p.name? with
    | none => .error special
    | some name =>
      followToDirectory w.tree (w.base p.root) p.names.dropLast >>= fun dir =>
        if name = ".." then .error special
        else if Path.nameLimit < name.utf8ByteSize then .error .nameTooLong
        else .ok (dir ++ [name])

/-- Whether a path leads to a directory. -/
def isDirectory (w : Place) (p : Path) : Bool :=
  Path.byteLimit > p.text.utf8ByteSize &&
    match followToDirectory w.tree (w.base p.root) p.names with
    | .ok _ => true
    | .error _ => false

/-- **Makes one directory.** -/
def makeDirectory (w : Place) (p : Path) : Except FileFault Place :=
  w.locate p .alreadyThere >>= fun target =>
    match w.tree.get? target with
    | some _ => .error .alreadyThere
    | none => .ok { w with tree := w.tree.insert target .directory }

/-- What came of an operation that may stop half way: the place it leaves behind, and the fault. -/
abbrev Partial := Place × Except FileFault Unit

/-- Makes a directory, given by its names, last first, and before it those it stands in, where they
are missing. A directory that is there already is as good as a new one. -/
def makeDirectoriesFrom (w : Place) (root : Root) : List String → Partial
  | [] => (w, if w.isDirectory ⟨root, []⟩ then .ok () else .error .missing)
  | name :: up =>
    let p : Path := ⟨root, (name :: up).reverse⟩
    let again (w : Place) (fault : FileFault) : Partial :=
      (w, if w.isDirectory p then .ok () else .error fault)
    match w.makeDirectory p with
    | .ok w' => (w', .ok ())
    | .error .missing =>
      match makeDirectoriesFrom w root up with
      | (w', .error fault) => (w', .error fault)
      | (w', .ok ()) =>
        match w'.makeDirectory p with
        | .ok w'' => (w'', .ok ())
        | .error .missing => (w', .error .missing)
        | .error fault => again w' fault
    | .error fault => again w fault

/-- **Makes a directory and those above it** that are missing. -/
def makeDirectories (w : Place) (p : Path) : Partial :=
  w.makeDirectoriesFrom p.root p.names.reverse

/-- **Writes a file**, new or in place of an old one. -/
def writeFile (w : Place) (p : Path) (content : ByteArray) : Except FileFault Place :=
  w.locate p .isDirectory >>= fun target =>
    match w.tree.get? target with
    | some .directory => .error .isDirectory
    | _ => .ok { w with tree := w.tree.insert target (.file content) }

/-- **Moves a file**, in place of the file at its destination, if there is one. -/
def renameFile (w : Place) (source destination : Path) : Except FileFault Place :=
  w.locate source .busy >>= fun old =>
    w.locate destination .busy >>= fun new =>
      match w.tree.get? old, w.tree.get? new with
      | none, _ => .error .missing
      | some .directory, _ => .error .isDirectory
      | some (.file _), some .directory => .error .isDirectory
      | some (.file content), _ =>
        .ok { w with tree := (w.tree.erase old).insert new (.file content) }

/-- **Removes a file.** -/
def removeFile (w : Place) (p : Path) : Except FileFault Place :=
  w.locate p .isDirectory >>= fun target =>
    match w.tree.get? target with
    | none => .error .missing
    | some .directory => .error .isDirectory
    | some (.file _) => .ok { w with tree := w.tree.erase target }

end Place

end Blocklist
