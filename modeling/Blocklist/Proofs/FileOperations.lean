import Blocklist.FileTree
import Blocklist.Proofs.Outcome
import Mathlib.Data.List.Basic
import Mathlib.Tactic.SplitIfs

/-!
# What file operations do and leave alone

Names lead to the same place in every tree, as there are no links: if the system follows them at
all, it comes to where they say. So each operation is known by the place that it changes.

* `Path.lead` — where names lead, whether or not anything is there; `follow_eq_ok` — the system
  comes to no other place; `follow_of_within` — nor does it in a tree with more entries;
* `makeDirectory_eq_ok_iff`, `writeFile_eq_ok_iff`, `renameFile_eq_ok_iff`, `removeFile_eq_ok_iff` —
  when an operation goes well, and what it leaves behind;
* `Place.Keeps` — what stays, but for some places and for new directories, which is all that making
  directories changes (`makeDirectories_keeps`);
* `makeDirectories_of_isDirectory`, `locate_of_isDirectory` — what is sure to go well where the
  directory is there.
-/

namespace Blocklist

/-! ### Where names lead -/

namespace Path

/-- One name from a directory. -/
def stride (dir : List String) (name : String) : List String :=
  if name = "." then dir else if name = ".." then dir.dropLast else dir ++ [name]

/-- **Where names lead** from a directory, whether or not anything is there. -/
def lead (dir names : List String) : List String := names.foldl stride dir

theorem lead_concat (dir names : List String) (name : String) :
    lead dir (names ++ [name]) = stride (lead dir names) name := by
  rw [lead, List.foldl_append]
  rfl

theorem stride_of_ne {name : String} (dir : List String) (hpoint : name ≠ ".")
    (hup : name ≠ "..") : stride dir name = dir ++ [name] := by
  rw [stride, if_neg hpoint, if_neg hup]

end Path

/-- Whether a tree has all entries of another, as they are. -/
def FileTree.Within (t t' : FileTree) : Prop :=
  ∀ q entry, t.get? q = some entry → t'.get? q = some entry

namespace Place

variable {t t' : FileTree} {w w' : Place} {p : Path}

/-- A step that goes well goes where the name says, whatever is there. -/
theorem step_eq_ok {dir next : List String} {name : String} (h : step t dir name = .ok next) :
    next = Path.stride dir name := by
  unfold step at h
  unfold Path.stride
  -- both take a point, two points and any other name in turn; the system may refuse the last
  split_ifs at h ⊢
  all_goals exact (Except.ok.inj h).symm

/-- A step that goes well does so in a tree with more entries. What decides it is whether something
stands where it goes, and the length of the name only if nothing does. -/
theorem step_of_within {dir next : List String} {name : String} (hle : t.Within t')
    (h : step t dir name = .ok next) : step t' dir name = .ok next := by
  unfold step at h ⊢
  by_cases hthere : (t.get? (dir ++ [name])).isSome = true
  · obtain ⟨entry, hentry⟩ := Option.isSome_iff_exists.mp hthere
    -- what was looked up is still there
    have hthere' : (t'.get? (dir ++ [name])).isSome = true :=
      Option.isSome_iff_exists.mpr ⟨entry, hle _ _ hentry⟩
    rw [if_pos hthere] at h
    rw [if_pos hthere']
    exact h
  · rw [if_neg hthere] at h
    split_ifs at h ⊢
    all_goals exact h

/-- The first of some names is a step from a directory that is there. -/
theorem follow_cons_eq_ok_iff {dir target : List String} {name : String} {names : List String} :
    follow t dir (name :: names) = .ok target ↔
      t.get? dir = some .directory ∧ ∃ next, step t dir name = .ok next ∧
        follow t next names = .ok target := by
  rw [follow]
  cases hdir : t.get? dir with
  | none =>
    refine ⟨?_, ?_⟩
    · intro h
      cases h
    · rintro ⟨h, -⟩
      cases h
  | some entry =>
    cases entry with
    | file content =>
      refine ⟨?_, ?_⟩
      · intro h
        cases h
      · rintro ⟨h, -⟩
        cases h
    | directory => exact bind_eq_ok_iff.trans (by simp only [true_and])

/-- **No other place.** If names can be followed, it is to where they lead. -/
theorem follow_eq_ok {dir target names : List String} (h : follow t dir names = .ok target) :
    target = Path.lead dir names := by
  -- name by name, from wherever the names before have led
  induction names generalizing dir with
  | nil => exact (Except.ok.inj h).symm
  | cons name names ih =>
    obtain ⟨-, next, hstep, hfollow⟩ := follow_cons_eq_ok_iff.mp h
    obtain rfl := step_eq_ok hstep
    exact ih hfollow

/-- **More entries, the same place.** Names that can be followed lead to the same place in a tree
with more entries. -/
theorem follow_of_within {dir target names : List String} (hle : t.Within t')
    (h : follow t dir names = .ok target) : follow t' dir names = .ok target := by
  induction names generalizing dir with
  | nil => exact h
  | cons name names ih =>
    obtain ⟨hdir, next, hstep, hfollow⟩ := follow_cons_eq_ok_iff.mp h
    exact follow_cons_eq_ok_iff.mpr ⟨hle _ _ hdir, next, step_of_within hle hstep, ih hfollow⟩

/-- The last of some names is a step from where the others lead. -/
theorem follow_concat_eq_ok_iff {dir target names : List String} {name : String} :
    follow t dir (names ++ [name]) = .ok target ↔
      ∃ mid, follow t dir names = .ok mid ∧ t.get? mid = some .directory ∧
        step t mid name = .ok target := by
  induction names generalizing dir with
  | nil =>
    rw [List.nil_append, follow_cons_eq_ok_iff]
    refine ⟨?_, ?_⟩
    · rintro ⟨hdir, next, hstep, h⟩
      obtain rfl := Except.ok.inj h
      exact ⟨dir, rfl, hdir, hstep⟩
    · rintro ⟨mid, h, hdir, hstep⟩
      obtain rfl := Except.ok.inj h
      exact ⟨hdir, target, hstep, rfl⟩
  | cons first names ih =>
    rw [List.cons_append, follow_cons_eq_ok_iff]
    simp only [ih, follow_cons_eq_ok_iff]
    refine ⟨?_, ?_⟩
    · rintro ⟨hdir, next, hstep, mid, hfollow, hmid⟩
      exact ⟨mid, ⟨hdir, next, hstep, hfollow⟩, hmid⟩
    · rintro ⟨mid, ⟨hdir, next, hstep, hfollow⟩, hmid⟩
      exact ⟨hdir, next, hstep, mid, hfollow, hmid⟩

/-- Following names to a directory is following them, and looking at what is there. -/
theorem followToDirectory_eq_ok_iff {dir target names : List String} :
    followToDirectory t dir names = .ok target ↔
      follow t dir names = .ok target ∧ t.get? target = some .directory := by
  unfold followToDirectory
  rw [bind_eq_ok_iff]
  refine ⟨?_, ?_⟩
  · rintro ⟨a, hfollow, h⟩
    -- of the three things that may be there only a directory is let pass
    cases hentry : t.get? a with
    | none =>
      rw [hentry] at h
      cases h
    | some entry =>
      rw [hentry] at h
      cases entry with
      | file content => cases h
      | directory =>
        obtain rfl := Except.ok.inj h
        exact ⟨hfollow, hentry⟩
  · rintro ⟨hfollow, hentry⟩
    exact ⟨target, hfollow, by rw [hentry]⟩

/-- **Where the last name of a path stands**: in a directory that the other names lead to. -/
theorem locate_eq_ok_iff {special : FileFault} {target : List String} :
    w.locate p special = .ok target ↔
      p.text.utf8ByteSize < Path.byteLimit ∧ ∃ dir name, p.name? = some name ∧ name ≠ ".." ∧
        name.utf8ByteSize ≤ Path.nameLimit ∧
        follow w.tree (w.base p.root) p.names.dropLast = .ok dir ∧
        w.tree.get? dir = some .directory ∧ target = dir ++ [name] := by
  unfold locate
  by_cases hlong : Path.byteLimit ≤ p.text.utf8ByteSize
  · rw [if_pos hlong]
    refine ⟨?_, ?_⟩
    · intro h
      cases h
    · rintro ⟨hshort, -⟩
      omega
  · rw [if_neg hlong]
    cases hname : p.name? with
    | none =>
      refine ⟨?_, ?_⟩
      · intro h
        cases h
      · rintro ⟨-, dir, name, h, -⟩
        cases h
    | some name =>
      simp only [bind_eq_ok_iff, followToDirectory_eq_ok_iff]
      refine ⟨?_, ?_⟩
      · -- what is located has passed both checks of the last name
        rintro ⟨dir, ⟨hfollow, hdir⟩, h⟩
        split_ifs at h with hup hlongName
        exact ⟨by omega, dir, name, rfl, hup, by omega, hfollow, hdir, (Except.ok.inj h).symm⟩
      · rintro ⟨-, dir, name', hname', hup, hshort, hfollow, hdir, rfl⟩
        obtain rfl := Option.some.inj hname'
        refine ⟨dir, ⟨hfollow, hdir⟩, ?_⟩
        rw [if_neg hup, if_neg (by omega)]

/-- Where a name stands does not change if the tree gets more entries. -/
theorem locate_of_within {special : FileFault} {target : List String}
    (hhere : w'.here = w.here) (hle : w.tree.Within w'.tree)
    (h : w.locate p special = .ok target) : w'.locate p special = .ok target := by
  obtain ⟨htext, dir, name, hname, hup, hshort, hfollow, hdir, rfl⟩ := locate_eq_ok_iff.mp h
  have hbase : w'.base p.root = w.base p.root := by rw [base, base, hhere]
  refine locate_eq_ok_iff.mpr ⟨htext, dir, name, hname, hup, hshort, ?_, hle _ _ hdir, rfl⟩
  rw [hbase]
  exact follow_of_within hle hfollow

/-- Whether a path names a directory: it is short enough, and its names lead to one. -/
theorem isDirectory_iff :
    w.isDirectory p = true ↔ p.text.utf8ByteSize < Path.byteLimit ∧
      ∃ dir, follow w.tree (w.base p.root) p.names = .ok dir ∧
        w.tree.get? dir = some .directory := by
  unfold isDirectory
  rw [Bool.and_eq_true, decide_eq_true_iff]
  refine and_congr_right fun _ => ?_
  simp only [← followToDirectory_eq_ok_iff]
  cases followToDirectory w.tree (w.base p.root) p.names with
  | ok dir => simp
  | error fault => simp

/-! ### One operation each -/

/-- **When a directory can be made**: nothing stands where its name does. -/
theorem makeDirectory_eq_ok_iff :
    w.makeDirectory p = .ok w' ↔ ∃ target, w.locate p .alreadyThere = .ok target ∧
      w.tree.get? target = none ∧ w' = { w with tree := w.tree.insert target .directory } := by
  unfold makeDirectory
  rw [bind_eq_ok_iff]
  refine exists_congr fun target => and_congr_right fun _ => ?_
  cases hentry : w.tree.get? target with
  | none => simp only [Except.ok.injEq, true_and, eq_comm]
  | some entry => simp only [reduceCtorEq, false_and]

/-- **When a file can be written**: where its name stands there is a file or nothing. -/
theorem writeFile_eq_ok_iff {content : ByteArray} :
    w.writeFile p content = .ok w' ↔ ∃ target, w.locate p .isDirectory = .ok target ∧
      w.tree.get? target ≠ some .directory ∧
      w' = { w with tree := w.tree.insert target (.file content) } := by
  unfold writeFile
  rw [bind_eq_ok_iff]
  refine exists_congr fun target => and_congr_right fun _ => ?_
  cases hentry : w.tree.get? target with
  | none => simp only [Except.ok.injEq, ne_eq, reduceCtorEq, not_false_eq_true, true_and, eq_comm]
  | some entry =>
    cases entry with
    | directory => simp only [reduceCtorEq, ne_eq, not_true_eq_false, false_and]
    | file old =>
      simp only [Except.ok.injEq, ne_eq, Option.some.injEq, reduceCtorEq, not_false_eq_true,
        true_and, eq_comm]

/-- **When a file can be moved.** Both names are looked up before either of the entries is, and what
stands at the destination is never read: it may be a file or nothing, but no directory. -/
theorem renameFile_eq_ok_iff {source destination : Path} :
    w.renameFile source destination = .ok w' ↔
      ∃ old new content, w.locate source .busy = .ok old ∧ w.locate destination .busy = .ok new ∧
        w.tree.get? old = some (.file content) ∧ w.tree.get? new ≠ some .directory ∧
        w' = { w with tree := (w.tree.erase old).insert new (.file content) } := by
  unfold renameFile
  simp only [bind_eq_ok_iff]
  refine ⟨?_, ?_⟩
  · rintro ⟨old, hold, new, hnew, h⟩
    -- of the three things that may stand at the source, only a file is moved
    cases hentry : w.tree.get? old with
    | none =>
      rw [hentry] at h
      cases h
    | some entry =>
      rw [hentry] at h
      cases entry with
      | directory => cases h
      | file content =>
        have hdirectory : w.tree.get? new ≠ some .directory := by
          intro hdirectory
          rw [hdirectory] at h
          cases h
        refine ⟨old, new, content, hold, hnew, hentry, hdirectory, ?_⟩
        -- with nothing there or a file in the way, the tree comes out the same
        cases hreplaced : w.tree.get? new with
        | none =>
          rw [hreplaced] at h
          exact (Except.ok.inj h).symm
        | some entry =>
          rw [hreplaced] at h
          cases entry with
          | directory => cases h
          | file replaced => exact (Except.ok.inj h).symm
  · rintro ⟨old, new, content, hold, hnew, hfile, hdirectory, rfl⟩
    refine ⟨old, hold, new, hnew, ?_⟩
    rw [hfile]
    -- the one case of the operation that fails is the one that is excluded
    cases hentry : w.tree.get? new with
    | none => rfl
    | some entry =>
      cases entry with
      | directory => exact absurd hentry hdirectory
      | file replaced => rfl

/-- **When a file can be removed**: where its name stands there is one. -/
theorem removeFile_eq_ok_iff :
    w.removeFile p = .ok w' ↔ ∃ target content, w.locate p .isDirectory = .ok target ∧
      w.tree.get? target = some (.file content) ∧ w' = { w with tree := w.tree.erase target } := by
  unfold removeFile
  rw [bind_eq_ok_iff]
  refine exists_congr fun target => ?_
  cases hentry : w.tree.get? target with
  | none => simp only [reduceCtorEq, and_false, false_and, exists_false]
  | some entry =>
    cases entry with
    | directory => simp
    | file content => simp [eq_comm]

/-! ### What stays -/

/-- Where a path and the paths above it lead. -/
def LeadsThrough (w : Place) (p : Path) (q : List String) : Prop :=
  ∃ init name, init ++ [name] <+: p.names ∧ q = Path.lead (w.base p.root) init ++ [name]

/-- **What stays**: the working directory, the codec, and all entries but those at some places. What
is new elsewhere is a directory, made where nothing was. -/
structure Keeps (touched : List (List String)) (made : List String → Prop) (w w' : Place) :
    Prop where
  here : w'.here = w.here
  codec : w'.codec = w.codec
  entries : ∀ q ∉ touched, w'.tree.get? q = w.tree.get? q ∨
    (made q ∧ w.tree.get? q = none ∧ w'.tree.get? q = some .directory)

namespace Keeps

variable {touched touched' : List (List String)} {made made' : List String → Prop} {w'' : Place}

theorem refl (w : Place) : w.Keeps touched made w :=
  ⟨rfl, rfl, fun _ _ => .inl rfl⟩

/-- What two operations in a row touch is what either does. -/
theorem trans (h : w.Keeps touched made w') (h' : w'.Keeps touched' made w'') :
    w.Keeps (touched ++ touched') made w'' := by
  refine ⟨h'.here.trans h.here, h'.codec.trans h.codec, fun q hq => ?_⟩
  have hq' : q ∉ touched' := fun hmem => hq (List.mem_append_right touched hmem)
  replace hq : q ∉ touched := fun hmem => hq (List.mem_append_left touched' hmem)
  rcases h.entries q hq with hsame | ⟨hmade, hnone, hdir⟩
  · -- what is there after the first operation was there before it
    rw [← hsame]
    exact h'.entries q hq'
  · -- a directory that is new stays
    refine .inr ⟨hmade, hnone, ?_⟩
    rcases h'.entries q hq' with hsame' | ⟨-, hnone', -⟩
    · exact hsame'.trans hdir
    · rw [hdir] at hnone'
      cases hnone'

/-- More places and more directories may be allowed for than there are. -/
theorem mono (h : w.Keeps touched made w') (htouched : ∀ q ∈ touched, q ∈ touched')
    (hmade : ∀ q, made q → made' q) : w.Keeps touched' made' w' :=
  ⟨h.here, h.codec, fun q hq => (h.entries q fun hmem => hq (htouched q hmem)).imp id
    fun hnew => ⟨hmade q hnew.1, hnew.2⟩⟩

/-- A place that is as before does not count as touched. -/
theorem of_restored (h : w.Keeps touched made w')
    (hrestored : ∀ q ∈ touched, q ∉ touched' → w'.tree.get? q = w.tree.get? q) :
    w.Keeps touched' made w' := by
  refine ⟨h.here, h.codec, fun q hq => ?_⟩
  by_cases hmem : q ∈ touched
  · exact .inl (hrestored q hmem hq)
  · exact h.entries q hmem

/-- No entry is lost but at the places. -/
theorem get?_eq_some (h : w.Keeps touched made w') {q : List String} (hq : q ∉ touched)
    {entry : Entry} (hentry : w.tree.get? q = some entry) : w'.tree.get? q = some entry := by
  rcases h.entries q hq with hsame | ⟨-, hnone, -⟩
  · exact hsame.trans hentry
  · rw [hentry] at hnone
    cases hnone

/-- An entry that is new is at one of the places, or a directory that was made. -/
theorem mem_or_made (h : w.Keeps touched made w') {q : List String} {entry : Entry}
    (hnone : w.tree.get? q = none) (hentry : w'.tree.get? q = some entry) :
    q ∈ touched ∨ made q ∧ entry = .directory := by
  by_cases hq : q ∈ touched
  · exact .inl hq
  · rcases h.entries q hq with hsame | ⟨hmade, -, hdir⟩
    · rw [hsame, hnone] at hentry
      cases hentry
    · exact .inr ⟨hmade, Option.some.inj (hentry.symm.trans hdir)⟩

/-- No entry is lost if nothing stood at the places. -/
theorem within (h : w.Keeps touched made w') (hnone : ∀ q ∈ touched, w.tree.get? q = none) :
    w.tree.Within w'.tree := by
  intro q entry hentry
  have hq : q ∉ touched := by
    intro hmem
    rw [hnone q hmem] at hentry
    cases hentry
  exact h.get?_eq_some hq hentry

/-- A file that is new is at one of the places. -/
theorem ne_file (h : w.Keeps touched made w') {q : List String} (hq : q ∉ touched)
    (hfree : ∀ content, w.tree.get? q ≠ some (.file content)) (content : ByteArray) :
    w'.tree.get? q ≠ some (.file content) := by
  rcases h.entries q hq with hsame | ⟨-, -, hdir⟩
  · rw [hsame]
    exact hfree content
  · rw [hdir]
    exact nofun

end Keeps

/-- Where a path starts hangs on the working directory only. -/
theorem base_eq_of_here (h : w'.here = w.here) (root : Root) : w'.base root = w.base root := by
  rw [base, base, h]

theorem leadsThrough_eq_of_here (h : w'.here = w.here) (p : Path) :
    w'.LeadsThrough p = w.LeadsThrough p := by
  unfold LeadsThrough
  rw [base_eq_of_here h]

/-- **Making a directory** changes nothing else, and it is one that the path leads through. -/
theorem makeDirectory_keeps {root : Root} {init : List String} {name : String}
    (h : w.makeDirectory ⟨root, init ++ [name]⟩ = .ok w') :
    w.Keeps [] (w.LeadsThrough ⟨root, init ++ [name]⟩) w' := by
  obtain ⟨target, hlocate, hnone, rfl⟩ := makeDirectory_eq_ok_iff.mp h
  obtain ⟨-, dir, name', hname, -, -, hfollow, -, rfl⟩ := locate_eq_ok_iff.mp hlocate
  rw [Path.name?, List.getLast?_concat] at hname
  obtain rfl := Option.some.inj hname
  rw [List.dropLast_concat] at hfollow
  -- the name stands in a directory to which the names before it lead, and nowhere else
  obtain rfl := follow_eq_ok hfollow
  refine ⟨rfl, rfl, fun q _ => ?_⟩
  simp only [FileTree.get?_insert _ _ q _ (List.concat_ne_nil _ _)]
  by_cases hq : q = Path.lead (w.base root) init ++ [name]
  · -- the one new entry is the directory, and nothing was in its place
    rw [if_pos hq]
    exact .inr ⟨⟨init, name, List.prefix_rfl, hq⟩, hq ▸ hnone, rfl⟩
  · rw [if_neg hq]
    exact .inl rfl

/-- **Making directories changes nothing else**, whether or not all of them can be made. -/
theorem makeDirectoriesFrom_keeps (w : Place) (root : Root) (names : List String) :
    w.Keeps [] (w.LeadsThrough ⟨root, names.reverse⟩) (w.makeDirectoriesFrom root names).1 := by
  induction names with
  | nil => exact Keeps.refl w
  | cons name up ih =>
    -- what is above a directory that a path leads through is one, too
    have hup : ∀ q, w.LeadsThrough ⟨root, up.reverse⟩ q →
        w.LeadsThrough ⟨root, (name :: up).reverse⟩ q := by
      rintro q ⟨init, last, hprefix, rfl⟩
      rw [List.reverse_cons]
      exact ⟨init, last, hprefix.trans (List.prefix_append _ _), rfl⟩
    -- and so is the directory that the whole path names
    have hlast : ∀ w₁ w₂ : Place, w₁.makeDirectory ⟨root, (name :: up).reverse⟩ = .ok w₂ →
        w₁.Keeps [] (w₁.LeadsThrough ⟨root, (name :: up).reverse⟩) w₂ := by
      intro w₁ w₂ h
      rw [List.reverse_cons] at h ⊢
      exact makeDirectory_keeps h
    rw [makeDirectoriesFrom]
    -- first the directory itself, then those above it, and then the directory again
    cases hmake : w.makeDirectory ⟨root, (name :: up).reverse⟩ with
    | ok w₁ => exact hlast w w₁ hmake
    | error fault =>
      by_cases hmissing : fault = .missing
      · subst hmissing
        cases habove : w.makeDirectoriesFrom root up with
        | mk w₁ made =>
          rw [habove] at ih
          have hfirst := ih.mono (fun q hq => hq) hup
          cases made with
          | error fault => exact hfirst
          | ok _ =>
            simp only
            cases hagain : w₁.makeDirectory ⟨root, (name :: up).reverse⟩ with
            | error fault => cases fault <;> exact hfirst
            | ok w₂ =>
              -- the directory is made in the same place as it was tried before
              have hsecond := hlast w₁ w₂ hagain
              rw [leadsThrough_eq_of_here hfirst.here] at hsecond
              exact hfirst.trans hsecond
      · -- any other fault is the operation's own, and it has changed nothing
        cases fault
        case missing => exact absurd rfl hmissing
        all_goals exact Keeps.refl w

/-- **Making the directories of a path** changes nothing else. -/
theorem makeDirectories_keeps (w : Place) (p : Path) :
    w.Keeps [] (w.LeadsThrough p) (w.makeDirectories p).1 := by
  have h := makeDirectoriesFrom_keeps w p.root p.names.reverse
  rwa [List.reverse_reverse] at h

/-! ### Directories that are there -/

/-- **A directory that is there** does not have to be made. -/
theorem makeDirectory_of_isDirectory {name : String} (hname : p.name? = some name)
    (hpoint : name ≠ ".") (h : w.isDirectory p = true) :
    w.makeDirectory p = .error .alreadyThere := by
  obtain ⟨htext, dir, hfollow, -⟩ := isDirectory_iff.mp h
  rw [← List.dropLast_append_getLast? name hname, follow_concat_eq_ok_iff] at hfollow
  obtain ⟨mid, hmid, hdir, hstep⟩ := hfollow
  -- the directory that the last name stands in is there as well
  have habove : followToDirectory w.tree (w.base p.root) p.names.dropLast = .ok mid :=
    followToDirectory_eq_ok_iff.mpr ⟨hmid, hdir⟩
  unfold makeDirectory locate
  rw [if_neg (Nat.not_le.mpr htext), hname, habove]
  unfold step at hstep
  rw [if_neg hpoint] at hstep
  -- two points are refused as such, and any other name by what stands there
  split_ifs at hstep with hup hlong hthere
  · simp only [hup, if_true]
    rfl
  · obtain ⟨entry, hentry⟩ := Option.isSome_iff_exists.mp hthere
    simp only [if_neg hup, if_neg hlong, bind, Except.bind, hentry]

/-- Where the directory of a path is there, none has to be made. -/
theorem makeDirectories_of_isDirectory (hpoint : p.name? ≠ some ".")
    (h : w.isDirectory p = true) : w.makeDirectories p = (w, .ok ()) := by
  obtain ⟨root, names⟩ := p
  -- a path without names stands for where it starts; any other ends in a name
  rcases List.eq_nil_or_concat names with rfl | ⟨names, name, rfl⟩
  · change (w, if w.isDirectory ⟨root, []⟩ then _ else _) = _
    rw [if_pos h]
  · rw [List.concat_eq_append] at h hpoint ⊢
    have hname : Path.name? ⟨root, names ++ [name]⟩ = some name := List.getLast?_concat
    have hmake : w.makeDirectory ⟨root, names ++ [name]⟩ = .error .alreadyThere :=
      makeDirectory_of_isDirectory hname (fun h => hpoint (hname.trans (congrArg some h))) h
    unfold makeDirectories
    rw [List.reverse_append, List.reverse_singleton, List.singleton_append, makeDirectoriesFrom]
    simp only [List.reverse_cons, List.reverse_reverse, hmake, h, if_true]

/-! ### Files -/

/-- The place that a path names. -/
def target (w : Place) (p : Path) : List String := Path.lead (w.base p.root) p.names

theorem target_eq_of_here (h : w'.here = w.here) (p : Path) : w'.target p = w.target p := by
  rw [target, target, base_eq_of_here h]

/-- Only a path that ends in a single point, which none does in its shortest spelling, could stand
elsewhere than at the place that it names. -/
theorem eq_target_of_locate {special : FileFault} {place : List String}
    (h : w.locate p special = .ok place) (hpoint : p.name? ≠ some ".") :
    place = w.target p ∧ place ≠ [] := by
  obtain ⟨-, dir, name, hname, hup, -, hfollow, -, rfl⟩ := locate_eq_ok_iff.mp h
  obtain rfl := follow_eq_ok hfollow
  have hnames : p.names.dropLast ++ [name] = p.names := List.dropLast_append_getLast? name hname
  refine ⟨?_, List.concat_ne_nil _ _⟩
  -- the last name is neither `.` nor `..`, so it leads one step down
  have hstride := Path.stride_of_ne (Path.lead (w.base p.root) p.names.dropLast)
    (fun h => hpoint (hname.trans (congrArg some h))) hup
  rw [target, ← hstride, ← Path.lead_concat, hnames]

/-- A name in a directory that is there stands at the place that its path names. -/
theorem locate_of_isDirectory (special : FileFault) {name : String} (hname : p.name? = some name)
    (hpoint : name ≠ ".") (hup : name ≠ "..") (hshort : name.utf8ByteSize ≤ Path.nameLimit)
    (htext : p.text.utf8ByteSize < Path.byteLimit) (h : w.isDirectory p.parent = true) :
    w.locate p special = .ok (w.target p) := by
  obtain ⟨-, dir, hfollow, hdir⟩ := isDirectory_iff.mp h
  have hlocate : w.locate p special = .ok (dir ++ [name]) :=
    locate_eq_ok_iff.mpr ⟨htext, dir, name, hname, hup, hshort, hfollow, hdir, rfl⟩
  have htarget : dir ++ [name] = w.target p :=
    (eq_target_of_locate hlocate fun h => hpoint (Option.some.inj (hname.symm.trans h))).1
  rw [hlocate, htarget]

/-- **Writing a file** changes nothing but the file. -/
theorem of_writeFile_eq_ok (made : List String → Prop) {content : ByteArray}
    (h : w.writeFile p content = .ok w') (hpoint : p.name? ≠ some ".") :
    w.tree.get? (w.target p) ≠ some .directory ∧
      w'.tree.get? (w.target p) = some (.file content) ∧ w.Keeps [w.target p] made w' := by
  obtain ⟨place, hlocate, hdirectory, rfl⟩ := writeFile_eq_ok_iff.mp h
  obtain ⟨rfl, hne⟩ := eq_target_of_locate hlocate hpoint
  -- the place itself, the working directory, the codec, and the other places
  refine ⟨hdirectory, ?_, rfl, rfl, fun q hq => .inl ?_⟩
  · rw [FileTree.get?_insert _ _ _ _ hne, if_pos rfl]
  · rw [FileTree.get?_insert _ _ _ _ hne, if_neg fun h => hq (List.mem_singleton.mpr h)]

/-- **Moving a file** to another place changes nothing but the two places. -/
theorem of_renameFile_eq_ok (made : List String → Prop) {source destination : Path}
    (h : w.renameFile source destination = .ok w') (hsource : source.name? ≠ some ".")
    (hdestination : destination.name? ≠ some ".") (hne : w.target source ≠ w.target destination) :
    w'.tree.get? (w.target destination) = w.tree.get? (w.target source) ∧
      w'.tree.get? (w.target source) = none ∧
      w.Keeps [w.target source, w.target destination] made w' := by
  obtain ⟨old, new, content, hold, hnew, hfile, -, rfl⟩ := renameFile_eq_ok_iff.mp h
  obtain ⟨rfl, hold⟩ := eq_target_of_locate hold hsource
  obtain ⟨rfl, hnew⟩ := eq_target_of_locate hnew hdestination
  -- the file has gone to the one place and has left the other
  refine ⟨?_, ?_, rfl, rfl, fun q hq => .inl ?_⟩
  · rw [FileTree.get?_insert _ _ _ _ hnew, if_pos rfl, hfile]
  · rw [FileTree.get?_insert _ _ _ _ hnew, if_neg hne, FileTree.get?_erase, if_pos ⟨rfl, hold⟩]
  · -- elsewhere neither the removal nor the insertion is seen
    have hq' : q ≠ w.target source ∧ q ≠ w.target destination := by
      simpa only [List.mem_cons, List.not_mem_nil, or_false, not_or] using hq
    rw [FileTree.get?_insert _ _ _ _ hnew, if_neg hq'.2, FileTree.get?_erase,
      if_neg fun h => hq'.1 h.1]

/-- **Removing a file** that was just written leaves its place empty and the rest alone. -/
theorem of_removeFile_eq_ok (made : List String → Prop) (h : w.removeFile p = .ok w')
    (hpoint : p.name? ≠ some ".") :
    (∃ content, w.tree.get? (w.target p) = some (.file content)) ∧
      w'.tree.get? (w.target p) = none ∧ w.Keeps [w.target p] made w' := by
  obtain ⟨place, content, hlocate, hfile, rfl⟩ := removeFile_eq_ok_iff.mp h
  obtain ⟨rfl, hne⟩ := eq_target_of_locate hlocate hpoint
  refine ⟨⟨content, hfile⟩, ?_, rfl, rfl, fun q hq => .inl ?_⟩
  · rw [FileTree.get?_erase, if_pos ⟨rfl, hne⟩]
  · rw [FileTree.get?_erase, if_neg fun h => hq (List.mem_singleton.mpr h.1)]

end Place

end Blocklist
