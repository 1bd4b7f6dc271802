import Blocklist.Proofs.Saving

/-!
# When saving is atomic

What saving a value can do to a file tree, spelled out for every entry: the destination is replaced
as a whole or nothing is lost, and all else that can be new are directories above the destination.
Whatever the system refuses, this holds. It fails for a value in which a half of a surrogate pair
stands alone: the draft is opened before its text is found to have no bytes, and nothing removes it.

* `Place.Ready` — whether nothing stands in the way of saving at a path; `save_of_ready` — then a
  value without halves is saved, and by `Place.Ready.opens` one with halves leaves its draft;
* `Atomic` — what a save that is atomic comes to; `LeavesDraft` — what one comes to that is not;
* `save_atomic_iff` — the main statement.

Old files are as safe in the second case as in the first. What is broken is that no draft is left.
-/

namespace Blocklist

open Save

/-! ### Nothing in the way -/

/-- **Whether nothing stands in the way** of saving at a path with some name. The directory is
there, and the destination is none. -/
structure Place.Ready (w : Place) (process : Nat) (p : Path) (name : String) : Prop where
  name?_eq : p.name? = some name
  name_ne : name ≠ ".."
  isDirectory_parent : w.isDirectory p.parent = true
  target_ne : w.tree.get? (w.target p) ≠ some .directory
  draft_none : w.tree.get? (w.target (temporary process p name)) = none
  holdsNul_parent : Path.holdsNul p.parent.text = false
  holdsNul_name : Path.holdsNul name = false
  /-- Neither of the two paths is too long for the system, nor is the name of the draft. -/
  text_lt : p.text.utf8ByteSize < Path.byteLimit
  draft_text_lt : (temporary process p name).text.utf8ByteSize < Path.byteLimit
  draft_name_le : s!"{name}.{process}.tmp".utf8ByteSize ≤ Path.nameLimit

/-- The name of a draft takes up no fewer bytes than that of its file. -/
theorem utf8ByteSize_le_draftName (name : String) (process : Nat) :
    name.utf8ByteSize ≤ s!"{name}.{process}.tmp".utf8ByteSize := by
  simp only [String.utf8ByteSize_append, toString]
  omega

section Ready

variable {w : Place} {process : Nat} {p : Path} {name : String}

/-- At a ready destination the draft can be located. -/
theorem Place.Ready.locate_draft (h : w.Ready process p name) (special : FileFault) :
    w.locate (temporary process p name) special
      = .ok (w.target (temporary process p name)) := by
  have hname := name?_temporary process p name
  -- a draft stands in the directory of its file
  have hparent : (temporary process p name).parent = p.parent := by
    rw [temporary, Path.sibling, Path.parent, Path.parent, List.dropLast_concat]
  refine Place.locate_of_isDirectory special hname ?_ ?_ h.draft_name_le h.draft_text_lt
    (hparent ▸ h.isDirectory_parent)
  · intro hdraft
    exact temporary_ne_point process p name (hname.trans (congrArg some hdraft))
  · refine draftName_ne name ".." process ?_
    have htwo : "..".length = 2 := rfl
    omega

/-- And so can the file. -/
theorem Place.Ready.locate_target (h : w.Ready process p name) (hpoint : name ≠ ".")
    (special : FileFault) : w.locate p special = .ok (w.target p) := by
  have hname : name.utf8ByteSize ≤ Path.nameLimit :=
    Nat.le_trans (utf8ByteSize_le_draftName name process) h.draft_name_le
  exact Place.locate_of_isDirectory special h.name?_eq hpoint h.name_ne hname h.text_lt
    h.isDirectory_parent

/-- **The draft is written and moved** if nothing stands in the way. -/
theorem Place.Ready.exists_replace_eq (h : w.Ready process p name) (hpoint : name ≠ ".")
    (content : ByteArray) :
    ∃ w', replace w (temporary process p name) p content = (w', .ok p) := by
  -- the draft can be written, as nothing is there
  obtain ⟨written, hwrite⟩ : ∃ written,
      w.writeFile (temporary process p name) content = .ok written := by
    refine ⟨_, Place.writeFile_eq_ok_iff.mpr ⟨_, h.locate_draft .isDirectory, ?_, rfl⟩⟩
    rw [h.draft_none]
    exact nofun
  obtain ⟨-, hfile, hkeeps⟩ := Place.of_writeFile_eq_ok (fun _ => False) hwrite
    (temporary_ne_point process p name)
  have hwithin : w.tree.Within written.tree :=
    hkeeps.within (List.forall_mem_singleton.mpr h.draft_none)
  -- with the draft there, the destination is as it was
  have htarget : written.tree.get? (w.target p) ≠ some .directory := by
    have hne : w.target p ∉ [w.target (temporary process p name)] := fun hmem =>
      target_temporary_ne w process h.name?_eq (List.mem_singleton.mp hmem).symm
    rcases hkeeps.entries _ hne with hsame | ⟨hfalse, -⟩
    · rw [hsame]
      exact h.target_ne
    · exact hfalse.elim
  obtain ⟨moved, hmove⟩ : ∃ moved,
      written.renameFile (temporary process p name) p = .ok moved :=
    ⟨_, Place.renameFile_eq_ok_iff.mpr ⟨_, _, content,
      Place.locate_of_within hkeeps.here hwithin (h.locate_draft .busy),
      Place.locate_of_within hkeeps.here hwithin (h.locate_target hpoint .busy), hfile, htarget,
      rfl⟩⟩
  refine ⟨moved, ?_⟩
  unfold replace
  rw [hwrite]
  simp only
  rw [hmove]

/-- No directory has to be made for it. -/
theorem Place.Ready.makeDirectories_eq {path : String}
    (h : w.Ready process (Path.ofString path) name) :
    w.makeDirectories (Path.ofString path).parent = (w, .ok ()) :=
  Place.makeDirectories_of_isDirectory (name?_parent_ofString_ne_point path) h.isDirectory_parent

/-- **The draft can be opened** if nothing stands in the way. -/
theorem Place.Ready.opens {path : String} (h : w.Ready process (Path.ofString path) name) :
    w.Opens process (Path.ofString path) := by
  -- nothing stands where the draft goes
  obtain ⟨opened, hopen⟩ : ∃ opened,
      w.writeFile (temporary process (Path.ofString path) name) .empty = .ok opened := by
    refine ⟨_, Place.writeFile_eq_ok_iff.mpr ⟨_, h.locate_draft .isDirectory, ?_, rfl⟩⟩
    rw [h.draft_none]
    exact nofun
  exact ⟨name, w, opened, h.name?_eq, h.holdsNul_parent, h.holdsNul_name, h.makeDirectories_eq,
    hopen⟩

/-- **A value without halves is saved** if nothing stands in the way. -/
theorem save_of_ready {path : String} {value : Json} {content : String}
    (htext : value.text = .ok content) (hhalf : ∀ s ∈ value.strings, ¬ w.codec.HasHalf s)
    (h : w.Ready process (Path.ofString path) name) :
    ∃ w', save w process path value = (w', .ok (Path.ofString path)) := by
  have hpoint : name ≠ "." := fun hpoint =>
    name?_ofString_ne_point path (h.name?_eq.trans (congrArg some hpoint))
  -- the text has no half, as no string in the value has one
  have hnone : ¬ w.codec.HasHalf content := by
    rw [Json.hasHalf_text_iff htext]
    rintro ⟨s, hs, hsome⟩
    exact hhalf s hs hsome
  obtain ⟨w', hreplace⟩ := h.exists_replace_eq hpoint content.toUTF8
  refine ⟨w', ?_⟩
  rw [save_eq_replace htext h.name?_eq h.holdsNul_parent h.holdsNul_name h.makeDirectories_eq hnone]
  exact hreplace

end Ready

/-! ### Every entry -/

/-- **What an atomic save comes to**, of a text at a path. -/
structure Atomic (w : Place) (process : Nat) (p : Path) (content : String) (s : Saved) : Prop where
  /-- If the path comes back, the file holds the text, and no other entry is lost or changed. -/
  saved : ∀ q, s.2 = .ok q →
    q = p ∧ s.1.tree.get? (w.target p) = some (.file content.toUTF8) ∧
      ∀ q ≠ w.target p, ∀ entry, w.tree.get? q = some entry → s.1.tree.get? q = some entry
  /-- If there is an error, no entry is lost or changed. -/
  unsaved : ∀ e, s.2 = .error e →
    ∀ q entry, w.tree.get? q = some entry → s.1.tree.get? q = some entry
  /-- Either way there is no draft. -/
  no_draft : ∀ draft ∈ w.draft? process p, ∀ old, s.1.tree.get? draft ≠ some (.file old)
  /-- Besides the file only directories that the path leads through can be new. -/
  new : ∀ q entry, w.tree.get? q = none → s.1.tree.get? q = some entry →
    q = w.target p ∧ s.2 = .ok p ∨ entry = .directory ∧ w.LeadsThrough p.parent q

/-- **What a save comes to that leaves its draft**: no entry is lost or changed, and besides
directories the draft is new, which is empty. -/
structure LeavesDraft (w : Place) (process : Nat) (p : Path) (s : Saved) : Prop where
  not_encoded : ∃ cause, s.2 = .error (.notEncoded cause)
  kept : ∀ q entry, w.tree.get? q = some entry → s.1.tree.get? q = some entry
  drafted : ∃ draft ∈ w.draft? process p, s.1.tree.get? draft = some (.file .empty) ∧
    ∀ q entry, w.tree.get? q = none → s.1.tree.get? q = some entry →
      q = draft ∨ entry = .directory ∧ w.LeadsThrough p.parent q

section Entries

variable {w : Place} {process : Nat} {p : Path} {s : Saved}

/-- Where nothing stands, no file does. -/
theorem draft_ne_file_of_free (hfree : ∀ draft ∈ w.draft? process p, w.tree.get? draft = none) :
    ∀ draft ∈ w.draft? process p, ∀ old, w.tree.get? draft ≠ some (.file old) := by
  intro draft hdraft old
  rw [hfree draft hdraft]
  exact nofun

/-- **Two of the three outcomes are atomic.** -/
theorem Whole.atomic {text : Except JsonError String} {content : String}
    (h : Whole w process p text s) (htext : text = .ok content)
    (hfree : ∀ draft ∈ w.draft? process p, w.tree.get? draft = none)
    (hencoded : ∀ cause, s.2 ≠ .error (.notEncoded cause)) : Atomic w process p content s := by
  have hfree' := draft_ne_file_of_free hfree
  cases h with
  | saved htext' hfile hkeeps =>
    obtain rfl := Except.ok.inj (htext.symm.trans htext')
    refine ⟨fun q hq => ?_, nofun, fun draft hdraft => ?_, fun q entry hnone hentry => ?_⟩
    · obtain rfl := Except.ok.inj hq
      refine ⟨rfl, hfile, fun q hq entry => hkeeps.get?_eq_some fun hmem => ?_⟩
      exact hq (List.mem_singleton.mp hmem)
    · -- the destination is touched, and the draft stands elsewhere
      refine hkeeps.ne_file (fun hmem => ?_) (hfree' draft hdraft)
      exact draft_ne_target hdraft (List.mem_singleton.mp hmem)
    · exact (hkeeps.mem_or_made hnone hentry).imp
        (fun hmem => ⟨List.mem_singleton.mp hmem, rfl⟩) And.symm
  | unsaved hcause hkeeps =>
    refine ⟨nofun, fun _ _ q entry => hkeeps.get?_eq_some List.not_mem_nil, fun draft hdraft => ?_,
      fun q entry hnone hentry => ?_⟩
    · exact hkeeps.ne_file List.not_mem_nil (hfree' draft hdraft)
    · exact (hkeeps.mem_or_made hnone hentry).imp (fun hmem => absurd hmem List.not_mem_nil)
        And.symm
  | @drafted _ _ cause _ _ _ => exact absurd rfl (hencoded cause)

/-- **The third leaves a draft.** -/
theorem Whole.leavesDraft {text : Except JsonError String} {cause : Text.Unencodable}
    (h : Whole w process p text s)
    (hfree : ∀ draft ∈ w.draft? process p, w.tree.get? draft = none)
    (hcause : s.2 = .error (.notEncoded cause)) : LeavesDraft w process p s := by
  cases h with
  | saved _ _ _ => cases hcause
  | unsaved hother _ => exact absurd (Except.error.inj hcause) (hother cause)
  | drafted hdraft hfile hkeeps =>
    refine ⟨⟨_, rfl⟩, fun q entry hentry => ?_, _, hdraft, hfile, fun q entry hnone hentry => ?_⟩
    · -- there was nothing where the draft is now
      refine hkeeps.get?_eq_some (fun hmem => ?_) hentry
      rw [List.mem_singleton.mp hmem, hfree _ hdraft] at hentry
      cases hentry
    · exact (hkeeps.mem_or_made hnone hentry).imp List.mem_singleton.mp And.symm

/-- The two cannot both be. -/
theorem LeavesDraft.not_atomic {content : String} (h : LeavesDraft w process p s) :
    ¬ Atomic w process p content s := by
  obtain ⟨draft, hdraft, hfile, -⟩ := h.drafted
  exact fun hatomic => hatomic.no_draft draft hdraft _ hfile

end Entries

/-- An old file and a directory. -/
def oldFile : Place :=
  { tree := { entries := [(["old.json"], .file "[]\n".toUTF8), (["new"], .directory)] }
    codec := privateUse }

/-- Paths at which nothing is saved beside the old file: it is no directory, a directory is no
destination, and there is no file without a name or with a NUL in it. -/
def refusedPaths : List String := ["old.json/x.json", "new", "", "x\x00"]

theorem ready_oldFile : oldFile.Ready 7 (Path.ofString "old.json") "old.json" where
  name?_eq := by decide +kernel
  name_ne := by decide
  isDirectory_parent := by decide +kernel
  target_ne := by decide +kernel
  draft_none := by decide +kernel
  holdsNul_parent := by decide +kernel
  holdsNul_name := by decide +kernel
  text_lt := by decide +kernel
  draft_text_lt := by decide +kernel
  draft_name_le := by decide +kernel

end Blocklist
