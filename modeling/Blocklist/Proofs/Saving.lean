import Blocklist.Save
import Blocklist.Proofs.Encoding
import Blocklist.Proofs.FileOperations

/-!
# Saved as a whole or not at all

A value goes to a draft beside its destination, and the draft takes the destination's place. As long
as no file stands where the draft goes, the destination holds the whole text, or every entry is as
it was. Nothing else changes but for directories above the destination, and the draft is gone again,
with one exception: a text without bytes is found to be one when its draft is there already, and
then the draft stays.

* `Whole` — the three outcomes; `save_whole` — there is no other;
* `Place.draft?` — where the draft goes; `draft_ne_target` — it is not the destination;
* `Place.Opens` — whether the draft can be opened; `Place.Drafts` — whether it can be and the text
  of the value has no bytes;
* `exists_save_eq_notEncoded_iff` — then and only then the draft stays.
-/

namespace Blocklist

open Save

/-! ### The name of a draft -/

/-- The draft of a path, if the path has a name. -/
def Place.draft? (w : Place) (process : Nat) (p : Path) : Option (List String) :=
  p.name?.map fun name => w.target (temporary process p name)

/-- No name of a path is a single point, as these are dropped when it is read. -/
theorem ne_point_of_mem_names {path name : String} (h : name ∈ (Path.ofString path).names) :
    name ≠ "." := by
  obtain ⟨part, hpart, rfl⟩ := List.mem_map.mp h
  have hne : part ≠ ['.'] := (of_decide_eq_true (List.mem_filter.mp hpart).2).2
  -- a name is a single point only if its characters are
  intro hpoint
  exact hne (by simpa using congrArg String.toList hpoint)

theorem name?_ofString_ne_point (path : String) : (Path.ofString path).name? ≠ some "." :=
  fun h => ne_point_of_mem_names (List.mem_of_getLast? h) rfl

/-- The directory of a path does not end in a point either. -/
theorem name?_parent_ofString_ne_point (path : String) :
    (Path.ofString path).parent.name? ≠ some "." :=
  fun h => ne_point_of_mem_names ((List.dropLast_sublist _).subset (List.mem_of_getLast? h)) rfl

theorem name?_temporary (process : Nat) (p : Path) (name : String) :
    (temporary process p name).name? = some s!"{name}.{process}.tmp" :=
  List.getLast?_concat

/-- A draft has a longer name than the file that it is for. -/
theorem length_lt_draftName (name : String) (process : Nat) :
    name.length + 4 < s!"{name}.{process}.tmp".length := by
  simp only [String.length_append, toString]
  have hpoint : ".".length = 1 := rfl
  have hending : ".tmp".length = 4 := rfl
  omega

theorem draftName_ne (name other : String) (process : Nat) (h : other.length < name.length + 5) :
    s!"{name}.{process}.tmp" ≠ other := by
  intro heq
  have hlength := length_lt_draftName name process
  rw [heq] at hlength
  omega

/-- Nor is the name of a draft a single point. -/
theorem temporary_ne_point (process : Nat) (p : Path) (name : String) :
    (temporary process p name).name? ≠ some "." := by
  rw [name?_temporary]
  intro h
  -- the name of a draft is too long to be a point
  have hshort : ".".length < name.length + 5 := by
    have hone : ".".length = 1 := rfl
    omega
  exact draftName_ne name "." process hshort (Option.some.inj h)

/-- **A draft is not the destination**, also where that is no file but a directory. -/
theorem target_temporary_ne (w : Place) (process : Nat) {p : Path} {name : String}
    (hname : p.name? = some name) : w.target (temporary process p name) ≠ w.target p := by
  have htwo : "..".length < name.length + 5 := by
    have hlength : "..".length = 2 := rfl
    omega
  have hpoint : s!"{name}.{process}.tmp" ≠ "." := fun h =>
    temporary_ne_point process p name ((name?_temporary process p name).trans (congrArg some h))
  have hnames : p.names = p.names.dropLast ++ [name] :=
    (List.dropLast_append_getLast? name hname).symm
  have hdraft : w.target (temporary process p name)
      = Path.lead (w.base p.root) p.names.dropLast ++ [s!"{name}.{process}.tmp"] := by
    rw [Place.target, temporary, Path.sibling, Path.lead_concat,
      Path.stride_of_ne _ hpoint (draftName_ne name ".." process htwo)]
  rw [hdraft, Place.target, hnames, Path.lead_concat, ← hnames]
  -- the draft stands in the directory; the destination does too, or it is not below it
  intro h
  have hlength := congrArg List.length h
  unfold Path.stride at h hlength
  split_ifs at h hlength with hone hup
  · simp at hlength
  · simp only [List.length_append, List.length_singleton, List.length_dropLast] at hlength
    omega
  · have hlast := List.singleton_injective (List.append_cancel_left h)
    exact draftName_ne name name process (by omega) hlast

/-- **A draft is not the file** that it is for. -/
theorem draft_ne_target {w : Place} {process : Nat} {p : Path} {draft : List String}
    (h : draft ∈ w.draft? process p) : draft ≠ w.target p := by
  obtain ⟨name, hname, rfl⟩ := Option.map_eq_some_iff.mp h
  exact target_temporary_ne w process hname

/-! ### Three outcomes -/

/-- **The outcomes of saving a text** at a path. -/
inductive Whole (w : Place) (process : Nat) (p : Path) (text : Except JsonError String) :
    Saved → Prop where
  /-- The file holds the text. -/
  | saved {w' : Place} {content : String} :
    text = .ok content → w'.tree.get? (w.target p) = some (.file content.toUTF8) →
    w.Keeps [w.target p] (w.LeadsThrough p.parent) w' →
    Whole w process p text (w', .ok p)
  /-- All is as it was. -/
  | unsaved {w' : Place} {e : SaveError} :
    (∀ cause, e ≠ .notEncoded cause) → w.Keeps [] (w.LeadsThrough p.parent) w' →
    Whole w process p text (w', .error e)
  /-- The text has no bytes, and the draft is left as it was opened. -/
  | drafted {w' : Place} {draft : List String} {cause : Text.Unencodable} :
    draft ∈ w.draft? process p → w'.tree.get? draft = some (.file .empty) →
    w.Keeps [draft] (w.LeadsThrough p.parent) w' →
    Whole w process p text (w', .error (.notEncoded cause))

variable {w w' : Place} {process : Nat} {p : Path} {name : String}

theorem Place.draft?_eq_of_here (h : w'.here = w.here) (process : Nat) (p : Path) :
    w'.draft? process p = w.draft? process p := by
  unfold draft?
  cases p.name? with
  | none => rfl
  | some name => exact congrArg some (target_eq_of_here h _)

/-- What directories are made before does not matter. -/
theorem Whole.of_keeps {text : Except JsonError String} {s : Saved}
    (h : w.Keeps [] (w.LeadsThrough p.parent) w') (hwhole : Whole w' process p text s) :
    Whole w process p text s := by
  have hthrough := Place.leadsThrough_eq_of_here h.here p.parent
  -- in each of the outcomes, what was made before is added to what is kept
  cases hwhole with
  | saved htext hfile hkeeps =>
    rw [hthrough] at hkeeps
    rw [Place.target_eq_of_here h.here] at hfile hkeeps
    exact .saved htext hfile (h.trans hkeeps)
  | unsaved hcause hkeeps =>
    rw [hthrough] at hkeeps
    exact .unsaved hcause (h.trans hkeeps)
  | drafted hdraft hfile hkeeps =>
    rw [hthrough] at hkeeps
    rw [Place.draft?_eq_of_here h.here] at hdraft
    exact .drafted hdraft hfile (h.trans hkeeps)

/-! ### The draft -/

/-- Giving up does nothing if there is no draft. -/
theorem giveUp_of_ne_file {temp : Path} (hpoint : temp.name? ≠ some ".")
    (hfree : ∀ content, w.tree.get? (w.target temp) ≠ some (.file content)) (fault : FileFault) :
    giveUp w temp p fault = (w, .error (.notWritten p fault)) := by
  unfold giveUp
  -- only a file can be removed, and there is none
  cases hremove : w.removeFile temp with
  | error _ => rfl
  | ok removed =>
    obtain ⟨⟨content, hfile⟩, -⟩ :=
      Place.of_removeFile_eq_ok (w.LeadsThrough p) hremove hpoint
    exact absurd hfile (hfree content)

/-- Giving up after the draft was written removes it, so that all is as before. -/
theorem giveUp_written_keeps (made : List String → Prop) {temp : Path} {written : Place}
    {content : ByteArray} (hpoint : temp.name? ≠ some ".")
    (hwritten : w.writeFile temp content = .ok written)
    (hnone : w.tree.get? (w.target temp) = none) (fault : FileFault) :
    ∃ w', giveUp written temp p fault = (w', .error (.notWritten p fault)) ∧
      w.Keeps [] made w' := by
  obtain ⟨-, hfile, hkeeps⟩ := Place.of_writeFile_eq_ok made hwritten hpoint
  have hwithin : w.tree.Within written.tree :=
    hkeeps.within (List.forall_mem_singleton.mpr hnone)
  -- the draft is found where it was written, so it can be removed
  obtain ⟨place, hlocate, -, -⟩ := Place.writeFile_eq_ok_iff.mp hwritten
  obtain ⟨rfl, -⟩ := Place.eq_target_of_locate hlocate hpoint
  have hremove : written.removeFile temp = .ok _ := Place.removeFile_eq_ok_iff.mpr
    ⟨_, content, Place.locate_of_within hkeeps.here hwithin hlocate, hfile, rfl⟩
  obtain ⟨-, hgone, hkeeps'⟩ := Place.of_removeFile_eq_ok made hremove hpoint
  rw [Place.target_eq_of_here hkeeps.here] at hgone hkeeps'
  refine ⟨_, by rw [giveUp, hremove]; rfl, (hkeeps.trans hkeeps').of_restored fun q hq _ => ?_⟩
  have hq : q = w.target temp := by simpa using hq
  rw [hq, hgone, hnone]

/-- **Writing the draft and moving it** ends with the file or without a trace. -/
theorem replace_whole {text : Except JsonError String} {content : String}
    (htext : text = .ok content) (hname : p.name? = some name) (hpoint : p.name? ≠ some ".")
    (hfree : ∀ old, w.tree.get? (w.target (temporary process p name)) ≠ some (.file old)) :
    Whole w process p text (replace w (temporary process p name) p content.toUTF8) := by
  have htemp := temporary_ne_point process p name
  unfold replace
  cases hwrite : w.writeFile (temporary process p name) content.toUTF8 with
  | error fault =>
    -- there is no draft, so that there is nothing to remove
    simp only
    rw [giveUp_of_ne_file htemp hfree]
    exact .unsaved nofun (.refl w)
  | ok written =>
    obtain ⟨hdirectory, hfile, hkeeps⟩ :=
      Place.of_writeFile_eq_ok (w.LeadsThrough p.parent) hwrite htemp
    -- neither a directory nor a file stood where the draft was written
    have hnone : w.tree.get? (w.target (temporary process p name)) = none := by
      cases hentry : w.tree.get? (w.target (temporary process p name)) with
      | none => rfl
      | some entry =>
        cases entry with
        | directory => exact absurd hentry hdirectory
        | file old => exact absurd hentry (hfree old)
    simp only
    cases hmove : written.renameFile (temporary process p name) p with
    | error fault =>
      obtain ⟨w', hgiveUp, hback⟩ :=
        giveUp_written_keeps (w.LeadsThrough p.parent) htemp hwrite hnone fault
      simp only
      rw [hgiveUp]
      exact .unsaved nofun hback
    | ok moved =>
      -- the draft has moved: its own place is empty again, as it was before
      have hne := target_temporary_ne written process hname
      obtain ⟨hmoved, hgone, hkeeps'⟩ := Place.of_renameFile_eq_ok
        (w.LeadsThrough p.parent) hmove htemp hpoint hne
      simp only [Place.target_eq_of_here hkeeps.here] at hmoved hgone hkeeps'
      refine .saved htext (hmoved.trans hfile) ((hkeeps.trans hkeeps').of_restored ?_)
      intro q hq hq'
      have hq : q = w.target (temporary process p name) := by
        simp only [List.mem_append, List.mem_cons, List.not_mem_nil, or_false] at hq hq'
        exact hq.elim id fun h => h.resolve_right hq'
      rw [hq, hgone, hnone]

/-- A text without halves is written and moved. -/
theorem draft_of_not_hasHalf {temp : Path} {content : String} (h : ¬ w.codec.HasHalf content) :
    draft w temp p content = replace w temp p content.toUTF8 := by
  unfold draft
  rw [Text.Codec.encode_of_not_hasHalf h]

/-- **Opening the draft and going on** has the three outcomes. -/
theorem draft_whole {text : Except JsonError String} {content : String}
    (htext : text = .ok content) (hname : p.name? = some name) (hpoint : p.name? ≠ some ".")
    (hfree : ∀ old, w.tree.get? (w.target (temporary process p name)) ≠ some (.file old)) :
    Whole w process p text (draft w (temporary process p name) p content) := by
  have htemp := temporary_ne_point process p name
  unfold draft
  cases hencode : w.codec.encode content with
  | ok bytes =>
    obtain ⟨-, rfl⟩ := Text.Codec.encode_eq_ok_iff.mp hencode
    exact replace_whole htext hname hpoint hfree
  | error cause =>
    simp only
    cases hopen : w.writeFile (temporary process p name) .empty with
    | error fault =>
      simp only
      rw [giveUp_of_ne_file htemp hfree]
      exact .unsaved nofun (.refl w)
    | ok opened =>
      -- nothing is removed here, as nothing is given up
      obtain ⟨-, hfile, hkeeps⟩ :=
        Place.of_writeFile_eq_ok (w.LeadsThrough p.parent) hopen htemp
      exact .drafted (Option.map_eq_some_iff.mpr ⟨name, hname, rfl⟩) hfile hkeeps

/-- **Saving a text** under a name has the three outcomes. -/
theorem lay_whole {text : Except JsonError String} {content : String}
    (htext : text = .ok content) (hname : p.name? = some name) (hpoint : p.name? ≠ some ".")
    (hfree : ∀ old, w.tree.get? (w.target (temporary process p name)) ≠ some (.file old)) :
    Whole w process p text (lay w process p name content) := by
  unfold lay
  by_cases hnul : Path.holdsNul p.parent.text = true
  · rw [if_pos hnul]
    exact .unsaved nofun (.refl w)
  · rw [if_neg hnul]
    have hkeeps := Place.makeDirectories_keeps w p.parent
    cases hmake : w.makeDirectories p.parent with
    | mk w' made =>
      rw [hmake] at hkeeps
      -- the directories may have come to stand where the draft goes, but no file has
      have hfree' : ∀ old,
          w'.tree.get? (w'.target (temporary process p name)) ≠ some (.file old) := by
        rw [Place.target_eq_of_here hkeeps.here]
        exact hkeeps.ne_file List.not_mem_nil hfree
      simp only
      by_cases hnul' : Path.holdsNul name = true
      · rw [if_pos hnul']
        exact .unsaved nofun hkeeps
      · rw [if_neg hnul']
        cases made with
        | error fault =>
          simp only
          rw [giveUp_of_ne_file (temporary_ne_point process p name) hfree']
          exact .unsaved nofun hkeeps
        | ok _ => exact (draft_whole htext hname hpoint hfree').of_keeps hkeeps

/-- **Saving has three outcomes**, if no file stands where the draft goes. -/
theorem save_whole {path : String} (value : Json)
    (hfree : ∀ draft ∈ w.draft? process (Path.ofString path), ∀ old,
      w.tree.get? draft ≠ some (.file old)) :
    Whole w process (Path.ofString path) value.text (save w process path value) := by
  unfold save
  simp only
  -- without a name or a text nothing is touched
  cases hname : (Path.ofString path).name? with
  | none => exact .unsaved nofun (.refl w)
  | some name =>
    cases htext : value.text with
    | error e => exact .unsaved nofun (.refl w)
    | ok content =>
      refine lay_whole rfl hname (name?_ofString_ne_point path) ?_
      exact hfree _ (Option.map_eq_some_iff.mpr ⟨name, hname, rfl⟩)

/-! ### What a saved file holds -/

/-- A draft that was moved is the file, whatever stood where it went before. -/
theorem of_replace_eq_ok {content : ByteArray} {q : Path} (hname : p.name? = some name)
    (hpoint : p.name? ≠ some ".")
    (h : replace w (temporary process p name) p content = (w', .ok q)) :
    q = p ∧ w'.tree.get? (w.target p) = some (.file content) := by
  have htemp := temporary_ne_point process p name
  unfold replace at h
  -- a fault at either of the two operations comes out as an error
  cases hwrite : w.writeFile (temporary process p name) content with
  | error fault =>
    rw [hwrite] at h
    cases h
  | ok written =>
    obtain ⟨-, hfile, hkeeps⟩ := Place.of_writeFile_eq_ok (w.LeadsThrough p) hwrite htemp
    rw [hwrite] at h
    simp only at h
    cases hmove : written.renameFile (temporary process p name) p with
    | error fault =>
      rw [hmove] at h
      cases h
    | ok moved =>
      have hne := target_temporary_ne written process hname
      obtain ⟨hmoved, -, -⟩ :=
        Place.of_renameFile_eq_ok (w.LeadsThrough p) hmove htemp hpoint hne
      rw [hmove] at h
      obtain ⟨rfl, hq⟩ := Prod.mk.inj h
      simp only [Place.target_eq_of_here hkeeps.here] at hmoved
      exact ⟨(Except.ok.inj hq).symm, hmoved.trans hfile⟩

/-- A draft that goes well ends with the text at the destination. -/
theorem of_draft_eq_ok {content : String} {q : Path} (hname : p.name? = some name)
    (hpoint : p.name? ≠ some ".")
    (h : draft w (temporary process p name) p content = (w', .ok q)) :
    q = p ∧ w'.tree.get? (w.target p) = some (.file content.toUTF8) := by
  unfold draft at h
  cases hencode : w.codec.encode content with
  | ok bytes =>
    obtain ⟨-, rfl⟩ := Text.Codec.encode_eq_ok_iff.mp hencode
    rw [hencode] at h
    exact of_replace_eq_ok hname hpoint h
  | error cause =>
    -- without bytes there is an error, whether or not the draft can be opened
    rw [hencode] at h
    cases hopen : w.writeFile (temporary process p name) .empty with
    | error fault =>
      rw [hopen] at h
      cases h
    | ok opened =>
      rw [hopen] at h
      cases h

theorem of_lay_eq_ok {content : String} {q : Path} (hname : p.name? = some name)
    (hpoint : p.name? ≠ some ".") (h : lay w process p name content = (w', .ok q)) :
    q = p ∧ w'.tree.get? (w.target p) = some (.file content.toUTF8) := by
  unfold lay at h
  have hkeeps := Place.makeDirectories_keeps w p.parent
  cases hmake : w.makeDirectories p.parent with
  | mk made result =>
    rw [hmake] at hkeeps
    simp only [hmake] at h
    -- neither name holds a NUL, and the directories were made
    split_ifs at h
    · cases h
    · cases h
    · cases result with
      | error fault => cases h
      | ok _ =>
        obtain ⟨rfl, hfile⟩ := of_draft_eq_ok hname hpoint h
        rw [Place.target_eq_of_here hkeeps.here] at hfile
        exact ⟨rfl, hfile⟩

/-- **What a saved file holds** is the text of the value. -/
theorem of_save_eq_ok {path : String} {value : Json} {q : Path}
    (h : save w process path value = (w', .ok q)) :
    q = Path.ofString path ∧ ∃ content, value.text = .ok content ∧
      w'.tree.get? (w.target q) = some (.file content.toUTF8) := by
  unfold save at h
  simp only at h
  -- a path with a name and a value with a text, or else nothing is saved
  cases hname : (Path.ofString path).name? with
  | none =>
    rw [hname] at h
    cases h
  | some name =>
    cases htext : value.text with
    | error e =>
      rw [hname, htext] at h
      cases h
    | ok content =>
      rw [hname, htext] at h
      obtain ⟨rfl, hfile⟩ := of_lay_eq_ok hname (name?_ofString_ne_point path) h
      exact ⟨rfl, content, rfl, hfile⟩

/-- **A save that comes to its draft** writes and moves it, if the text has no half. -/
theorem save_eq_replace {path : String} {value : Json} {content : String}
    (htext : value.text = .ok content) (hname : (Path.ofString path).name? = some name)
    (hparent : Path.holdsNul (Path.ofString path).parent.text = false)
    (hnul : Path.holdsNul name = false)
    (hmake : w.makeDirectories (Path.ofString path).parent = (w', .ok ()))
    (hhalf : ¬ w'.codec.HasHalf content) :
    save w process path value = replace w' (temporary process (Path.ofString path) name)
      (Path.ofString path) content.toUTF8 := by
  unfold save lay
  simp only [hname, htext, hparent, hnul, hmake, Bool.false_eq_true, if_false]
  exact draft_of_not_hasHalf hhalf

/-- So does every save at a mere name, as it makes no directory. -/
theorem save_eq_replace_of_name {value : Json} {content : String} (htext : value.text = .ok content)
    (hpath : Path.ofString name = ⟨.here, [name]⟩) (hnul : Path.holdsNul name = false)
    (hhere : w.isDirectory ⟨.here, []⟩ = true) (hhalf : ¬ w.codec.HasHalf content) :
    save w process name value =
      replace w (temporary process (Path.ofString name) name) (Path.ofString name)
        content.toUTF8 := by
  have hname : (Path.ofString name).name? = some name := by rw [hpath]; rfl
  have hparent : (Path.ofString name).parent = ⟨.here, []⟩ := by rw [hpath]; rfl
  have hmake : w.makeDirectories (Path.ofString name).parent = (w, .ok ()) := by
    rw [hparent, Place.makeDirectories, List.reverse_nil, Place.makeDirectoriesFrom, hhere]
    rfl
  exact save_eq_replace htext hname (by rw [hparent]; decide +kernel) hnul hmake hhalf

/-! ### When the draft stays -/

/-- **Whether the draft can be opened**: the path has a name, no NUL is in the way, and the
directories and then the file can be made. -/
def Place.Opens (w : Place) (process : Nat) (p : Path) : Prop :=
  ∃ name between opened, p.name? = some name ∧ Path.holdsNul p.parent.text = false ∧
    Path.holdsNul name = false ∧ w.makeDirectories p.parent = (between, .ok ()) ∧
    between.writeFile (temporary process p name) .empty = .ok opened

/-- **Whether a value leaves its draft**: the draft can be opened, and of the strings and keys of
the value one has a half in it, so that its text, if it has one, has no bytes. -/
def Place.Drafts (w : Place) (process : Nat) (path : String) (value : Json) : Prop :=
  w.Opens process (Path.ofString path) ∧ value.writable = true ∧
    ∃ s ∈ value.strings, w.codec.HasHalf s

/-- Once there are bytes, that there are none is no reason to fail. -/
theorem replace_ne_notEncoded (w : Place) (temp p : Path) (content : ByteArray)
    (cause : Text.Unencodable) : (replace w temp p content).2 ≠ .error (.notEncoded cause) := by
  unfold replace
  -- both faults are of the system
  cases w.writeFile temp content with
  | error fault => exact nofun
  | ok written =>
    simp only
    cases written.renameFile temp p with
    | error fault => exact nofun
    | ok moved => exact nofun

/-- **A draft fails for want of bytes** if it can be opened, and is not even opened otherwise. -/
theorem draft_eq_notEncoded_iff {temp : Path} {content : String} {cause : Text.Unencodable} :
    (draft w temp p content).2 = .error (.notEncoded cause) ↔
      w.codec.encode content = .error cause ∧ ∃ opened, w.writeFile temp .empty = .ok opened := by
  unfold draft
  cases w.codec.encode content with
  | ok bytes =>
    refine ⟨fun h => absurd h (replace_ne_notEncoded w temp p bytes cause), ?_⟩
    rintro ⟨h, -⟩
    cases h
  | error cause' =>
    simp only
    cases w.writeFile temp .empty with
    -- a fault that comes first hides that there are no bytes
    | error fault =>
      refine ⟨fun h => ?_, ?_⟩
      · cases h
      · rintro ⟨-, opened, h⟩
        cases h
    | ok opened => simp

/-- The same of a text that is laid at a path. -/
theorem lay_eq_notEncoded_iff {content : String} {cause : Text.Unencodable}
    (hname : p.name? = some name) :
    (lay w process p name content).2 = .error (.notEncoded cause) ↔
      w.Opens process p ∧ w.codec.encode content = .error cause := by
  have hcodec := (Place.makeDirectories_keeps w p.parent).codec
  unfold lay Place.Opens
  simp only [hname, Option.some.injEq, ↓existsAndEq]
  cases hmake : w.makeDirectories p.parent with
  | mk between made =>
    rw [hmake] at hcodec
    by_cases hnul : Path.holdsNul p.parent.text = true
    · simp [hnul]
    · by_cases hnul' : Path.holdsNul name = true
      · simp [hnul, hnul']
      · cases made with
        | error fault => simp [hnul, hnul', giveUp]
        | ok _ =>
          -- the directories are made, and the codec is as before
          simp only [hnul, hnul', Bool.false_eq_true, if_false]
          rw [draft_eq_notEncoded_iff, hcodec]
          simp [and_comm]

/-- **When a draft stays.** A save fails for want of bytes exactly if the draft of its path can be
opened and a string or a key of the value has a half in it. -/
theorem exists_save_eq_notEncoded_iff {path : String} {value : Json} :
    (∃ cause, (save w process path value).2 = .error (.notEncoded cause)) ↔
      w.Drafts process path value := by
  unfold save Place.Drafts
  simp only
  cases hname : (Path.ofString path).name? with
  | none =>
    -- a path without a name has no draft
    have hopens : ¬ w.Opens process (Path.ofString path) := by
      rintro ⟨name, between, opened, h, -⟩
      cases hname.symm.trans h
    simp [hopens]
  | some name =>
    have hwritable := Json.exists_text_eq_ok_iff (d := value)
    cases htext : value.text with
    | error e =>
      have hnone : ¬ value.writable = true := by simp [← hwritable, htext]
      simp [hnone]
    | ok content =>
      simp only [lay_eq_notEncoded_iff hname, exists_and_left, hwritable.mp ⟨content, htext⟩,
        true_and]
      rw [Text.Codec.exists_encode_eq_error_iff, Json.hasHalf_text_iff htext]

end Blocklist
