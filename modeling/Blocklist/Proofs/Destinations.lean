import Blocklist.Build
import Blocklist.Proofs.Saving

/-!
# Destinations

A build saves where it is told to, or fails if it is told no place. So at a destination that may be
vacant saving has the three outcomes that it has at a path: the file is there as a whole, or all is
as it was, or the draft is left because the text has no bytes.

* `Place.output?`, `Place.outputDraft?` — the places of the file and of its draft;
* `Place.Holds` — whether a file holds the text of a value;
* `Place.DraftsAt` — whether a value leaves its draft; `draftsAt_iff` — when it does;
* `WholeAt` — the three outcomes; `saveAt_whole` — there is no other, and it is `Place.DraftsAt`
  that tells the third from the others.
-/

namespace Blocklist

/-! ### Places -/

namespace Place

/-- The place that a destination names. -/
def output? (w : Place) (destination : Option String) : Option (List String) :=
  destination.map fun path => w.target (Path.ofString path)

/-- Where the draft for a destination goes. -/
def outputDraft? (w : Place) (process : Nat) (destination : Option String) :
    Option (List String) :=
  destination.bind fun path => w.draft? process (Path.ofString path)

/-- The directories above a destination. -/
def LeadsTo (w : Place) (destination : Option String) (q : List String) : Prop :=
  ∃ path ∈ destination, w.LeadsThrough (Path.ofString path).parent q

/-- **Whether a value leaves its draft** at a destination that may be vacant. -/
def DraftsAt (w : Place) (process : Nat) (destination : Option String) (value : Json) : Prop :=
  ∃ path ∈ destination, w.Drafts process path value

/-- Whether a file holds the text of a value. -/
def Holds (w : Place) (q : List String) (value : Json) : Prop :=
  ∃ content, value.text = .ok content ∧ w.tree.get? q = some (.file content.toUTF8)

section Keeps

variable {w w' : Place}

/-- Where a destination is hangs on the working directory only. -/
theorem output?_eq_of_here (h : w'.here = w.here) (destination : Option String) :
    w'.output? destination = w.output? destination := by
  cases destination with
  | none => rfl
  | some path => exact congrArg some (target_eq_of_here h _)

/-- So does where its draft goes. -/
theorem outputDraft?_eq_of_here (h : w'.here = w.here) (process : Nat)
    (destination : Option String) :
    w'.outputDraft? process destination = w.outputDraft? process destination := by
  cases destination with
  | none => rfl
  | some path =>
    simp only [outputDraft?, Option.bind_some, draft?]
    cases (Path.ofString path).name? with
    | none => rfl
    | some name => exact congrArg some (target_eq_of_here h _)

/-- And so do the directories above it. -/
theorem leadsTo_eq_of_here (h : w'.here = w.here) (destination : Option String) :
    w'.LeadsTo destination = w.LeadsTo destination := by
  unfold LeadsTo
  simp only [leadsThrough_eq_of_here h]

/-- What a file holds it still holds where it is not touched. -/
theorem Holds.of_keeps {touched : List (List String)}
    {made : List String → Prop} {q : List String} {value : Json} (h : w.Holds q value)
    (hkeeps : w.Keeps touched made w') (hq : q ∉ touched) : w'.Holds q value := by
  obtain ⟨content, htext, hfile⟩ := h
  exact ⟨content, htext, hkeeps.get?_eq_some hq hfile⟩

end Keeps

end Place

/-! ### Saving there -/

/-- **When a value leaves its draft**: its draft can be opened, and it has a text with a half in
it. -/
theorem draftsAt_iff {w : Place} {process : Nat} {value : Json} {destination : Option String} :
    w.DraftsAt process destination value ↔
      (∃ path ∈ destination, w.Opens process (Path.ofString path)) ∧ value.writable = true ∧
        ∃ s ∈ value.strings, w.codec.HasHalf s := by
  unfold Place.DraftsAt Place.Drafts
  refine ⟨?_, ?_⟩
  · rintro ⟨path, hpath, hopens, hhalf⟩
    exact ⟨⟨path, hpath, hopens⟩, hhalf⟩
  · rintro ⟨⟨path, hpath, hopens⟩, hhalf⟩
    exact ⟨path, hpath, hopens, hhalf⟩

/-- **The outcomes of saving at a destination** that may be vacant. -/
inductive WholeAt (w : Place) (process : Nat) (destination : Option String) (value : Json) :
    Place × Except BuildError Unit → Prop where
  /-- The file holds the text. -/
  | saved {w' : Place} {q : List String} :
    ¬ w.DraftsAt process destination value → q ∈ w.output? destination → w'.Holds q value →
    w.Keeps [q] (w.LeadsTo destination) w' →
    WholeAt w process destination value (w', .ok ())
  /-- All is as it was. -/
  | unsaved {w' : Place} {e : BuildError} :
    ¬ w.DraftsAt process destination value → w.Keeps [] (w.LeadsTo destination) w' →
    WholeAt w process destination value (w', .error e)
  /-- The text has no bytes, and the draft is left as it was opened. -/
  | drafted {w' : Place} {draft : List String} {cause : Text.Unencodable} :
    w.DraftsAt process destination value → draft ∈ w.outputDraft? process destination →
    w'.tree.get? draft = some (.file .empty) → w.Keeps [draft] (w.LeadsTo destination) w' →
    WholeAt w process destination value (w', .error (.save (.notEncoded cause)))

/-- What leaves its draft is not saved. -/
theorem saveAt_ne_ok_of_draftsAt {w : Place} {process : Nat} {destination : Option String}
    {value : Json} (h : w.DraftsAt process destination value) :
    (saveAt w process destination value).2 ≠ .ok () := by
  obtain ⟨path, hpath, hdrafts⟩ := h
  obtain rfl := Option.mem_def.mp hpath
  -- it ends in the error that says so
  obtain ⟨cause, hcause⟩ := exists_save_eq_notEncoded_iff.mpr hdrafts
  unfold saveAt
  simp only [hcause]
  exact nofun

/-- **Saving at a destination** has three outcomes, if no file stands where the draft goes. -/
theorem saveAt_whole {w : Place} {process : Nat} {destination : Option String} (value : Json)
    (hfree : ∀ draft ∈ w.outputDraft? process destination, ∀ old,
      w.tree.get? draft ≠ some (.file old)) :
    WholeAt w process destination value (saveAt w process destination value) := by
  cases destination with
  | none =>
    -- nothing is ever drafted at no destination
    have hvacant : ¬ w.DraftsAt process none value := by
      rintro ⟨path, hpath, -⟩
      cases hpath
    exact .unsaved hvacant (.refl w)
  | some path =>
    have hleads : ∀ q, w.LeadsThrough (Path.ofString path).parent q →
        w.LeadsTo (some path) q := fun q hq => ⟨path, rfl, hq⟩
    have hdrafts : w.DraftsAt process (some path) value ↔ w.Drafts process path value := by
      simp [Place.DraftsAt]
    -- whether a draft is left shows in the error, and nowhere else
    have hnotEncoded : (∃ cause, (save w process path value).2 = .error (.notEncoded cause)) ↔
        w.Drafts process path value := exists_save_eq_notEncoded_iff
    have hwhole := save_whole value hfree
    unfold saveAt
    simp only
    cases hsave : save w process path value with
    | mk after saved =>
      rw [hsave] at hwhole hnotEncoded
      -- the outcomes of saving at a path, one by one
      cases hwhole with
      | saved htext hfile hkeeps =>
        refine .saved (fun h => ?_) rfl ⟨_, htext, hfile⟩ (hkeeps.mono (fun _ hq => hq) hleads)
        obtain ⟨cause, hcause⟩ := hnotEncoded.mpr (hdrafts.mp h)
        cases hcause
      | unsaved hother hkeeps =>
        refine .unsaved (fun h => ?_) (hkeeps.mono (fun _ hq => hq) hleads)
        obtain ⟨cause, hcause⟩ := hnotEncoded.mpr (hdrafts.mp h)
        exact hother cause (Except.error.inj hcause)
      | drafted hdraft hfile hkeeps =>
        exact .drafted (hdrafts.mpr (hnotEncoded.mp ⟨_, rfl⟩)) hdraft hfile
          (hkeeps.mono (fun _ hq => hq) hleads)

/-- **A save at a mere name** writes the draft and moves it, if the text has no half. -/
theorem saveAt_eq_replace_of_name {w : Place} {process : Nat} {name : String} {value : Json}
    {content : String} (htext : value.text = .ok content)
    (hpath : Path.ofString name = ⟨.here, [name]⟩) (hnul : Path.holdsNul name = false)
    (hhere : w.isDirectory ⟨.here, []⟩ = true) (hhalf : ¬ w.codec.HasHalf content) :
    saveAt w process (some name) value =
      ((Save.replace w (Save.temporary process (Path.ofString name) name) (Path.ofString name)
          content.toUTF8).1,
        ((Save.replace w (Save.temporary process (Path.ofString name) name) (Path.ofString name)
          content.toUTF8).2.mapError .save).map fun _ => ()) := by
  rw [← save_eq_replace_of_name htext hpath hnul hhere hhalf]
  rfl

end Blocklist
