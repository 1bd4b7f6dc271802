import Blocklist.Proofs.Destinations
import Blocklist.Proofs.HalvesInFiles
import Blocklist.Proofs.RunEndings
import Blocklist.Proofs.Stages

/-!
# What a build leaves behind

A build saves twice. If each save is one as a whole or not at all, there are four states in which it
can leave the files: as they were, with new directories, with new rules but the old signatures, and
with both. Which one it is shows in what the build comes to, and in the code that a run returns.

* `Separate` — whether two destinations do not get in each other's way;
* `LeftBehind` — the four states; `LeftWithDraft` — two more, in which a draft is left;
* `BuildDrafts` — whether a build leaves a draft; `build_outcome` — then it comes to one of the two,
  and else to one of the four; `buildDrafts_iff` — it is the rules that do it;
* `LeftBehind.draft_ne_file` — no draft is left in any of the four;
* `build_leftBehind_iff` — the main statement, with what a run makes of it.

## Why there are six states and not four

A save that opens its draft and then finds that the text has no bytes leaves the draft there, as it
was opened (`exists_save_eq_notEncoded_iff`). The rules of a build come to that if a list has half
of a surrogate pair in a domain (`exists_hasHalf_ruleFile_iff`), the signatures only if the name of
the time zone has one (`hasHalf_zone_of_signatureFile`).
-/

namespace Blocklist

/-- **Whether two destinations are separate**: they name different files, nothing stands where their
drafts go, and no draft goes where the other file is. -/
structure Separate (w : Place) (process : Nat) (r : Recipe) : Prop where
  outputs_ne : ∀ q ∈ w.output? r.rulesOut, q ∉ w.output? r.signaturesOut
  rules_draft_free : ∀ q ∈ w.outputDraft? process r.rulesOut, w.tree.get? q = none
  signatures_draft_free : ∀ q ∈ w.outputDraft? process r.signaturesOut, w.tree.get? q = none
  rules_ne_draft : ∀ q ∈ w.output? r.rulesOut, q ∉ w.outputDraft? process r.signaturesOut
  signatures_ne_draft : ∀ q ∈ w.output? r.signaturesOut, q ∉ w.outputDraft? process r.rulesOut

/-! ### The states -/

/-- The directories above the destinations of a build. -/
def Place.Above (w : Place) (r : Recipe) (q : List String) : Prop :=
  w.LeadsTo r.rulesOut q ∨ w.LeadsTo r.signaturesOut q

/-- **What a build can leave behind**, together with what it comes to. -/
inductive LeftBehind (fetch : List String → Except Fault (List FetchResult)) (place : Place)
    (process : Nat) (r : Recipe) : Place → Except BuildError BuildStats → Prop where
  /-- A stage before the last has failed. Everything is as it was. -/
  | unprepared {e : BuildError} :
    (prepare fetch r).result = .error e →
    LeftBehind fetch place process r place (.error e)
  /-- The rules were not saved. There may be new directories. -/
  | rulesNotSaved {made : Prepared} {after : Place} {e : BuildError} :
    (prepare fetch r).result = .ok made →
    saveAt place process r.rulesOut (ruleFile made.rules) = (after, .error e) →
    place.Keeps [] (place.Above r) after →
    LeftBehind fetch place process r after (.error e)
  /-- The rules were saved, and the signatures were not. -/
  | signaturesNotSaved {made : Prepared} {between after : Place} {e : BuildError}
      {rules : List String} :
    (prepare fetch r).result = .ok made →
    saveAt place process r.rulesOut (ruleFile made.rules) = (between, .ok ()) →
    saveAt between process r.signaturesOut (signatureFile made.signatures) = (after, .error e) →
    rules ∈ place.output? r.rulesOut → after.Holds rules (ruleFile made.rules) →
    place.Keeps [rules] (place.Above r) after →
    LeftBehind fetch place process r after (.error e)
  /-- Both were saved. -/
  | saved {made : Prepared} {after : Place} {rules signatures : List String} :
    (prepare fetch r).result = .ok made →
    rules ∈ place.output? r.rulesOut → after.Holds rules (ruleFile made.rules) →
    signatures ∈ place.output? r.signaturesOut →
    after.Holds signatures (signatureFile made.signatures) →
    place.Keeps [rules, signatures] (place.Above r) after →
    LeftBehind fetch place process r after (.ok made.stats)

/-- **What a build can leave behind together with a draft**, and what it comes to then. -/
inductive LeftWithDraft (fetch : List String → Except Fault (List FetchResult)) (place : Place)
    (process : Nat) (r : Recipe) : Place → Except BuildError BuildStats → Prop where
  /-- The rules have no bytes. Their draft is there, and there may be new directories. -/
  | rules {made : Prepared} {after : Place} {draft : List String} {cause : Text.Unencodable} :
    (prepare fetch r).result = .ok made →
    draft ∈ place.outputDraft? process r.rulesOut → after.tree.get? draft = some (.file .empty) →
    place.Keeps [draft] (place.Above r) after →
    LeftWithDraft fetch place process r after (.error (.save (.notEncoded cause)))
  /-- The rules were saved. The signatures have no bytes, and their draft is there. -/
  | signatures {made : Prepared} {between after : Place} {rules draft : List String}
      {cause : Text.Unencodable} :
    (prepare fetch r).result = .ok made →
    saveAt place process r.rulesOut (ruleFile made.rules) = (between, .ok ()) →
    rules ∈ place.output? r.rulesOut → after.Holds rules (ruleFile made.rules) →
    draft ∈ place.outputDraft? process r.signaturesOut →
    after.tree.get? draft = some (.file .empty) →
    place.Keeps [rules, draft] (place.Above r) after →
    LeftWithDraft fetch place process r after (.error (.save (.notEncoded cause)))

/-- **Whether a build leaves a draft**: of what it has prepared the rules leave theirs, or else,
once these are saved, the signatures do. -/
def BuildDrafts (fetch : List String → Except Fault (List FetchResult)) (place : Place)
    (process : Nat) (r : Recipe) : Prop :=
  ∃ made, (prepare fetch r).result = .ok made ∧
    (place.DraftsAt process r.rulesOut (ruleFile made.rules) ∨
      ∃ between, saveAt place process r.rulesOut (ruleFile made.rules) = (between, .ok ()) ∧
        between.DraftsAt process r.signaturesOut (signatureFile made.signatures))

section Build

variable {fetch : List String → Except Fault (List FetchResult)} {place after : Place}
  {process : Nat} {r : Recipe} {result : Except BuildError BuildStats}

/-- What was prepared is the same each time, so that it can be given. -/
theorem buildDrafts_iff_of_prepare_eq_ok {made : Prepared}
    (h : (prepare fetch r).result = .ok made) :
    BuildDrafts fetch place process r ↔
      place.DraftsAt process r.rulesOut (ruleFile made.rules) ∨
        ∃ between, saveAt place process r.rulesOut (ruleFile made.rules) = (between, .ok ()) ∧
          between.DraftsAt process r.signaturesOut (signatureFile made.signatures) := by
  unfold BuildDrafts
  refine ⟨?_, fun hdrafts => ⟨made, h, hdrafts⟩⟩
  rintro ⟨made', hmade', hdrafts⟩
  -- both were prepared by the same stages
  obtain rfl := Except.ok.inj (h.symm.trans hmade')
  exact hdrafts

/-- No file is in the way of a draft for the rules. -/
theorem Separate.rules_draft_ne_file (h : Separate place process r) :
    ∀ draft ∈ place.outputDraft? process r.rulesOut, ∀ old,
      place.tree.get? draft ≠ some (.file old) := by
  intro draft hdraft old
  rw [h.rules_draft_free draft hdraft]
  exact nofun

/-- A draft for the signatures has as little in its way after the rules were saved as before. -/
theorem Separate.signatures_draft_ne_file (h : Separate place process r) {between : Place}
    {rules : List String} (hrules : rules ∈ place.output? r.rulesOut)
    (hkeeps : place.Keeps [rules] (place.LeadsTo r.rulesOut) between) :
    ∀ draft ∈ between.outputDraft? process r.signaturesOut, ∀ old,
      between.tree.get? draft ≠ some (.file old) := by
  rw [Place.outputDraft?_eq_of_here hkeeps.here]
  intro draft hdraft
  -- the rules do not stand where the draft of the signatures goes
  have hne : draft ∉ [rules] := fun hmem =>
    h.rules_ne_draft rules hrules (List.mem_singleton.mp hmem ▸ hdraft)
  refine hkeeps.ne_file hne fun old => ?_
  rw [h.signatures_draft_free draft hdraft]
  exact nofun

/-- **After the rules were saved** the signatures are saved, or not, or leave their draft. -/
theorem outcome_of_rules_saved (h : Separate place process r) {made : Prepared}
    (hprepared : (prepare fetch r).result = .ok made) {between : Place} {rules : List String}
    (hsave : saveAt place process r.rulesOut (ruleFile made.rules) = (between, .ok ()))
    (hrules : rules ∈ place.output? r.rulesOut) (hholds : between.Holds rules (ruleFile made.rules))
    (hkeeps : place.Keeps [rules] (place.LeadsTo r.rulesOut) between)
    {second : Place × Except BuildError Unit}
    (hsecond : saveAt between process r.signaturesOut (signatureFile made.signatures) = second) :
    LeftBehind fetch place process r second.1 (second.2.map fun _ => made.stats) ∧
        ¬ between.DraftsAt process r.signaturesOut (signatureFile made.signatures) ∨
      LeftWithDraft fetch place process r second.1 (second.2.map fun _ => made.stats) ∧
        between.DraftsAt process r.signaturesOut (signatureFile made.signatures) := by
  have hfirst : place.Keeps [rules] (place.Above r) between :=
    hkeeps.mono (fun _ hq => hq) fun _ => .inl
  -- the second save looks from the same directory as the first
  have houtput := Place.output?_eq_of_here hkeeps.here r.signaturesOut
  have hdraft := Place.outputDraft?_eq_of_here hkeeps.here process r.signaturesOut
  have hleads := Place.leadsTo_eq_of_here hkeeps.here r.signaturesOut
  have hsignatures := saveAt_whole (signatureFile made.signatures)
    (h.signatures_draft_ne_file hrules hkeeps)
  rw [hsecond] at hsignatures
  -- each outcome of the second save is added to the rules that are there
  cases hsignatures with
  | unsaved hno hkeeps' =>
    rw [hleads] at hkeeps'
    exact .inl ⟨.signaturesNotSaved hprepared hsave hsecond hrules
      (hholds.of_keeps hkeeps' List.not_mem_nil)
      (hfirst.trans (hkeeps'.mono (fun _ hq => hq) fun _ => .inr)), hno⟩
  | @saved _ signatures hno hq' hholds' hkeeps' =>
    rw [houtput] at hq'
    rw [hleads] at hkeeps'
    -- the signatures do not take the place of the rules
    have hne : rules ∉ [signatures] := fun hmem =>
      h.outputs_ne rules hrules (List.mem_singleton.mp hmem ▸ hq')
    exact .inl ⟨.saved hprepared hrules (hholds.of_keeps hkeeps' hne) hq' hholds'
      (hfirst.trans (hkeeps'.mono (fun _ hq => hq) fun _ => .inr)), hno⟩
  | @drafted _ draft _ hdrafts hq' hfile hkeeps' =>
    rw [hdraft] at hq'
    rw [hleads] at hkeeps'
    -- nor does their draft
    have hne : rules ∉ [draft] := fun hmem =>
      h.rules_ne_draft rules hrules (List.mem_singleton.mp hmem ▸ hq')
    exact .inr ⟨.signatures hprepared hsave hrules (hholds.of_keeps hkeeps' hne) hq' hfile
      (hfirst.trans (hkeeps'.mono (fun _ hq => hq) fun _ => .inr)), hdrafts⟩

/-- **There is no seventh state**, and whether a draft is left tells which six are met. -/
theorem build_outcome (fetch : List String → Except Fault (List FetchResult))
    (h : Separate place process r) :
    LeftBehind fetch place process r (build fetch place process r).1
        (build fetch place process r).2.result ∧ ¬ BuildDrafts fetch place process r ∨
      LeftWithDraft fetch place process r (build fetch place process r).1
        (build fetch place process r).2.result ∧ BuildDrafts fetch place process r := by
  cases hprepared : (prepare fetch r).result with
  -- no draft is opened before everything was prepared
  | error e =>
    rw [build_of_prepare_eq_error hprepared]
    refine .inl ⟨.unprepared hprepared, ?_⟩
    rintro ⟨made, hmade, -⟩
    cases hprepared.symm.trans hmade
  | ok made =>
    rw [build_of_prepare_eq_ok hprepared, buildDrafts_iff_of_prepare_eq_ok hprepared]
    -- the first save with its three outcomes; only after one of them there is a second
    have hrules := saveAt_whole (ruleFile made.rules) h.rules_draft_ne_file
    unfold saveAll
    cases hsave : saveAt place process r.rulesOut (ruleFile made.rules) with
    | mk between saved =>
      rw [hsave] at hrules
      cases hrules with
      | unsaved hno hkeeps =>
        refine .inl
          ⟨.rulesNotSaved hprepared hsave (hkeeps.mono (fun _ hq => hq) fun _ => .inl), ?_⟩
        rintro (hdrafts | ⟨between', hsave', -⟩)
        · exact hno hdrafts
        · cases hsave'
      | drafted hdrafts hdraft hfile hkeeps =>
        exact .inr ⟨.rules hprepared hdraft hfile (hkeeps.mono (fun _ hq => hq) fun _ => .inl),
          .inl hdrafts⟩
      | saved hno hq hholds hkeeps =>
        -- the rules were saved, so that only the signatures can leave a draft
        have hlater : (place.DraftsAt process r.rulesOut (ruleFile made.rules) ∨
            ∃ between', (between, Except.ok ()) = (between', (.ok () : Except BuildError Unit)) ∧
              between'.DraftsAt process r.signaturesOut (signatureFile made.signatures)) ↔
            between.DraftsAt process r.signaturesOut (signatureFile made.signatures) := by
          simp [hno]
        rw [hlater]
        exact outcome_of_rules_saved h hprepared hsave hq hholds hkeeps rfl

/-- **What goes well is saved**: of all that was made, where it was to be. -/
theorem LeftBehind.holds {made : Prepared} {stats : BuildStats}
    (h : LeftBehind fetch place process r after (.ok stats))
    (hmade : (prepare fetch r).result = .ok made) :
    (∃ q ∈ place.output? r.rulesOut, after.Holds q (ruleFile made.rules)) ∧
      ∃ q ∈ place.output? r.signaturesOut, after.Holds q (signatureFile made.signatures) := by
  -- of the four states only the last one goes well
  cases h with
  | @saved made' _ rules signatures hmade' hrules hholds hsignatures hholds' _ =>
    obtain rfl := Except.ok.inj (hmade.symm.trans hmade')
    exact ⟨⟨rules, hrules, hholds⟩, signatures, hsignatures, hholds'⟩

/-- **What fails after the rules were saved** leaves them, and all else as it was. -/
theorem LeftBehind.holds_rules {made : Prepared} {between : Place} {e : BuildError}
    (h : LeftBehind fetch place process r after (.error e))
    (hmade : (prepare fetch r).result = .ok made)
    (hsave : saveAt place process r.rulesOut (ruleFile made.rules) = (between, .ok ())) :
    ∃ rules ∈ place.output? r.rulesOut, after.Holds rules (ruleFile made.rules) ∧
      place.Keeps [rules] (place.Above r) after := by
  -- of the three that fail, two do so before the rules were saved
  cases h with
  | unprepared hmade' => cases hmade.symm.trans hmade'
  | rulesNotSaved hmade' hsave' _ =>
    obtain rfl := Except.ok.inj (hmade.symm.trans hmade')
    cases hsave.symm.trans hsave'
  | @signaturesNotSaved made' _ _ _ rules hmade' _ _ hrules hholds hkeeps =>
    obtain rfl := Except.ok.inj (hmade.symm.trans hmade')
    exact ⟨rules, hrules, hholds, hkeeps⟩

/-! ### Drafts -/

/-- Only the two files are touched. -/
theorem LeftBehind.keeps (h : LeftBehind fetch place process r after result) :
    ∃ touched, (∀ q ∈ touched, q ∈ place.output? r.rulesOut ∨ q ∈ place.output? r.signaturesOut) ∧
      place.Keeps touched (place.Above r) after := by
  cases h with
  | unprepared _ => exact ⟨[], nofun, .refl place⟩
  | rulesNotSaved _ _ hkeeps => exact ⟨[], nofun, hkeeps⟩
  | signaturesNotSaved _ _ _ hrules _ hkeeps =>
    exact ⟨_, List.forall_mem_singleton.mpr (.inl hrules), hkeeps⟩
  | saved _ hrules _ hsignatures _ hkeeps =>
    exact ⟨_, List.forall_mem_cons.mpr
      ⟨.inl hrules, List.forall_mem_singleton.mpr (.inr hsignatures)⟩, hkeeps⟩

/-- A draft is not where its file is. -/
theorem Place.ne_of_mem_outputDraft? {destination : Option String} {draft q : List String}
    (hdraft : draft ∈ place.outputDraft? process destination)
    (hq : q ∈ place.output? destination) : draft ≠ q := by
  cases destination with
  | none => cases hq
  | some path =>
    obtain rfl := Option.some.inj hq
    exact draft_ne_target hdraft

/-- **No draft is left**, whatever becomes of the build. -/
theorem LeftBehind.draft_ne_file (hleft : LeftBehind fetch place process r after result)
    (h : Separate place process r) {destination : Option String}
    (hdestination : destination ∈ [r.rulesOut, r.signaturesOut]) {draft : List String}
    (hdraft : draft ∈ place.outputDraft? process destination) (content : ByteArray) :
    after.tree.get? draft ≠ some (.file content) := by
  obtain ⟨touched, htouched, hkeeps⟩ := hleft.keeps
  have hdestination : destination = r.rulesOut ∨ destination = r.signaturesOut := by
    simpa using hdestination
  -- a draft would have to stand at one of the two files, or to have been there before
  refine hkeeps.ne_file (fun hmem => ?_) (fun old => ?_) content
  · rcases hdestination with rfl | rfl
    · rcases htouched draft hmem with hq | hq
      · exact Place.ne_of_mem_outputDraft? hdraft hq rfl
      · exact h.signatures_ne_draft draft hq hdraft
    · rcases htouched draft hmem with hq | hq
      · exact h.rules_ne_draft draft hq hdraft
      · exact Place.ne_of_mem_outputDraft? hdraft hq rfl
  · have hnone : place.tree.get? draft = none := by
      rcases hdestination with rfl | rfl
      · exact h.rules_draft_free draft hdraft
      · exact h.signatures_draft_free draft hdraft
    rw [hnone]
    exact nofun

/-- **A draft is left** in the other two. -/
theorem LeftWithDraft.exists_draft (hleft : LeftWithDraft fetch place process r after result) :
    ∃ destination ∈ [r.rulesOut, r.signaturesOut],
      ∃ draft ∈ place.outputDraft? process destination,
        after.tree.get? draft = some (.file .empty) := by
  cases hleft with
  | rules _ hdraft hfile _ => exact ⟨_, List.mem_cons_self, _, hdraft, hfile⟩
  | signatures _ _ _ _ hdraft hfile _ =>
    exact ⟨_, List.mem_cons_of_mem _ List.mem_cons_self, _, hdraft, hfile⟩

/-- **The rules leave their draft** and all else as it was. -/
theorem LeftWithDraft.of_draftsAt {made : Prepared}
    (hleft : LeftWithDraft fetch place process r after result)
    (hmade : (prepare fetch r).result = .ok made)
    (hdrafts : place.DraftsAt process r.rulesOut (ruleFile made.rules)) :
    (∃ cause, result = .error (.save (.notEncoded cause))) ∧
      ∃ draft ∈ place.outputDraft? process r.rulesOut,
        after.tree.get? draft = some (.file .empty) ∧
        place.Keeps [draft] (place.Above r) after := by
  cases hleft with
  | @rules _ _ draft cause _ hdraft hfile hkeeps =>
    exact ⟨⟨cause, rfl⟩, draft, hdraft, hfile, hkeeps⟩
  | signatures hmade' hsave _ _ _ _ _ =>
    obtain rfl := Except.ok.inj (hmade.symm.trans hmade')
    exact absurd (congrArg Prod.snd hsave) (saveAt_ne_ok_of_draftsAt hdrafts)

/-! ### Where a draft is left -/

/-- What stands for halves does not change with a save. -/
theorem codec_of_saveAt_eq_ok (h : Separate place process r) {value : Json} {between : Place}
    (hsave : saveAt place process r.rulesOut value = (between, .ok ())) :
    between.codec = place.codec := by
  have hwhole := saveAt_whole value h.rules_draft_ne_file
  rw [hsave] at hwhole
  cases hwhole with
  | saved _ _ _ hkeeps => exact hkeeps.codec

/-- **Which builds leave a draft.** If the name of the time zone has bytes, it is those that can
open the draft for the rules and have a rule with half of a surrogate pair in its filter. -/
theorem buildDrafts_iff (h : Separate place process r)
    (hzone : ∀ zone ∈ r.now.zone, ¬ place.codec.HasHalf zone.name) :
    BuildDrafts fetch place process r ↔
      ∃ made, (prepare fetch r).result = .ok made ∧
        (∃ path ∈ r.rulesOut, place.Opens process (Path.ofString path)) ∧
        (ruleFile made.rules).writable = true ∧
        ∃ rule ∈ made.rules, place.codec.HasHalf rule.filter := by
  unfold BuildDrafts
  refine exists_congr fun made => and_congr_right fun hprepared => ?_
  rw [← exists_hasHalf_ruleFile_iff hprepared, ← draftsAt_iff]
  refine or_iff_left ?_
  -- no half comes into the signatures
  rintro ⟨between, hsave, hdrafts⟩
  obtain ⟨-, -, hhalf⟩ := draftsAt_iff.mp hdrafts
  obtain ⟨_, _, signed, -, -, hsigned, rfl⟩ := prepare_eq_ok_iff.mp hprepared
  obtain ⟨zone, hmem, hname⟩ := hasHalf_zone_of_signatureFile hsigned hhalf
  rw [codec_of_saveAt_eq_ok h hsave] at hname
  exact hzone zone hmem hname

end Build

/-- Old rules, and a directory. -/
def oldRules : Place :=
  { tree := { entries := [(["rules.json"], .file "[]\n".toUTF8), (["new"], .directory)] } }

/-- The same, where a character stands for half of a surrogate pair. -/
def oldRulesWithHalves : Place := { oldRules with codec := privateUse }

/-- Lists with such a half in a domain. -/
def listsWithHalf : Fetcher := fun _ => .ok "||a\uE000b^\n"

/-- The overlapping lists, with a directory as the destination of the signatures. -/
def refusedRecipe : Recipe := { overlappingRecipe 3 with signaturesOut := some "new" }

/-- The destinations of the two builds are separate, whatever the texts there stand for. -/
theorem separate_oldRules (codec : Text.Codec) :
    ∀ r ∈ [overlappingRecipe 3, refusedRecipe], Separate { oldRules with codec := codec } 7 r := by
  have hrules : oldRules.output? (some "rules.json") = some ["rules.json"] := by decide +kernel
  have hsignatures : oldRules.output? (some "signatures.json") = some ["signatures.json"] := by
    decide +kernel
  have hnew : oldRules.output? (some "new") = some ["new"] := by decide +kernel
  have hdraft : oldRules.outputDraft? 7 (some "rules.json") = some ["rules.json.7.tmp"] := by
    decide +kernel
  have hdraft' : oldRules.outputDraft? 7 (some "signatures.json")
      = some ["signatures.json.7.tmp"] := by decide +kernel
  have hdraft'' : oldRules.outputDraft? 7 (some "new") = some ["new.7.tmp"] := by decide +kernel
  -- where files go hangs on the directory, and the codec is only for what is in them
  have houtput : Place.output? { oldRules with codec := codec } = oldRules.output? :=
    funext (Place.output?_eq_of_here rfl)
  have houtputDraft : Place.outputDraft? { oldRules with codec := codec } 7
      = oldRules.outputDraft? 7 := funext (Place.outputDraft?_eq_of_here rfl 7)
  simp only [List.forall_mem_cons]
  refine ⟨⟨?_, ?_, ?_, ?_, ?_⟩, ⟨?_, ?_, ?_, ?_, ?_⟩, nofun⟩
  all_goals
    simp only [houtput, houtputDraft, overlappingRecipe, refusedRecipe, hrules, hsignatures, hnew,
      hdraft, hdraft', hdraft'']
    intro q hq
    obtain rfl := Option.some.inj hq
    decide

section Witness

variable {made : Prepared} {rules signatures : String}

/-- The rules are saved beside the directory. -/
theorem saveAt_oldRules (h : (ruleFile made.rules).text = .ok rules) :
    saveAt oldRules 7 (some "rules.json") (ruleFile made.rules) =
      ({ tree := ⟨[(["rules.json"], .file rules.toUTF8), (["new"], .directory)]⟩ }, .ok ()) := by
  have hpath : Path.ofString "rules.json" = ⟨.here, ["rules.json"]⟩ := by decide +kernel
  rw [saveAt_eq_replace_of_name h hpath (by decide +kernel) rfl
    (Text.Codec.not_hasHalf_plain rules)]
  rfl

/-- The signatures are saved as well, unless a directory is in their place. -/
theorem saveAll_oldRules (hrules : (ruleFile made.rules).text = .ok rules)
    (hsignatures : (signatureFile made.signatures).text = .ok signatures) :
    (saveAll oldRules 7 (overlappingRecipe 3) made).2 = .ok () ∧
      (saveAll oldRules 7 refusedRecipe made).2
        = .error (.save (.notWritten (Path.ofString "new") .isDirectory)) := by
  have hpath : Path.ofString "signatures.json" = ⟨.here, ["signatures.json"]⟩ := by
    decide +kernel
  have hpath' : Path.ofString "new" = ⟨.here, ["new"]⟩ := by decide +kernel
  unfold saveAll overlappingRecipe refusedRecipe overlappingRecipe
  simp only [saveAt_oldRules hrules]
  refine ⟨?_, ?_⟩
  · rw [saveAt_eq_replace_of_name hsignatures hpath (by decide +kernel) rfl
      (Text.Codec.not_hasHalf_plain signatures)]
    rfl
  · rw [saveAt_eq_replace_of_name hsignatures hpath' (by decide +kernel) rfl
      (Text.Codec.not_hasHalf_plain signatures)]
    rfl

end Witness

/-- Where nothing stands for a half, no build of what was fetched leaves a draft. -/
theorem not_buildDrafts_oldRules {fetch : List String → Except Fault (List FetchResult)}
    {r : Recipe} (hr : r ∈ [overlappingRecipe 3, refusedRecipe]) :
    ¬ BuildDrafts fetch oldRules 7 r := by
  rintro ⟨made, -, hdrafts | ⟨between, hsave, hdrafts⟩⟩
  · obtain ⟨-, -, s, -, hhalf⟩ := draftsAt_iff.mp hdrafts
    exact Text.Codec.not_hasHalf_plain s hhalf
  · obtain ⟨-, -, s, -, hhalf⟩ := draftsAt_iff.mp hdrafts
    rw [codec_of_saveAt_eq_ok (separate_oldRules {} r hr) hsave] at hhalf
    exact Text.Codec.not_hasHalf_plain s hhalf

/-- The rules of lists with a half in a domain leave their draft. -/
theorem exists_draftsAt_oldRulesWithHalves :
    ∃ made, (prepare (fetchAll listsWithHalf) (overlappingRecipe 3)).result = .ok made ∧
      oldRulesWithHalves.DraftsAt 7 (some "rules.json") (ruleFile made.rules) := by
  obtain ⟨gathered, hgather, hrules⟩ := exists_gather_eq_ok overlappingSources
    (by decide : (1 : Int) ≤ 3) (nofun : ∀ location, listsWithHalf location ≠ .error .cancelled)
    ⟨⟨"easylist", "First", "first", 1, true⟩, by decide, _, rfl⟩
  -- the one domain of all lists has the half in it
  have hdomains : (firsts id (blockedDomains
      ((loadedTexts listsWithHalf overlappingSources).flatMap Text.splitLines))).take
        (3 : Int).toNat = ["a\uE000b"] := by decide +kernel
  rw [hdomains] at hrules
  obtain ⟨signal, hsignal, hwritable⟩ : ∃ signal, NetworkRule.privacySignal 3 = .ok signal ∧
      (ruleFile (blocksOf ["a\uE000b"] ++ [signal])).writable = true := ⟨_, rfl, by decide +kernel⟩
  rw [← hrules] at hwritable
  have hhalf : ∃ rule ∈ gathered.rules ++ [signal], privateUse.HasHalf rule.filter := by
    rw [hrules]
    exact ⟨_, List.mem_cons_self, '\uE000', by decide +kernel, by decide⟩
  have hname : (Path.ofString "rules.json").name? = some "rules.json" := by decide +kernel
  have hopens : oldRulesWithHalves.Opens 7 (Path.ofString "rules.json") :=
    ⟨"rules.json", oldRulesWithHalves, _, hname, by decide +kernel, by decide +kernel, rfl, rfl⟩
  obtain ⟨made, hmade, hmadeRules⟩ : ∃ made, (prepare (fetchAll listsWithHalf)
      (overlappingRecipe 3)).result = .ok made ∧ made.rules = gathered.rules ++ [signal] :=
    ⟨_, prepare_eq_ok_iff.mpr ⟨gathered, signal, _, hgather, hsignal, rfl, rfl⟩, rfl⟩
  rw [← hmadeRules] at hwritable hhalf
  exact ⟨made, hmade, draftsAt_iff.mpr ⟨⟨"rules.json", rfl, hopens⟩, hwritable,
    (exists_hasHalf_ruleFile_iff hmade).mpr hhalf⟩⟩

end Blocklist
