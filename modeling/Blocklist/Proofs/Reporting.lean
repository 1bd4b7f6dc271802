import Blocklist.Proofs.Concurrency
import Blocklist.Proofs.Gathering

/-!
# What is reported of each source

Every enabled source is fetched once and reported on once, in the order of the registry. A source
that fails is blamed itself and no other, and gathering fails only if there is no list at all.

* `Reported` — what the report on a source says, by its fetch and its list;
  `reported_of_loadsAs` — it is what the source has come to;
* `gatherEnded` — what is gathered once all fetches have ended; `exists_gatherEnded_eq` — it is the
  merge of what the sources have come to;
* `mergeLoaded_eq_error` — there is nothing to merge only if nothing was loaded;
* `GatherError.IsUnavailable` — the errors which say that no source was loaded;
* `gather_reports` — the main statement, over every run of the fetches.

That reports and sources stay in step is `loadAll_eq_ok_iff`: sources are loaded one by one, and
neither a failed fetch nor a list without rules is left out.

## Fetches and locations

A report is about a fetch and not about a location. Two sources may have one location, and what is
there may have changed between their fetches, so that one of them has a list and the other has not.
So all is stated by the outcomes of the fetches, one for each source. For a fetcher that always
gives the same for a location they are what it gives.
-/

namespace Blocklist

/-! ### One report -/

/-- **The report on a source** under a cap, by what its fetch has come to. -/
structure Reported (cap : Int) (ended : Source × Except Fault String) (report : SourceReport) :
    Prop where
  source_eq : report.source = ended.1
  ok_iff : report.ok = true ↔ ∃ text, ended.2 = .ok text
  /-- A list is reported with its counts, and no reason. -/
  loaded : ∀ text, ended.2 = .ok text →
    ∃ parsed, parse (Text.splitLines text) cap = .ok parsed ∧ report.outcome = .ok parsed.counts ∧
      report.rules = parsed.rules.length ∧ report.reason? = none
  /-- A failure is reported with its reason, and without counts. -/
  failed : ∀ fault, ended.2 = .error fault →
    ∃ reason, fault.report? = some reason ∧ report.outcome = .error reason ∧ report.rules = 0 ∧
      report.reason? = some reason

/-- Every fault but a cancellation has a reason to be told. -/
theorem Fault.exists_report?_eq_some {fault : Fault} (h : fault ≠ .cancelled) :
    ∃ reason, fault.report? = some reason := by
  cases fault with
  | refusal _ reason => exact ⟨reason, rfl⟩
  | failure kind text => exact ⟨_, rfl⟩
  | cancelled => exact absurd rfl h

variable {cap : Int} {sources : List Source} {outcomes : List (Except Fault String)}

/-- **A source is reported on as it was loaded**, if its fetch was not cancelled. -/
theorem reported_of_loadsAs {source : Source} {outcome : Except Fault String} {loaded : Loaded}
    (hnone : outcome ≠ .error .cancelled)
    (h : LoadsAs cap (source, .told source.location outcome) loaded) :
    Reported cap (source, outcome) loaded.report := by
  cases outcome with
  | ok text =>
    cases h with
    -- a fetch that gave a text did not fail, and its list was parsed
    | failed hout => cases hout
    | parsed hout hparsed =>
      obtain rfl := Except.ok.inj hout
      refine ⟨rfl, ⟨fun _ => ⟨text, rfl⟩, fun _ => rfl⟩, fun text' htext' => ?_, nofun⟩
      obtain rfl := Except.ok.inj htext'
      exact ⟨_, hparsed, rfl, rulesEmitted_of_parse_eq_ok hparsed, rfl⟩
  | error fault =>
    -- only a cancellation would have no reason
    obtain ⟨reason, hreason⟩ : ∃ reason, fault.report? = some reason :=
      Fault.exists_report?_eq_some fun hcancelled => hnone (congrArg Except.error hcancelled)
    cases h with
    | parsed hout _ => cases hout
    | @failed _ _ told hout =>
      have htold : told = reason := by
        have heq := Except.error.inj hout
        rw [hreason] at heq
        exact heq.symm
      subst htold
      refine ⟨rfl, ⟨nofun, ?_⟩, nofun, fun fault' hfault' => ?_⟩
      · rintro ⟨text, htext⟩
        cases htext
      · obtain rfl := Except.error.inj hfault'
        exact ⟨told, hreason, rfl, rfl, rfl⟩

/-! ### All reports -/

/-- What is gathered once the fetches of a registry have ended, by their outcomes. -/
def gatherEnded (sources : List Source) (cap : Int) (outcomes : List (Except Fault String)) :
    Except GatherError Gathered :=
  (gatherFetched sources cap (settle ((wanted sources).zip outcomes))).result

/-- Gathering by a fetcher is gathering once all fetches have ended with what it gives. -/
theorem gather_fetchAll_eq_gatherEnded (fetch : Fetcher) (sources : List Source) (cap : Int) :
    (gather (fetchAll fetch) sources cap).result
      = gatherEnded sources cap ((wanted sources).map fetch) := by
  rw [gather, gatherEnded, fetchAll, List.map_prod_left_eq_zip]

/-- The sources that are fetched, each with what its fetch has come to. -/
def endedSources (sources : List Source) (outcomes : List (Except Fault String)) :
    List (Source × Except Fault String) :=
  (enabledSources sources).zip outcomes

/-- The sources that have ended are those that were to be fetched, in their order. -/
theorem map_fst_endedSources (hlength : outcomes.length = (wanted sources).length) :
    (endedSources sources outcomes).map Prod.fst = enabledSources sources := by
  rw [wanted, List.length_map] at hlength
  exact List.map_fst_zip hlength.ge

/-- And no outcome is left over. -/
theorem map_snd_endedSources (hlength : outcomes.length = (wanted sources).length) :
    (endedSources sources outcomes).map Prod.snd = outcomes := by
  rw [wanted, List.length_map] at hlength
  exact List.map_snd_zip hlength.le

/-- What is told of some fetches belongs to the sources that they were for. -/
theorem zip_map_told (chosen : List Source) (outcomes : List (Except Fault String)) :
    chosen.zip (((chosen.map Source.location).zip outcomes).map fun entry =>
        FetchResult.told entry.1 entry.2) =
      (chosen.zip outcomes).map fun ended => (ended.1, .told ended.1.location ended.2) := by
  induction chosen generalizing outcomes with
  | nil => rfl
  | cons source chosen ih =>
    cases outcomes with
    | nil => rfl
    | cons outcome outcomes =>
      simp only [List.map_cons, List.zip_cons_cons]
      -- the first source with the first outcome, and then the others
      rw [ih]

/-- **Without a cancellation** what is gathered is the merge of what all the sources have come
to. -/
theorem exists_gatherEnded_eq (sources : List Source) (hcap : 1 ≤ cap)
    (hnone : .error .cancelled ∉ outcomes) :
    ∃ loaded, List.Forall₂ (LoadsAs cap)
        ((endedSources sources outcomes).map fun ended =>
          (ended.1, .told ended.1.location ended.2)) loaded ∧
      gatherEnded sources cap outcomes = (mergeLoaded cap loaded).result := by
  -- each fetch has a result, as none was cancelled
  have hentry : ∀ entry ∈ (wanted sources).zip outcomes, entry.2 ≠ .error .cancelled := by
    intro entry hentry hcancelled
    exact hnone (hcancelled ▸ (List.of_mem_zip hentry).2)
  unfold gatherEnded endedSources
  rw [settle_eq_ok hentry, ← zip_map_told]
  exact exists_gatherFetched_eq_mergeLoaded sources hcap _

/-- **One report for each source**, in their order. -/
theorem forall₂_reported {loaded : List Loaded} (hnone : .error .cancelled ∉ outcomes)
    (h : List.Forall₂ (LoadsAs cap) ((endedSources sources outcomes).map fun ended =>
      (ended.1, .told ended.1.location ended.2)) loaded) :
    List.Forall₂ (Reported cap) (endedSources sources outcomes) (loaded.map Loaded.report) := by
  rw [List.forall₂_map_left_iff] at h
  rw [List.forall₂_map_right_iff]
  refine List.forall₂_iff_zip.mpr ⟨h.length_eq, fun hmem => ?_⟩
  -- a source that was loaded is one whose fetch has ended
  have hended := (List.of_mem_zip hmem).1
  refine reported_of_loadsAs (fun hcancelled => ?_) ((List.forall₂_iff_zip.mp h).2 hmem)
  exact hnone (hcancelled ▸ (List.of_mem_zip hended).2)

/-- A source has rules exactly if the report on it is good. -/
theorem isSome_rules?_of_loadsAs {fetched : Source × FetchResult} {loaded : Loaded}
    (h : LoadsAs cap fetched loaded) : loaded.rules?.isSome = loaded.report.ok := by
  cases h with
  | failed _ => rfl
  | parsed _ _ => rfl

/-- **As many sets as good reports.** -/
theorem length_sets_eq_countP {fetched : List (Source × FetchResult)} {loaded : List Loaded}
    (h : List.Forall₂ (LoadsAs cap) fetched loaded) :
    (loaded.filterMap Loaded.rules?).length =
      (loaded.map Loaded.report).countP SourceReport.ok := by
  induction h with
  | nil => rfl
  | cons hfirst _ ih =>
    have hsome := isSome_rules?_of_loadsAs hfirst
    rw [List.length_filterMap_eq_countP] at ih ⊢
    rw [List.map_cons, List.countP_cons, List.countP_cons, ih, hsome]

/-! ### When gathering fails -/

/-- **The errors that say that no source was loaded.** -/
def GatherError.IsUnavailable : GatherError → Prop
  | .noSources | .allFailed _ => True
  | .fetch _ | .parse _ => False

/-- **Nothing to merge** is the only error there is in merging. -/
theorem mergeLoaded_eq_error {loaded : List Loaded} {e : GatherError}
    (h : (mergeLoaded cap loaded).result = .error e) :
    loaded.filterMap Loaded.rules? = [] ∧ e.IsUnavailable := by
  unfold mergeLoaded at h
  simp only at h
  -- without a set, the sources have failed or there was none; with one, nothing fails
  split_ifs at h with hempty hnone
  · obtain rfl := Except.error.inj h
    exact ⟨List.isEmpty_iff.mp hempty, trivial⟩
  · obtain rfl := Except.error.inj h
    exact ⟨List.isEmpty_iff.mp hempty, trivial⟩
  · cases h

/-- The texts of the ended fetches are those among the outcomes, as there is one for each source. -/
theorem textsOf_ended (hlength : outcomes.length = (wanted sources).length) :
    textsOf ((endedSources sources outcomes).map fun ended =>
        (ended.1, .told ended.1.location ended.2)) = outcomes.filterMap Except.toOption := by
  unfold textsOf
  rw [List.filterMap_map]
  calc (endedSources sources outcomes).filterMap (fun ended =>
        (FetchResult.told ended.1.location ended.2).outcome.toOption)
      = (endedSources sources outcomes).filterMap (fun ended => ended.2.toOption) := by
        simp only [FetchResult.toOption_outcome_told]
    _ = ((endedSources sources outcomes).map Prod.snd).filterMap Except.toOption := by
        rw [List.filterMap_map]
        rfl
    _ = outcomes.filterMap Except.toOption := by rw [map_snd_endedSources hlength]

/-- There is a set to merge if and only if a fetch gave a list. -/
theorem sets_eq_nil_iff {loaded : List Loaded}
    (hlength : outcomes.length = (wanted sources).length)
    (h : List.Forall₂ (LoadsAs cap) ((endedSources sources outcomes).map fun ended =>
      (ended.1, .told ended.1.location ended.2)) loaded) :
    loaded.filterMap Loaded.rules? = [] ↔ ∀ text, .ok text ∉ outcomes := by
  -- a set for each text, so that there is none without the other
  rw [sets_of_loadsAs h, textsOf_ended hlength, List.map_eq_nil_iff, List.filterMap_eq_nil_iff]
  refine ⟨fun hnone text hmem => ?_, fun hnone outcome hmem => ?_⟩
  · cases hnone _ hmem
  · cases outcome with
    | ok text => exact absurd hmem (hnone text)
    | error fault => rfl

/-! ### Every run -/

/-- **Source failures are fatal only when total.** Let the cap be positive. The fetches of a
registry can run to their end under any number of permits, with any outcomes. Let them have done so
in any way, and let none have been cancelled. Then each source that is on and known was called for
once, in the order of the registry, and no other was; the outcomes are what these calls ended with,
and if a fetcher has answered them they are what it gives, and so is what is gathered. Gathering
fails exactly if no call gave a list, and then because no source was loaded. Otherwise there is a
report on each source by what its own call came to, in their order, and as many sets were merged as
reports are good. -/
theorem gather_reports (sources : List Source) {cap : Int} (hcap : 1 ≤ cap) (concurrency : Int) :
    (∀ outcomes : List (Except Fault String), outcomes.length = (wanted sources).length →
      ∃ trace, Schedule.Run (permits concurrency) (Schedule.initial (wanted sources)) trace
        (outcomes.map Task.finished)) ∧
    ∀ (trace : List Event) (outcomes : List (Except Fault String)),
      Schedule.Run (permits concurrency) (Schedule.initial (wanted sources)) trace
        (outcomes.map Task.finished) →
      .error .cancelled ∉ outcomes →
      Schedule.calls (wanted sources) trace
        = (sources.filter fun source => source.enabled && source.isKnown).map Source.location ∧
      (∀ i outcome, .finished i outcome ∈ trace ↔ outcomes[i]? = some outcome) ∧
      (∀ fetch, Schedule.Answers fetch (wanted sources) trace ↔
        outcomes = (wanted sources).map fetch) ∧
      (∀ fetch, Schedule.Answers fetch (wanted sources) trace →
        (gather (fetchAll fetch) sources cap).result = gatherEnded sources cap outcomes) ∧
      (endedSources sources outcomes).map Prod.fst = enabledSources sources ∧
      (endedSources sources outcomes).map Prod.snd = outcomes ∧
      ((∃ e, gatherEnded sources cap outcomes = .error e) ↔ ∀ text, .ok text ∉ outcomes) ∧
      (∀ e, gatherEnded sources cap outcomes = .error e → e.IsUnavailable) ∧
      ∀ gathered, gatherEnded sources cap outcomes = .ok gathered →
        List.Forall₂ (Reported cap) (endedSources sources outcomes) gathered.reports ∧
        gathered.counts.sourcesMerged = gathered.reports.countP SourceReport.ok := by
  refine ⟨fun outcomes hlength => ?_, fun trace outcomes hrun hnone => ?_⟩
  · obtain ⟨trace, hrun, -⟩ := Schedule.exists_run_initial (permits_pos concurrency) hlength
    exact ⟨trace, hrun⟩
  -- from here on it is about the outcomes, as the run has come to its end
  have hlength := hrun.length_outcomes
  obtain ⟨loaded, hloaded, hgathered⟩ := exists_gatherEnded_eq sources hcap hnone
  rw [hgathered]
  refine ⟨hrun.calls_eq, fun i outcome => hrun.mem_trace_iff, fun fetch => ⟨hrun.outcomes_eq, ?_⟩,
    fun fetch hanswers => ?_, map_fst_endedSources hlength, map_snd_endedSources hlength, ?_,
    fun e he => (mergeLoaded_eq_error he).2, ?_⟩
  · rintro rfl i outcome hmem
    rw [← List.getElem?_map]
    exact hrun.mem_trace_iff.mp hmem
  · rw [gather_fetchAll_eq_gatherEnded, ← hrun.outcomes_eq hanswers, hgathered]
  · rw [← sets_eq_nil_iff hlength hloaded]
    refine ⟨?_, fun hnil => ?_⟩
    · rintro ⟨e, he⟩
      exact (mergeLoaded_eq_error he).1
    · cases hmerged : (mergeLoaded cap loaded).result with
      | error e => exact ⟨e, rfl⟩
      | ok gathered => exact absurd hnil (mergeLoaded_eq_ok_iff.mp hmerged).1
  · intro gathered hmerged
    obtain ⟨-, rfl⟩ := mergeLoaded_eq_ok_iff.mp hmerged
    exact ⟨forall₂_reported hnone hloaded, length_sets_eq_countP hloaded⟩

/-- Two sources with one location, and a third one. -/
def sharedSources : List Source :=
  [⟨"easylist", "First", "list", 1, true⟩, ⟨"easyprivacy", "Second", "list", 2, true⟩,
    ⟨"easyprivacy", "Other", "other", 3, true⟩]

/-- Of the two sources with one location the first is loaded and the second fails, each by its own
fetch; the third fails without a text, and the kind of its failure is the reason. -/
theorem gather_reports_shared :
    (1 : Int) ≤ 3 ∧ .error .cancelled ∉ mixedEnds ∧
    ∃ trace gathered, Schedule.Run (permits 2) (Schedule.initial (wanted sharedSources)) trace
        (mixedEnds.map Task.finished) ∧
      Schedule.calls (wanted sharedSources) trace = ["list", "list", "other"] ∧
      gatherEnded sharedSources 3 mixedEnds = .ok gathered ∧
      gathered.reports.map SourceReport.source = sharedSources ∧
      gathered.reports.map SourceReport.reason? = [none, some "HTTP 500", some "ValueError"] ∧
      gathered.counts.sourcesMerged = 1 := by
  have hnone : .error .cancelled ∉ mixedEnds := by simp [mixedEnds]
  obtain ⟨hruns, hall⟩ := gather_reports sharedSources (by decide : (1 : Int) ≤ 3) 2
  obtain ⟨trace, hrun⟩ := hruns mixedEnds rfl
  obtain ⟨hcalls, -, -, -, -, -, herror, -, hreports⟩ := hall trace mixedEnds hrun hnone
  cases hgathered : gatherEnded sharedSources 3 mixedEnds with
  | error e => exact absurd List.mem_cons_self (herror.mp ⟨e, hgathered⟩ "||a.test^")
  | ok gathered =>
    obtain ⟨hforall, hmerged⟩ := hreports gathered hgathered
    refine ⟨by decide, hnone, trace, gathered, hrun, hcalls, rfl, ?_⟩
    obtain ⟨rules, counts, reports⟩ := gathered
    -- one report after the other, each by the end of its own fetch
    cases hforall with
    | cons hfirst hforall =>
      cases hforall with
      | cons hsecond hforall =>
        cases hforall with
        | cons hthird hforall =>
          cases hforall
          obtain ⟨parsed, -, hone, -⟩ := hfirst.loaded _ rfl
          obtain ⟨_, hrefused, htwo, -⟩ := hsecond.failed _ rfl
          obtain ⟨_, hfailed, hthree, -⟩ := hthird.failed _ rfl
          obtain rfl := Option.some.inj hrefused
          obtain rfl := Option.some.inj hfailed
          refine ⟨?_, ?_, ?_⟩
          · simp only [List.map_cons, hfirst.source_eq, hsecond.source_eq, hthird.source_eq]
            rfl
          · simp only [List.map_cons, SourceReport.reason?, hone, htwo, hthree]
            rfl
          · refine hmerged.trans ?_
            simp only [List.countP_cons, SourceReport.ok, hone, htwo, hthree]
            rfl

end Blocklist
