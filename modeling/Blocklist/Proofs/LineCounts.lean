import Blocklist.Proofs.Balance

/-!
# What the counts of a list mean

Every counter of a list is told by the lines that were read: how many of them were skipped, and for
which reasons, and how many repeat a domain of an earlier line. The lines that were read are those
up to the one that fills the cap, or else all.

* `domainAt`, `RepeatsEarlier` — what a line blocks, by its place, and whether an earlier line
  blocks it too; `repeatsEarlier_append_iff` — later lines do not matter for that;
* `Tally.reasons` — the reasons that have an entry; `Tally.reasons_add` — a tally gains an entry for
  a reason when that comes up first;
* `Parse.State.Counts` — the invariant of reading with the lines that made no rule counted. A line
  keeps it (`Parse.State.Counts.read`), so it holds after any lines (`Parse.State.counts_after`);
* `Ends.capped_iff` — the cap has ended the reading exactly if so many domains were read;
* `ParseCounts.Means` — what the counts mean; `counts_parse_mean` — the main statement.
-/

namespace Blocklist

/-! ### Lines by their places -/

/-- The domain that the line at a place blocks. -/
def domainAt (lines : List String) (i : Nat) : Option String :=
  lines[i]?.bind fun line => (Line.read line).domain?

/-- **Whether the line at a place repeats an earlier one**: it blocks a domain which a line in front
of it blocks. -/
def RepeatsEarlier (lines : List String) (i : Nat) : Prop :=
  ∃ domain ∈ domainAt lines i, ∃ j < i, domain ∈ domainAt lines j

instance (lines : List String) (i : Nat) : Decidable (RepeatsEarlier lines i) :=
  inferInstanceAs (Decidable (∃ domain ∈ domainAt lines i, ∃ j < i, domain ∈ domainAt lines j))

/-- Later lines do not change what an earlier one blocks. -/
theorem domainAt_append_of_lt {lines : List String} {i : Nat} (h : i < lines.length)
    (more : List String) : domainAt (lines ++ more) i = domainAt lines i := by
  rw [domainAt, domainAt, List.getElem?_append_left h]

/-- The last line. -/
theorem domainAt_concat_length (lines : List String) (line : String) :
    domainAt (lines ++ [line]) lines.length = (Line.read line).domain? := by
  rw [domainAt, List.getElem?_concat_length, Option.bind_some]

/-- A domain is blocked by some lines exactly if one of them blocks it. -/
theorem mem_blockedDomains_iff {lines : List String} {domain : String} :
    domain ∈ blockedDomains lines ↔ ∃ j < lines.length, domain ∈ domainAt lines j := by
  unfold blockedDomains domainAt
  rw [List.mem_filterMap]
  constructor
  · rintro ⟨line, hline, hdomain⟩
    obtain ⟨j, hj, rfl⟩ := List.getElem_of_mem hline
    exact ⟨j, hj, by rw [List.getElem?_eq_getElem hj, Option.bind_some, hdomain]; rfl⟩
  · rintro ⟨j, hj, hdomain⟩
    rw [List.getElem?_eq_getElem hj, Option.bind_some] at hdomain
    exact ⟨lines[j], List.getElem_mem hj, hdomain⟩

/-- **Later lines do not matter** for whether a line repeats an earlier one. -/
theorem repeatsEarlier_append_iff {lines : List String} {i : Nat} (h : i < lines.length)
    (more : List String) : RepeatsEarlier (lines ++ more) i ↔ RepeatsEarlier lines i := by
  -- what comes earlier is among the lines in front
  have hfront : ∀ j < i, domainAt (lines ++ more) j = domainAt lines j := by
    intro j hj
    exact domainAt_append_of_lt (hj.trans h) more
  unfold RepeatsEarlier
  rw [domainAt_append_of_lt h]
  refine exists_congr fun domain => and_congr_right fun _ => exists_congr fun j => ?_
  exact and_congr_right fun hj => by rw [hfront j hj]

/-- The last line repeats an earlier one if the lines in front of it block its domain. -/
theorem repeatsEarlier_concat_iff (lines : List String) (line : String) :
    RepeatsEarlier (lines ++ [line]) lines.length
      ↔ ∃ domain ∈ (Line.read line).domain?, domain ∈ blockedDomains lines := by
  unfold RepeatsEarlier
  rw [domainAt_concat_length]
  refine exists_congr fun domain => and_congr_right fun _ => ?_
  rw [mem_blockedDomains_iff]
  refine exists_congr fun j => and_congr_right fun hj => ?_
  rw [domainAt_append_of_lt hj]

/-- **How many of the first lines repeat earlier ones.** -/
def repeats (lines : List String) (n : Nat) : Nat :=
  (List.range n).countP fun i => RepeatsEarlier lines i

theorem repeats_append (lines more : List String) :
    repeats (lines ++ more) lines.length = repeats lines lines.length := by
  refine List.countP_congr fun i hi => ?_
  rw [decide_eq_true_iff, decide_eq_true_iff,
    repeatsEarlier_append_iff (List.mem_range.mp hi)]

theorem repeats_concat (lines : List String) (line : String) :
    repeats (lines ++ [line]) (lines ++ [line]).length = repeats lines lines.length
      + if ∃ domain ∈ (Line.read line).domain?, domain ∈ blockedDomains lines then 1 else 0 := by
  -- the last place is counted apart, and the places before it do not see the last line
  rw [← repeats_append lines [line]]
  unfold repeats
  rw [List.length_append, List.length_singleton, List.range_succ, List.countP_append,
    List.countP_singleton]
  simp only [decide_eq_true_eq, repeatsEarlier_concat_iff]

/-- A line that is skipped is no repetition. -/
theorem repeats_concat_of_skipped {line : String} {reason : SkipReason}
    (hline : Line.read line = .skipped reason) (lines : List String) :
    repeats (lines ++ [line]) (lines ++ [line]).length = repeats lines lines.length := by
  rw [repeats_concat, hline, if_neg, Nat.add_zero]
  rintro ⟨domain, hdomain, -⟩
  cases hdomain

/-- A line is one if its domain is blocked before it. -/
theorem repeats_concat_of_mem {lines : List String} {line domain : String}
    (hline : Line.read line = .blocks domain) (h : domain ∈ blockedDomains lines) :
    repeats (lines ++ [line]) (lines ++ [line]).length = repeats lines lines.length + 1 := by
  rw [repeats_concat, hline, if_pos ⟨domain, rfl, h⟩]

/-- And it is none if its domain is new. -/
theorem repeats_concat_of_notMem {lines : List String} {line domain : String}
    (hline : Line.read line = .blocks domain) (h : domain ∉ blockedDomains lines) :
    repeats (lines ++ [line]) (lines ++ [line]).length = repeats lines lines.length := by
  rw [repeats_concat, hline, if_neg, Nat.add_zero]
  rintro ⟨_, hdomain, hmem⟩
  obtain rfl := Option.some.inj hdomain
  exact h hmem

/-! ### Reasons -/

/-- The reason for which a verdict skips its line. -/
def Verdict.reason? : Verdict → Option SkipReason
  | .blocks _ => none
  | .skipped reason => some reason

/-- **The reasons for which some lines are skipped**, one for each line that is. -/
def skippedReasons (lines : List String) : List SkipReason :=
  lines.filterMap fun line => (Line.read line).reason?

/-- A reason is listed if a line is skipped for it. -/
theorem mem_skippedReasons_iff {lines : List String} {reason : SkipReason} :
    reason ∈ skippedReasons lines ↔ ∃ line ∈ lines, Line.read line = .skipped reason := by
  unfold skippedReasons
  rw [List.mem_filterMap]
  refine exists_congr fun line => and_congr_right fun _ => ?_
  cases Line.read line <;> simp [Verdict.reason?]

/-- **How many lines are skipped for a reason.** -/
def skippedFor (reason : SkipReason) (lines : List String) : Nat :=
  lines.countP fun line => Line.read line = .skipped reason

theorem skippedReasons_concat (lines : List String) (line : String) :
    skippedReasons (lines ++ [line])
      = skippedReasons lines ++ (Line.read line).reason?.toList := by
  unfold skippedReasons
  rw [List.filterMap_append, List.filterMap_cons]
  cases (Line.read line).reason? with
  | none | some reason => rfl

/-- The last line counts if it is skipped for the reason. -/
theorem skippedFor_concat (reason : SkipReason) (lines : List String) (line : String) :
    skippedFor reason (lines ++ [line])
      = skippedFor reason lines + if Line.read line = .skipped reason then 1 else 0 := by
  unfold skippedFor
  rw [List.countP_append, List.countP_singleton]
  simp only [decide_eq_true_eq]

/-- The reasons that have an entry, in order. -/
def Tally.reasons (t : Tally) : List SkipReason := t.entries.map Prod.fst

/-- **A reason gets an entry** when it comes up first. -/
theorem Tally.reasons_add (t : Tally) (reason : SkipReason) :
    (t.add reason).reasons = addFirst id t.reasons reason := by
  obtain ⟨entries⟩ := t
  simp only [reasons, add, addFirst, id_eq, List.map_id]
  induction entries with
  | nil => rfl
  | cons e rest ih =>
    obtain ⟨r, n⟩ := e
    -- the entry is raised where it stands, or a new one comes behind all others
    by_cases hr : r = reason
    · simp [bump, hr]
    · have hne : reason ≠ r := fun h => hr h.symm
      simp only [bump, if_neg hr, List.map_cons, ih, List.mem_cons, hne, false_or]
      split <;> simp

namespace Parse.State

/-! ### The invariant of reading -/

/-- **What reading some lines comes to**, with the lines that made no rule counted. -/
structure Counts (s : State) (lines : List String) : Prop extends Reads s lines where
  count_eq : ∀ reason, s.skipped.count reason = skippedFor reason lines
  reasons_eq : s.skipped.reasons = firsts id (skippedReasons lines)
  duplicates_eq : s.duplicates = repeats lines lines.length

/-- Nothing is counted at the start. -/
theorem Counts.initial : Counts {} [] := ⟨Reads.initial, fun _ => rfl, rfl, rfl⟩

/-- A line that blocks a domain is skipped for no reason. -/
theorem Counts.of_blocks {s s' : State} {lines : List String} {line domain : String}
    (h : s.Counts lines) (hline : Line.read line = .blocks domain)
    (hreads : s'.Reads (lines ++ [line])) (hskipped : s'.skipped = s.skipped)
    (hduplicates : s'.duplicates = repeats (lines ++ [line]) (lines ++ [line]).length) :
    s'.Counts (lines ++ [line]) where
  toReads := hreads
  -- a line that blocks a domain is skipped for no reason
  count_eq := fun reason => by
    rw [hskipped, skippedFor_concat, hline, if_neg nofun, h.count_eq, Nat.add_zero]
  reasons_eq := by
    rw [hskipped, skippedReasons_concat, hline, h.reasons_eq, Verdict.reason?, Option.toList_none,
      List.append_nil]
  duplicates_eq := hduplicates

/-- **Invariant preservation.** Reading a line keeps `Counts`. -/
theorem Counts.read {s : State} {lines : List String} (h : s.Counts lines) (line : String) :
    (s.read line).Counts (lines ++ [line]) := by
  have hreads := h.toReads.read line
  have htook := took_read s line
  generalize s.read line = s' at hreads htook ⊢
  cases htook with
  | @skipped reason hline =>
    refine ⟨hreads, fun other => ?_, ?_, ?_⟩
    · rw [skippedFor_concat, hline, Tally.count_add, h.count_eq]
      simp only [Verdict.skipped.injEq, eq_comm]
    · rw [Tally.reasons_add, h.reasons_eq, skippedReasons_concat, hline, Verdict.reason?,
        Option.toList_some, firsts_concat]
    · exact h.duplicates_eq.trans (repeats_concat_of_skipped hline lines).symm
  | @repeated domain hline hseen =>
    -- the domain has been seen, so an earlier line blocks it
    have hmem : domain ∈ blockedDomains lines := mem_firsts_id.mp ((h.mem_seen domain).mp hseen)
    refine h.of_blocks hline hreads rfl ?_
    rw [repeats_concat_of_mem hline hmem]
    exact congrArg (· + 1) h.duplicates_eq
  | @new domain hline hnew =>
    -- a domain that an earlier line blocks would have been seen
    have hnot : domain ∉ blockedDomains lines :=
      fun hmem => hnew ((h.mem_seen domain).mpr (mem_firsts_id.mpr hmem))
    exact h.of_blocks hline hreads rfl
      (h.duplicates_eq.trans (repeats_concat_of_notMem hline hnot).symm)

/-- **What is counted**: what is kept from line to line, taken over all lines. -/
theorem counts_after (lines : List String) : (after lines).Counts lines :=
  foldl_induction (P := Counts) Counts.initial (fun _ _ line h => h.read line) lines

end Parse.State

/-! ### The end of the reading -/

/-- **The cap has ended the reading** exactly if so many domains were read. -/
theorem Ends.capped_iff {cap : Nat} {lines front : List String} {capped : Bool}
    (h : Ends cap lines front capped) : capped = true ↔ distinctDomains front = cap := by
  cases h with
  | full hfills back => exact iff_of_true rfl hfills.distinctDomains_eq
  | short hroom => exact iff_of_false nofun (Nat.ne_of_lt hroom)

/-- The lines that are read are the first ones. -/
theorem Ends.isPrefix {cap : Nat} {lines front : List String} {capped : Bool}
    (h : Ends cap lines front capped) : front <+: lines := by
  cases h with
  | full hfills back => exact List.prefix_append _ back
  | short hroom => exact List.prefix_rfl

/-- If the cap has not ended the reading, all lines were read. -/
theorem Ends.eq_of_not_capped {cap : Nat} {lines front : List String}
    (h : Ends cap lines front false) : front = lines := by
  cases h
  rfl

/-! ### The main statement -/

/-- **What the counts of a list mean**, for the cap, the lines and the rules that they gave. -/
structure ParseCounts.Means (c : ParseCounts) (cap : Int) (lines : List String)
    (rules : List NetworkRule) : Prop where
  linesRead_le : c.linesRead ≤ lines.length
  skipped_eq : ∀ reason, c.skipped.count reason =
    (lines.take c.linesRead).countP fun line => Line.read line = .skipped reason
  /-- A reason has an entry if a line was skipped for it, and only one. -/
  entry_iff : ∀ reason, reason ∈ c.skipped.reasons ↔
    ∃ line ∈ lines.take c.linesRead, Line.read line = .skipped reason
  nodup_reasons : c.skipped.reasons.Nodup
  duplicatePruned_eq : c.duplicatePruned =
    (List.range c.linesRead).countP fun i => RepeatsEarlier lines i
  rulesEmitted_eq : c.rulesEmitted = rules.length
  /-- Every line that was read is counted once. -/
  balance : c.linesRead = c.rulesEmitted + c.duplicatePruned + c.skipped.total
  capped_iff : c.capped = true ↔ (c.rulesEmitted : Int) = cap
  /-- If the cap has not ended the reading, then the list has. -/
  all : c.capped = false → c.linesRead = lines.length

/-- **The counts of every list mean what they say**, under any positive cap. -/
theorem counts_parse_mean (lines : List String) {cap : Int} (hcap : 1 ≤ cap) :
    ∃ parsed, parse lines cap = .ok parsed ∧ parsed.counts.Means cap lines parsed.rules := by
  obtain ⟨front, capped, hends⟩ := exists_ends hcap lines
  have hparse := parse_of_ends hcap hends
  have hcounts := Parse.State.counts_after front
  have hread := Parse.State.linesRead_after front
  obtain ⟨back, rfl⟩ := hends.isPrefix
  -- the lines up to the count are those that were read
  have htake : (front ++ back).take ((Parse.State.after front).result capped).counts.linesRead
      = front := List.take_left' hread.symm
  refine ⟨_, hparse,
    { linesRead_le := ?read
      skipped_eq := ?skipped
      entry_iff := ?entry
      nodup_reasons := ?nodup
      duplicatePruned_eq := ?duplicates
      rulesEmitted_eq := rulesEmitted_of_parse_eq_ok hparse
      balance := ?balance
      capped_iff := ?capped
      all := ?all }⟩
  case read =>
    rw [List.length_append]
    exact hread.trans_le (Nat.le_add_right _ _)
  case skipped =>
    intro reason
    rw [htake]
    exact hcounts.count_eq reason
  case entry =>
    intro reason
    rw [htake, ← mem_skippedReasons_iff]
    show reason ∈ (Parse.State.after front).skipped.reasons ↔ _
    rw [hcounts.reasons_eq, mem_firsts_id]
  case nodup =>
    show (Parse.State.after front).skipped.reasons.Nodup
    rw [hcounts.reasons_eq]
    exact nodup_firsts_id _
  case duplicates =>
    have hrepeats := repeats_append front back
    rw [← hread] at hrepeats
    exact hcounts.duplicates_eq.trans (hread ▸ hrepeats.symm)
  case balance =>
    have hbalanced : ((Parse.State.after front).result capped).counts.Balanced :=
      balanced_of_parse_eq_ok hparse
    unfold ParseCounts.Balanced at hbalanced
    omega
  case capped =>
    have hsize := size_rules_after front
    show capped = true ↔ ((Parse.State.after front).rules.size : Int) = cap
    rw [hends.capped_iff, hsize]
    omega
  case all =>
    intro hnot
    obtain rfl : capped = false := hnot
    rw [← hends.eq_of_not_capped]
    exact hread

/-- Two domains, of which the first stands twice before the second and once behind it, between two
comments and an empty line. -/
def mixedLines : List String :=
  ["! list", "||a.test^", "", "||a.test^$image", "! end", "||b.test^", "||a.test^"]

/-- Under a cap of two the last of these lines is not read, and not counted as a repetition. -/
theorem counts_parse_mean_mixed :
    (1 : Int) ≤ 2 ∧ ∃ parsed, parse mixedLines 2 = .ok parsed ∧ parsed.counts.linesRead = 6 ∧
      parsed.counts.skipped.count .comment = 2 ∧ parsed.counts.skipped.count .empty = 1 ∧
      .header ∉ parsed.counts.skipped.reasons ∧ parsed.counts.duplicatePruned = 1 ∧
      parsed.rules.length = 2 ∧ parsed.counts.capped = true := by
  obtain ⟨parsed, hparse, hmeans⟩ := counts_parse_mean mixedLines (by decide : (1 : Int) ≤ 2)
  -- the cap is filled by the sixth line, so that the last line is not read
  have hfills : FillsCap 2 (mixedLines.take 5) "||b.test^" := ⟨by decide, by decide⟩
  have hends : Ends 2 mixedLines (mixedLines.take 6) true := .full hfills ["||a.test^"]
  have hread : parsed.counts.linesRead = 6 := by
    rw [parse_of_ends (by decide : (1 : Int) ≤ 2) hends] at hparse
    obtain rfl := Except.ok.inj hparse
    exact Parse.State.linesRead_after (mixedLines.take 6)
  have hcomments := hmeans.skipped_eq .comment
  have hempty := hmeans.skipped_eq .empty
  have hheaders := hmeans.entry_iff .header
  have hduplicates := hmeans.duplicatePruned_eq
  have hrules : parsed.rules.length = 2 := by
    have hdomains : (firsts id (blockedDomains mixedLines)).take 2 = ["a.test", "b.test"] := by
      decide
    have hblocks := (parse_eq_ok hparse).2
    rw [show (2 : Int).toNat = 2 from rfl, hdomains] at hblocks
    rw [hblocks, length_blocksOf]
    rfl
  rw [hread] at hcomments hempty hheaders hduplicates
  refine ⟨by decide, parsed, hparse, hread, hcomments.trans (by decide), hempty.trans (by decide),
    fun h => absurd (hheaders.mp h) (by decide), hduplicates.trans (by decide), hrules, ?_⟩
  rw [hmeans.capped_iff, hmeans.rulesEmitted_eq, hrules]
  rfl

end Blocklist
