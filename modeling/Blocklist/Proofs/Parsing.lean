import Blocklist.Parse
import Blocklist.Proofs.FirstOccurrence

/-!
# What a list parses to

The rules of some lines are blocks for the first occurrences of the domains that the lines block,
numbered from one and cut at the cap.

* `blockedDomains` — the domains that lines block, with repetitions; `blocksOf` — the blocks for
  some domains, numbered;
* `Parse.State.Took` — what one line does, in three cases (`Parse.State.took_read`);
* `Parse.State.Reads` — the invariant of reading: the rules so far are the blocks for the first
  occurrences in the lines so far, and the seen domains are those first occurrences. A line keeps it
  (`Parse.State.Reads.read`), so it holds after any lines (`Parse.State.reads_after`);
* `FillsCap` — the line with which the cap is full; `Parse.State.run_of_lt`,
  `Parse.State.run_of_fillsCap` — a run reads on before that line, and ends with it;
* `Ends` — how far a list is read; `parse_of_ends` — it parses to what reading so far has come to;
* `exists_parse_eq_ok`, `parse_eq_ok` — the rules of a list under a cap, which has to be positive.

The set of seen domains is only ever asked for what it contains, so the invariant says no more about
it.
-/

namespace Blocklist

/-- The domain that a verdict blocks. -/
def Verdict.domain? : Verdict → Option String
  | .blocks domain => some domain
  | .skipped _ => none

/-- **The domains that some lines block**, one for each line that blocks one. -/
def blockedDomains (lines : List String) : List String :=
  lines.filterMap fun line => (Line.read line).domain?

@[simp] theorem blockedDomains_append (lines more : List String) :
    blockedDomains (lines ++ more) = blockedDomains lines ++ blockedDomains more :=
  List.filterMap_append

theorem blockedDomains_flatten (lists : List (List String)) :
    blockedDomains lists.flatten = (lists.map blockedDomains).flatten := by
  unfold blockedDomains
  rw [List.filterMap_flatten]

/-- **The blocks for some domains**, numbered from one. -/
def blocksOf (domains : List String) : List NetworkRule :=
  domains.mapIdx fun i domain => .block (i + 1) domain

/-- The last block is numbered by how many domains there are. -/
theorem blocksOf_concat (domains : List String) (domain : String) :
    blocksOf (domains ++ [domain])
      = blocksOf domains ++ [.block (domains.length + 1) domain] := List.mapIdx_concat

@[simp] theorem length_blocksOf (domains : List String) :
    (blocksOf domains).length = domains.length := List.length_mapIdx

/-- Blocks are rules that block. -/
theorem isBlock_of_mem_blocksOf {domains : List String} {rule : NetworkRule}
    (h : rule ∈ blocksOf domains) : rule.isBlock = true := by
  obtain ⟨i, hi, rfl⟩ := List.mem_mapIdx.mp h
  rfl

namespace Parse.State

/-! ### One line -/

/-- **What one line does to the reading**: it is skipped, or repeats a domain, or blocks a new
one. -/
inductive Took (s : State) (line : String) : State → Prop
  | skipped {reason : SkipReason} (hline : Line.read line = .skipped reason) :
    Took s line
      { s with linesRead := s.linesRead + 1, skipped := s.skipped.add reason }
  | repeated {domain : String} (hline : Line.read line = .blocks domain)
      (hseen : s.seen.contains domain = true) :
    Took s line { s with linesRead := s.linesRead + 1, duplicates := s.duplicates + 1 }
  | new {domain : String} (hline : Line.read line = .blocks domain)
      (hnew : ¬ s.seen.contains domain = true) :
    Took s line
      { s with
        linesRead := s.linesRead + 1
        rules := s.rules.push (.block (s.rules.size + 1) domain)
        seen := s.seen.insert domain }

/-- Every statement about what reading keeps from line to line is by cases on this one. -/
theorem took_read (s : State) (line : String) : Took s line (s.read line) := by
  unfold State.read
  cases hline : Line.read line with
  | skipped reason => exact .skipped hline
  | blocks domain =>
    simp only
    -- a domain counts once, however many lines block it
    split_ifs with hseen
    · exact .repeated hline hseen
    · exact .new hline hseen

/-! ### The invariant of reading -/

/-- **What reading some lines comes to**, if no cap stops it. -/
structure Reads (s : State) (lines : List String) : Prop where
  /-- There is a block for each first occurrence. -/
  rules_eq : s.rules.toList = blocksOf (firsts id (blockedDomains lines))
  /-- The seen domains are the blocked ones. -/
  mem_seen : ∀ domain, s.seen.contains domain = true ↔ domain ∈ firsts id (blockedDomains lines)

/-- Nothing is read at the start. -/
theorem Reads.initial : Reads {} [] where
  rules_eq := rfl
  mem_seen := fun domain => by simp [blockedDomains]

theorem Reads.size_rules {s : State} {lines : List String} (h : s.Reads lines) :
    s.rules.size = (firsts id (blockedDomains lines)).length := by
  rw [← Array.length_toList, h.rules_eq, length_blocksOf]

/-- A line that is skipped blocks no domain. -/
theorem blockedDomains_concat_of_skipped {line : String} {reason : SkipReason}
    (h : Line.read line = .skipped reason) (lines : List String) :
    blockedDomains (lines ++ [line]) = blockedDomains lines := by
  simp [blockedDomains, h, Verdict.domain?]

/-- A line that blocks a domain adds it behind the others, repeated or not. -/
theorem blockedDomains_concat_of_blocks {line domain : String}
    (h : Line.read line = .blocks domain) (lines : List String) :
    blockedDomains (lines ++ [line]) = blockedDomains lines ++ [domain] := by
  simp [blockedDomains, h, Verdict.domain?]

/-- **Invariant preservation.** Reading a line keeps `Reads`. -/
theorem Reads.read {s : State} {lines : List String} (h : s.Reads lines) (line : String) :
    (s.read line).Reads (lines ++ [line]) := by
  have htook := took_read s line
  generalize s.read line = s' at htook ⊢
  cases htook with
  | skipped hline =>
    -- a skipped line blocks nothing and changes neither the rules nor the seen domains
    have hsame := blockedDomains_concat_of_skipped hline lines
    exact ⟨by rw [hsame]; exact h.rules_eq, by rw [hsame]; exact h.mem_seen⟩
  | @repeated domain hline hseen =>
    -- a repetition changes neither the rules nor the first occurrences
    have hmem : domain ∈ firsts id (blockedDomains lines) := (h.mem_seen domain).mp hseen
    have hsame : firsts id (blockedDomains (lines ++ [line]))
        = firsts id (blockedDomains lines) := by
      rw [blockedDomains_concat_of_blocks hline, firsts_concat,
        addFirst_of_mem id (by simpa using hmem)]
    exact ⟨by rw [hsame]; exact h.rules_eq, by rw [hsame]; exact h.mem_seen⟩
  | @new domain hline hnew =>
    -- a new domain is the last first occurrence, and its block the last rule
    have hnot : domain ∉ firsts id (blockedDomains lines) :=
      fun hmem => hnew ((h.mem_seen domain).mpr hmem)
    have hmore : firsts id (blockedDomains (lines ++ [line]))
        = firsts id (blockedDomains lines) ++ [domain] := by
      rw [blockedDomains_concat_of_blocks hline, firsts_concat,
        addFirst_of_notMem id (by simpa using hnot)]
    refine ⟨?_, fun d => ?_⟩
    · rw [hmore, blocksOf_concat]
      simp only [Array.toList_push, h.rules_eq, h.size_rules]
    · rw [hmore, List.mem_append, List.mem_singleton, Std.HashSet.contains_insert,
        Bool.or_eq_true, beq_iff_eq, h.mem_seen, or_comm, eq_comm]

/-- A line adds one rule at most. -/
theorem size_rules_read (s : State) (line : String) :
    s.rules.size ≤ (s.read line).rules.size ∧ (s.read line).rules.size ≤ s.rules.size + 1 := by
  have htook := took_read s line
  -- the three things that reading a line can do, of which one adds a rule
  generalize s.read line = s' at htook ⊢
  cases htook with
  | skipped | repeated => exact ⟨Nat.le_refl _, Nat.le_succ _⟩
  | new =>
    rw [Array.size_push]
    exact ⟨Nat.le_succ _, Nat.le_refl _⟩

/-! ### Runs -/

/-- However many lines are read, no rule is taken back. -/
theorem size_rules_le_foldl (s : State) (lines : List String) :
    s.rules.size ≤ (lines.foldl State.read s).rules.size := by
  induction lines generalizing s with
  | nil => exact Nat.le_refl _
  | cons line lines ih => exact (s.size_rules_read line).1.trans (ih (s.read line))

/-- **Below the cap a run reads on**, whatever comes after the lines. -/
theorem run_ofLines_append {cap : Nat} {s : State} {lines : List String}
    (h : (lines.foldl State.read s).rules.size < cap) (rest : Supply) :
    s.run cap (.ofLines lines ++ rest) = (lines.foldl State.read s).run cap rest := by
  induction lines generalizing s with
  | nil => rfl
  | cons line lines ih =>
    -- rules are only ever added, so the cap is not reached before
    have hbelow : ¬ cap ≤ (s.read line).rules.size := by
      have hle := size_rules_le_foldl (s.read line) lines
      rw [List.foldl_cons] at h
      omega
    calc s.run cap (.ofLines (line :: lines) ++ rest)
        = (s.read line).run cap (.ofLines lines ++ rest) := if_neg hbelow
      _ = (lines.foldl State.read (s.read line)).run cap rest := ih h

/-- What reading some lines from the start comes to. -/
def after (lines : List String) : State := lines.foldl State.read {}

theorem after_concat (lines : List String) (line : String) :
    after (lines ++ [line]) = (after lines).read line := by
  rw [after, List.foldl_concat, after]

/-- **What reading comes to**: what is kept from line to line, taken over all lines. -/
theorem reads_after (lines : List String) : (after lines).Reads lines :=
  foldl_induction (P := Reads) Reads.initial (fun _ _ line h => h.read line) lines

theorem rules_result_after (lines : List String) (capped : Bool) :
    ((after lines).result capped).rules = blocksOf (firsts id (blockedDomains lines)) :=
  (reads_after lines).rules_eq

/-- Every line that is read is counted. -/
theorem linesRead_read (s : State) (line : String) : (s.read line).linesRead = s.linesRead + 1 := by
  have htook := took_read s line
  generalize s.read line = s' at htook ⊢
  cases htook with
  | skipped | repeated | new => rfl

/-- As many lines are counted as are read. -/
theorem linesRead_after (lines : List String) : (after lines).linesRead = lines.length := by
  refine foldl_induction (P := fun (s : State) lines => s.linesRead = lines.length) rfl ?_ lines
  intro s lines line h
  rw [linesRead_read, h, List.length_append, List.length_singleton]

end Parse.State

/-! ### Filling the cap -/

/-- **How many domains some lines block.** -/
def distinctDomains (lines : List String) : Nat := (blockedDomains lines).toFinset.card

/-- As many first occurrences as there are domains. -/
theorem length_firsts_blockedDomains (lines : List String) :
    (firsts id (blockedDomains lines)).length = distinctDomains lines := by
  rw [length_firsts, List.map_id, distinctDomains]

/-- **A rule for each domain**, if no cap stops the reading. -/
theorem size_rules_after (lines : List String) :
    (Parse.State.after lines).rules.size = distinctDomains lines := by
  rw [(Parse.State.reads_after lines).size_rules, length_firsts_blockedDomains]

/-- More lines block no fewer domains. -/
theorem distinctDomains_le_append (lines more : List String) :
    distinctDomains lines ≤ distinctDomains (lines ++ more) := by
  refine Finset.card_le_card fun domain hdomain => ?_
  rw [List.mem_toFinset] at hdomain ⊢
  rw [blockedDomains_append]
  exact List.mem_append_left _ hdomain

/-- **Whether a line fills the cap** behind others: without it there is room left, and with it there
is none. -/
structure FillsCap (cap : Nat) (front : List String) (line : String) : Prop where
  room : distinctDomains front < cap
  full : cap ≤ distinctDomains (front ++ [line])

/-- Nothing is over the cap when it is filled. -/
theorem FillsCap.distinctDomains_eq {cap : Nat} {front : List String} {line : String}
    (h : FillsCap cap front line) : distinctDomains (front ++ [line]) = cap := by
  -- one line adds one domain at most
  have hstep := ((Parse.State.after front).size_rules_read line).2
  rw [← Parse.State.after_concat, size_rules_after, size_rules_after] at hstep
  have hroom := h.room
  have hfull := h.full
  omega

/-- **A list that reaches the cap** has a line that fills it. -/
theorem exists_fillsCap {cap : Nat} (hpos : 0 < cap) {lines : List String}
    (h : cap ≤ distinctDomains lines) :
    ∃ front line back, lines = front ++ [line] ++ back ∧ FillsCap cap front line := by
  -- the last line fills the cap, or the list reaches it without that line
  induction lines using List.reverseRecOn with
  | nil => exact absurd h (Nat.not_le.mpr hpos)
  | append_singleton lines last ih =>
    by_cases hlines : cap ≤ distinctDomains lines
    · obtain ⟨front, line, back, rfl, hfills⟩ := ih hlines
      exact ⟨front, line, back ++ [last], List.append_assoc _ _ _, hfills⟩
    · exact ⟨lines, last, [], (List.append_nil _).symm, Nat.not_le.mp hlines, h⟩

namespace Parse.State

/-- **Below the cap** all lines are read, and then whatever comes after them. -/
theorem run_of_lt {cap : Nat} {lines : List String} (h : distinctDomains lines < cap)
    (rest : Supply) : State.run cap {} (.ofLines lines ++ rest) = (after lines).run cap rest := by
  rw [← size_rules_after] at h
  exact run_ofLines_append h rest

/-- **With the line that fills the cap** a run ends. What comes after it is not asked for. -/
theorem run_of_fillsCap {cap : Nat} {front : List String} {line : String}
    (h : FillsCap cap front line) (rest : Supply) :
    State.run cap {} (.ofLines (front ++ [line]) ++ rest)
      = .ok ((after (front ++ [line])).result true, rest) := by
  have hfull : cap ≤ ((after front).read line).rules.size := by
    rw [← after_concat, size_rules_after]
    exact h.full
  -- up to the line in front the cap is not reached; that line reaches it
  calc State.run cap {} (.ofLines (front ++ [line]) ++ rest)
      = State.run cap {} (.ofLines front ++ .ok line :: rest) := by
        rw [Supply.ofLines, List.map_append, List.append_assoc]
        rfl
    _ = (after front).run cap (.ok line :: rest) := run_of_lt h.room _
    _ = .ok (((after front).read line).result true, rest) := if_pos hfull
    _ = .ok ((after (front ++ [line])).result true, rest) := by rw [after_concat]

end Parse.State

/-! ### Lists -/

/-- **How far a list is read** under a cap: up to the line that fills the cap, or to its end. The
lines that are read come after the list, and then whether the cap has ended the reading. -/
inductive Ends (cap : Nat) : List String → List String → Bool → Prop
  | full {front : List String} {line : String} (h : FillsCap cap front line)
      (back : List String) : Ends cap (front ++ [line] ++ back) (front ++ [line]) true
  | short {lines : List String} (h : distinctDomains lines < cap) : Ends cap lines lines false

/-- Under a positive cap every list is read up to somewhere. -/
theorem exists_ends {cap : Int} (hcap : 1 ≤ cap) (lines : List String) :
    ∃ front capped, Ends cap.toNat lines front capped := by
  -- a list with as many domains as the cap has a line that fills it
  by_cases hreach : cap.toNat ≤ distinctDomains lines
  · obtain ⟨front, line, back, rfl, hfills⟩ := exists_fillsCap (by omega) hreach
    exact ⟨front ++ [line], true, .full hfills back⟩
  · exact ⟨lines, false, .short (Nat.not_le.mp hreach)⟩

/-- The domains of the lines that are read are those that the cap allows for. -/
theorem Ends.firsts_eq {cap : Nat} {lines front : List String} {capped : Bool}
    (h : Ends cap lines front capped) :
    firsts id (blockedDomains front) = (firsts id (blockedDomains lines)).take cap := by
  cases h with
  | @full front line hfills back =>
    -- later lines add nothing below the cap
    have hlength : (firsts id (blockedDomains (front ++ [line]))).length = cap := by
      rw [length_firsts_blockedDomains, hfills.distinctDomains_eq]
    rw [blockedDomains_append (front ++ [line]), take_firsts_append id (Nat.le_of_eq hlength.symm),
      List.take_of_length_le (Nat.le_of_eq hlength)]
  | short hroom =>
    rw [← length_firsts_blockedDomains] at hroom
    exact (List.take_of_length_le (Nat.le_of_lt hroom)).symm

/-- **A list parses to what reading its first lines has come to**, as far as it is read. -/
theorem parse_of_ends {lines front : List String} {cap : Int} {capped : Bool} (hcap : 1 ≤ cap)
    (h : Ends cap.toNat lines front capped) :
    parse lines cap = .ok ((Parse.State.after front).result capped) := by
  -- the lines of a list come without a failure, and what is not asked for is dropped
  have hparse : parse lines cap
      = ((Parse.State.run cap.toNat {} (.ofLines lines)).mapError .broken).map Prod.fst := by
    rw [parse, parseSupply, if_neg (by omega)]
  rw [hparse]
  cases h with
  | @full front line hfills back =>
    have hsplit : Supply.ofLines (front ++ [line] ++ back)
        = .ofLines (front ++ [line]) ++ .ofLines back := List.map_append
    rw [hsplit, Parse.State.run_of_fillsCap hfills]
    rfl
  | short hroom =>
    have hrun := Parse.State.run_of_lt hroom []
    rw [List.append_nil] at hrun
    rw [hrun]
    rfl

/-- **The rules of a list.** Under a positive cap every list parses. -/
theorem exists_parse_eq_ok (lines : List String) {cap : Int} (hcap : 1 ≤ cap) :
    ∃ parsed, parse lines cap = .ok parsed ∧
      parsed.rules = blocksOf ((firsts id (blockedDomains lines)).take cap.toNat) := by
  obtain ⟨front, capped, hends⟩ := exists_ends hcap lines
  refine ⟨_, parse_of_ends hcap hends, ?_⟩
  rw [Parse.State.rules_result_after, hends.firsts_eq]

/-- A cap below one is refused before any line is read. -/
theorem parse_of_lt_one (lines : List String) {cap : Int} (hcap : cap < 1) :
    parse lines cap = .error (.capNotPositive cap) := by
  unfold parse parseSupply
  rw [if_pos hcap]
  rfl

/-- **Whatever a list parses to** is what reading its first lines has come to. -/
theorem exists_ends_of_parse_eq_ok {lines : List String} {cap : Int} {parsed : Parsed}
    (h : parse lines cap = .ok parsed) :
    1 ≤ cap ∧ ∃ front capped, Ends cap.toNat lines front capped ∧
      parsed = (Parse.State.after front).result capped := by
  -- a list parses under a positive cap only, and is then read up to somewhere
  by_cases hcap : 1 ≤ cap
  · obtain ⟨front, capped, hends⟩ := exists_ends hcap lines
    rw [parse_of_ends hcap hends] at h
    exact ⟨hcap, front, capped, hends, (Except.ok.inj h).symm⟩
  · rw [parse_of_lt_one lines (by omega)] at h
    cases h

/-- What a list that parses says of its cap and its rules. -/
theorem parse_eq_ok {lines : List String} {cap : Int} {parsed : Parsed}
    (h : parse lines cap = .ok parsed) :
    1 ≤ cap ∧ parsed.rules = blocksOf ((firsts id (blockedDomains lines)).take cap.toNat) := by
  obtain ⟨hcap, front, capped, hends, rfl⟩ := exists_ends_of_parse_eq_ok h
  exact ⟨hcap, by rw [Parse.State.rules_result_after, hends.firsts_eq]⟩

/-- The rules that are counted are the rules of the list. -/
theorem rulesEmitted_of_parse_eq_ok {lines : List String} {cap : Int} {parsed : Parsed}
    (h : parse lines cap = .ok parsed) : parsed.counts.rulesEmitted = parsed.rules.length := by
  obtain ⟨-, front, capped, -, rfl⟩ := exists_ends_of_parse_eq_ok h
  exact Array.length_toList.symm

end Blocklist
