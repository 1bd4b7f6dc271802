import Blocklist.Proofs.LineCounts
import Blocklist.Proofs.LineGrammar
import Blocklist.Proofs.LineSplitting

/-!
# Lists written plainly

Whatever a list blocks can be written as a list again: a line `||domain^` for each domain, and
nothing else. Such a list parses to the same rules, and every line of it makes one.

* `ruleLine`, `plainList` — the plain line of a domain, and the plain list of some domains;
* `Expressible` — the domains that a line can block, told by their characters. Blanks around a
  domain and within it, number signs and bars are among them;
* `expressible_iff` — these are the domains that come out, and the plain line of each is read as it;
* `parse_plainList` — a plain list parses to a rule for each of its lines. As many domains are kept
  as there are lines, so all lines are read and none is skipped or repeats another;
* `parse_plainList_of_parse` — the main statement: parsing, writing plainly and parsing again.
-/

namespace Blocklist

/-- **The plain line of a domain.** -/
def ruleLine (domain : String) : String := "||" ++ domain ++ "^"

/-- **The plain list of some domains**: their plain lines, each with a line feed behind it. -/
def plainList (domains : List String) : String :=
  String.join (domains.map fun domain => ruleLine domain ++ "\n")

/-! ### Domains that a line can block -/

/-- **Whether a line can block a domain.** -/
structure Expressible (domain : List Char) : Prop where
  ne_nil : domain ≠ []
  caret_notMem : '^' ∉ domain
  dollar_notMem : '$' ∉ domain
  newline_notMem : '\n' ∉ domain
  last_ne : domain.getLast? ≠ some '/'
  not_cosmetic : ¬ Line.Cosmetic domain

namespace Line

/-- What is cosmetic in a part of a line is so in the whole line. -/
theorem Cosmetic.of_infix {part line : List Char} (h : Cosmetic part) (hpart : part <:+: line) :
    Cosmetic line :=
  h.imp (fun hmark => hmark.trans hpart) (fun hmark => hmark.trans hpart)

/-- The bars and the caret around a domain have no part in a cosmetic marker. -/
theorem cosmetic_ruleLine_iff {domain : List Char} :
    Cosmetic ('|' :: '|' :: (domain ++ ['^'])) ↔ Cosmetic domain := by
  refine ⟨fun h => ?_, fun h => h.of_infix ⟨['|', '|'], ['^'], rfl⟩⟩
  -- a marker neither begins with a bar nor ends with a caret
  unfold Cosmetic at h ⊢
  simp only [List.infix_cons_iff, List.cons_prefix_cons, List.infix_concat_iff,
    List.suffix_concat_iff] at h
  have hlast : ∀ {mark front : List Char}, mark.getLast? = some '#' → mark ≠ front ++ ['^'] := by
    rintro mark front hmark rfl
    simp at hmark
  refine h.imp ?_ ?_
  all_goals
    rintro (⟨hbar, -⟩ | ⟨hbar, -⟩ | (hnil | ⟨front, hfront, -⟩) | hinside)
    · exact absurd hbar (by decide)
    · exact absurd hbar (by decide)
    · exact absurd hnil (List.cons_ne_nil _ _)
    · exact absurd hfront (hlast rfl)
    · exact hinside

/-- The domain of a rule stands in its line. -/
theorem Rule.isInfix {line domain : List Char} (h : Rule line domain) : domain <:+: line := by
  obtain ⟨body, rest, rfl, -, -, ⟨-, hbody⟩, -⟩ := h
  -- it is the body, or what the body has in front of the options
  have hfront : domain <+: body := by
    rcases hbody with rfl | ⟨back, rfl⟩
    · exact List.prefix_rfl
    · exact List.prefix_append domain _
  calc domain <:+: body := hfront.isInfix
    _ <:+: '|' :: '|' :: (body ++ '^' :: rest) := ⟨['|', '|'], '^' :: rest, by simp⟩

theorem Rule.caret_notMem {line domain : List Char} (h : Rule line domain) : '^' ∉ domain := by
  obtain ⟨body, rest, -, -, hcaret, ⟨-, hbody⟩, -⟩ := h
  intro hmem
  rcases hbody with rfl | ⟨back, rfl⟩
  · exact hcaret hmem
  · exact hcaret (List.mem_append_left _ hmem)

/-- **What a line blocks** can be written plainly. -/
theorem Blocks.expressible {line domain : List Char} (h : Blocks line domain)
    (hnewline : '\n' ∉ line) : Expressible domain := by
  obtain ⟨hcosmetic, hrule⟩ := h
  have hpart := hrule.isInfix
  have hcaret := hrule.caret_notMem
  obtain ⟨body, rest, -, -, -, ⟨hdollar, -⟩, hne, hlast⟩ := hrule
  exact
    { ne_nil := hne
      caret_notMem := hcaret
      dollar_notMem := hdollar
      newline_notMem := fun hmem => hnewline (hpart.subset hmem)
      last_ne := hlast
      not_cosmetic := fun hmarked => hcosmetic (hmarked.of_infix hpart) }

end Line

theorem toList_ruleLine (domain : String) :
    (ruleLine domain).toList = '|' :: '|' :: (domain.toList ++ ['^']) := by
  rw [ruleLine, String.toList_append, String.toList_append]
  rfl

/-- **What is written plainly** is read as it is meant. -/
theorem Expressible.read_ruleLine {domain : String} (h : Expressible domain.toList) :
    Line.read (ruleLine domain) = .blocks domain := by
  -- neither a bar nor a caret is blank, so that blanks of the domain are not at an end of the line
  have htrim : Text.trim (ruleLine domain).toList = '|' :: '|' :: (domain.toList ++ ['^']) := by
    rw [toList_ruleLine]
    exact Text.trim_eq_self (by decide) (by decide) ('|' :: domain.toList)
  rw [Line.read_eq_iff, htrim]
  refine ⟨fun hmarked => h.not_cosmetic (Line.cosmetic_ruleLine_iff.mp hmarked), ?_⟩
  exact ⟨domain.toList, [], rfl, h.ne_nil, h.caret_notMem, ⟨h.dollar_notMem, .inl rfl⟩, h.ne_nil,
    h.last_ne⟩

/-- **A domain is expressible** exactly if some line without a line feed blocks it. -/
theorem expressible_iff {domain : String} :
    Expressible domain.toList ↔ ∃ line, '\n' ∉ line.toList ∧ Line.read line = .blocks domain := by
  -- the plain rule is one such line; and any other shows what a domain cannot have in it
  constructor
  · intro h
    refine ⟨ruleLine domain, ?_, h.read_ruleLine⟩
    rw [toList_ruleLine]
    simpa using h.newline_notMem
  · rintro ⟨line, hnewline, hread⟩
    have hblocks : Line.Blocks (Text.trim line.toList) domain.toList := Line.read_eq_iff.mp hread
    exact hblocks.expressible fun hmem => hnewline (Text.mem_of_mem_trim hmem)

/-- Whatever a text blocks is expressible. -/
theorem expressible_of_mem_blockedDomains {text domain : String}
    (h : domain ∈ blockedDomains (Text.splitLines text)) : Expressible domain.toList := by
  obtain ⟨line, hline, hdomain⟩ := List.mem_filterMap.mp h
  refine expressible_iff.mpr ⟨line, Text.newline_notMem_of_mem_splitLines hline, ?_⟩
  -- a line that is skipped blocks no domain
  cases hread : Line.read line with
  | blocks found =>
    rw [hread] at hdomain
    exact congrArg _ (Option.some.inj hdomain)
  | skipped reason =>
    rw [hread] at hdomain
    cases hdomain

/-! ### Plain lists -/

section Plain

variable {domains : List String} (h : ∀ domain ∈ domains, Expressible domain.toList)
include h

/-- **The lines of a plain list** are its rules. -/
theorem splitLines_plainList : Text.splitLines (plainList domains) = domains.map ruleLine := by
  have hlines : ∀ line ∈ domains.map ruleLine, '\n' ∉ line.toList := by
    intro line hline
    obtain ⟨domain, hdomain, rfl⟩ := List.mem_map.mp hline
    rw [toList_ruleLine]
    simpa using (h domain hdomain).newline_notMem
  have hsplit := Text.splitLines_endEach hlines
  rwa [Text.endEach, List.map_map] at hsplit

/-- **They block the domains** that they were made for. -/
theorem blockedDomains_map_ruleLine : blockedDomains (domains.map ruleLine) = domains := by
  unfold blockedDomains
  rw [List.filterMap_map]
  calc domains.filterMap ((fun line => (Line.read line).domain?) ∘ ruleLine)
      = domains.filterMap some := by
        refine List.filterMap_congr fun domain hdomain => ?_
        rw [Function.comp_apply, (h domain hdomain).read_ruleLine, Verdict.domain?]
    _ = domains := List.filterMap_some

/-- None of them is skipped. -/
theorem skippedReasons_map_ruleLine : skippedReasons (domains.map ruleLine) = [] := by
  unfold skippedReasons
  rw [List.filterMap_map, List.filterMap_eq_nil_iff]
  intro domain hdomain
  rw [Function.comp_apply, (h domain hdomain).read_ruleLine, Verdict.reason?]

/-- **What reading all lines of a plain list comes to.** -/
theorem result_after_plain (hnodup : domains.Nodup) (capped : Bool) :
    (Parse.State.after (domains.map ruleLine)).result capped
      = ⟨blocksOf domains,
          { linesRead := domains.length
            rulesEmitted := domains.length
            duplicatePruned := 0
            capped := capped
            skipped := {} }⟩ := by
  set s := Parse.State.after (domains.map ruleLine) with hs
  have hcounts : s.Counts (domains.map ruleLine) := Parse.State.counts_after _
  have hrules : s.rules.toList = blocksOf domains := by
    rw [hcounts.rules_eq, blockedDomains_map_ruleLine h, firsts_id_of_nodup hnodup]
  have hsize : s.rules.size = domains.length := by
    rw [← Array.length_toList, hrules, length_blocksOf]
  have hread : s.linesRead = domains.length := by
    rw [hs, Parse.State.linesRead_after, List.length_map]
  -- no line is skipped, so no reason has an entry
  have hskipped : s.skipped = {} := by
    have hreasons := hcounts.reasons_eq
    rw [skippedReasons_map_ruleLine h, firsts_nil, Tally.reasons, List.map_eq_nil_iff] at hreasons
    exact congrArg Tally.mk hreasons
  -- every line has made a rule, so none is left to be a duplicate
  have hbalanced : s.Balanced := Parse.State.balanced_after _
  have htotal : s.skipped.total = 0 := by
    rw [hskipped]
    rfl
  have hduplicates : s.duplicates = 0 := by
    unfold Parse.State.Balanced at hbalanced
    omega
  rw [Parse.State.result, hrules, hread, hsize, hduplicates, hskipped]

/-- **A plain list parses to a rule for each of its lines**, if it is no longer than the cap. -/
theorem parse_plainList {cap : Int} (hcap : 1 ≤ cap) (hnodup : domains.Nodup)
    (hlength : (domains.length : Int) ≤ cap) :
    parse (Text.splitLines (plainList domains)) cap
      = .ok ⟨blocksOf domains,
          { linesRead := domains.length
            rulesEmitted := domains.length
            duplicatePruned := 0
            capped := (domains.length : Int) = cap
            skipped := {} }⟩ := by
  rw [splitLines_plainList h]
  obtain ⟨front, capped, hends⟩ := exists_ends hcap (domains.map ruleLine)
  have hdistinct : distinctDomains front = domains.length := by
    rw [← length_firsts_blockedDomains, hends.firsts_eq, blockedDomains_map_ruleLine h,
      firsts_id_of_nodup hnodup, List.take_of_length_le (by omega)]
  -- so many domains are in no fewer lines, so all lines are read
  have hle : domains.length ≤ front.length := by
    calc domains.length = (blockedDomains front).toFinset.card := hdistinct.symm
      _ ≤ (blockedDomains front).length := List.toFinset_card_le _
      _ ≤ front.length := List.length_filterMap_le _ _
  have hfront : front = domains.map ruleLine := by
    refine hends.isPrefix.eq_of_length_le ?_
    rwa [List.length_map]
  have hcapped : capped = decide ((domains.length : Int) = cap) := by
    have hiff := hends.capped_iff
    rw [hdistinct] at hiff
    rw [Bool.eq_iff_iff, hiff, decide_eq_true_iff]
    omega
  rw [parse_of_ends hcap hends, hfront, result_after_plain h hnodup, hcapped]

end Plain

/-! ### The main statement -/

/-- **Parsing a list, writing it plainly and parsing it again** gives the same rules. Under a
positive cap a text parses to the blocks for some domains. The plain line of each of them is read as
it, and the plain list of all of them parses to the same rules: all of its lines are read, none of
them is skipped, and none repeats another. -/
theorem parse_plainList_of_parse (text : String) {cap : Int} (hcap : 1 ≤ cap) :
    ∃ parsed domains, parse (Text.splitLines text) cap = .ok parsed ∧
      parsed.rules = blocksOf domains ∧
      (∀ domain ∈ domains, Line.read (ruleLine domain) = .blocks domain) ∧
      parse (Text.splitLines (plainList domains)) cap
        = .ok ⟨parsed.rules,
            { linesRead := domains.length
              rulesEmitted := domains.length
              duplicatePruned := 0
              capped := (domains.length : Int) = cap
              skipped := {} }⟩ := by
  obtain ⟨parsed, hparse, hrules⟩ := exists_parse_eq_ok (Text.splitLines text) hcap
  set domains := (firsts id (blockedDomains (Text.splitLines text))).take cap.toNat with hdomains
  -- these can be written, are distinct, and are no more than the cap allows for
  have hexpressible : ∀ domain ∈ domains, Expressible domain.toList := by
    intro domain hdomain
    exact expressible_of_mem_blockedDomains (mem_firsts_id.mp (List.mem_of_mem_take hdomain))
  have hnodup : domains.Nodup := (nodup_firsts_id _).sublist (List.take_sublist _ _)
  have hlength : (domains.length : Int) ≤ cap := by
    rw [hdomains, List.length_take]
    omega
  refine ⟨parsed, domains, hparse, hrules, fun domain hdomain => ?_, ?_⟩
  · exact (hexpressible domain hdomain).read_ruleLine
  · rw [hrules]
    exact parse_plainList hexpressible hcap hnodup hlength

/-- A domain with blanks around it and within it, twice, with options behind the caret and in front
of it, a comment, and two domains more. -/
def spacedText : String :=
  "|| a b#*| ^$image\r\n! note\n||c^\n|| a b#*| $x^\n||d^"

theorem parse_plainList_of_parse_spaced :
    (1 : Int) ≤ 2 ∧ ∃ parsed, parse (Text.splitLines spacedText) 2 = .ok parsed ∧
      parsed.rules = blocksOf [" a b#*| ", "c"] ∧
      parse (Text.splitLines (plainList [" a b#*| ", "c"])) 2
        = .ok ⟨blocksOf [" a b#*| ", "c"], { linesRead := 2, rulesEmitted := 2, capped := true }⟩ := by
  obtain ⟨parsed, domains, hparse, hrules, -, hagain⟩ :=
    parse_plainList_of_parse spacedText (by decide : (1 : Int) ≤ 2)
  have hblocked : blockedDomains (Text.splitLines spacedText) = [" a b#*| ", "c", " a b#*| ", "d"] := by
    decide +kernel
  have hfirsts : (firsts id [" a b#*| ", "c", " a b#*| ", "d"]).take (2 : Int).toNat
      = [" a b#*| ", "c"] := by decide
  have hblocks := (parse_eq_ok hparse).2
  rw [hblocked, hfirsts] at hblocks
  -- blocks tell which domains they are for
  obtain rfl : domains = [" a b#*| ", "c"] := blocksOf_injective (hrules.symm.trans hblocks)
  rw [hrules] at hagain
  exact ⟨by decide, parsed, hparse, hrules, hagain⟩

end Blocklist
