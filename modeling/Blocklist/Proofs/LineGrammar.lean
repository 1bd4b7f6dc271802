import Blocklist.Line
import Mathlib.Data.List.Infix
import Mathlib.Data.List.TakeWhile

/-!
# The grammar of lines

Which lines block a domain, and why the others do not, said by how a line is written and not by how
it is read.

* `Text.Trimmed` — a text without its outer blanks, and `Text.trimmed_trim`;
* `Line.Cosmetic`, `Line.Opens`, `Line.Blocks`, `Line.Skips` — the grammar: the marks of a line, the
  lines that block a domain, and the lines that are skipped for a reason;
* `Line.says_read` — what is read is written there; `Line.Says.unique` — no line says two things, as
  each reason asks that those before it do not hold. Together they make the grammar and the reading
  equal (`Line.read_eq_iff`);
* `Line.read_follows_grammar` — the main statement.

A mark that opens a line is found in its first two characters, and the body of a rule ends with the
first `^`. Only a cosmetic marker can stand behind that and still count.
-/

namespace Blocklist

namespace Text

/-! ### Trimmed texts -/

/-- **A trimmed text**: `part` is `whole` without the blanks at both ends. -/
structure Trimmed (whole part : List Char) : Prop where
  around : ∃ front back, whole = front ++ part ++ back ∧ ∀ c ∈ front ++ back, isBlank c = true
  head_not : ∀ c ∈ part.head?, isBlank c = false
  last_not : ∀ c ∈ part.getLast?, isBlank c = false

/-- **Trimming** takes blanks away at both ends, and all of them. -/
theorem trimmed_trim (cs : List Char) : Trimmed cs (trim cs) where
  around := by
    set inner := cs.dropWhile isBlank with hinner
    refine ⟨cs.takeWhile isBlank, (inner.reverse.takeWhile isBlank).reverse, ?_, ?_⟩
    · -- first what is behind, of the line without what is in front
      have hback : trim cs ++ (inner.reverse.takeWhile isBlank).reverse = inner := by
        rw [trim, trimEnd, ← List.reverse_append, List.takeWhile_append_dropWhile,
          List.reverse_reverse]
      rw [List.append_assoc, hback, List.takeWhile_append_dropWhile]
    · intro c hc
      rcases List.mem_append.mp hc with hc | hc
      · exact List.mem_takeWhile_imp hc
      · exact List.mem_takeWhile_imp (List.mem_reverse.mp hc)
  head_not := fun _ => head_trim
  last_not := fun _ => getLast_trim

/-- A trimmed text has no characters of its own. -/
theorem mem_of_mem_trim {cs : List Char} {c : Char} (h : c ∈ trim cs) : c ∈ cs := by
  obtain ⟨front, back, hcs, -⟩ := (trimmed_trim cs).around
  rw [hcs]
  exact List.mem_append_left back (List.mem_append_right front h)

/-- A text with no blank at either end is left as it is. -/
theorem trim_eq_self {first last : Char} (hfirst : isBlank first = false)
    (hlast : isBlank last = false) (inner : List Char) :
    trim (first :: (inner ++ [last])) = first :: (inner ++ [last]) := by
  rw [trim, List.dropWhile_cons_of_neg (by simp [hfirst]), trimEnd, ← List.cons_append,
    List.reverse_concat, List.dropWhile_cons_of_neg (by simp [hlast]), ← List.reverse_concat,
    List.reverse_reverse]

/-! ### Texts up to a mark -/

/-- Whether `part` is the text `whole` up to the first of a mark, and all of it if there is none. -/
def UpTo (mark : Char) (whole part : List Char) : Prop :=
  mark ∉ part ∧ (whole = part ∨ ∃ rest, whole = part ++ mark :: rest)

/-- What stands in front of the first mark. -/
theorem takeWhile_append_mark {mark : Char} {part : List Char} (h : mark ∉ part)
    (rest : List Char) : (part ++ mark :: rest).takeWhile (· != mark) = part := by
  have hpart : ∀ c ∈ part, (c != mark) = true := by
    intro c hc
    exact bne_iff_ne.mpr fun heq => h (heq ▸ hc)
  rw [List.takeWhile_append_of_pos hpart, List.takeWhile_cons_of_neg (by simp), List.append_nil]

/-- A text has a part up to a mark, whether or not the mark is in it. -/
theorem upTo_takeWhile (mark : Char) (whole : List Char) :
    UpTo mark whole (whole.takeWhile (· != mark)) := by
  refine ⟨fun hmem => ?_, ?_⟩
  · simpa using List.mem_takeWhile_imp hmem
  · -- what follows is nothing, or begins with the mark
    have hsplit := List.takeWhile_append_dropWhile (p := (· != mark)) (l := whole)
    have hnot := List.head?_dropWhile_not (· != mark) whole
    cases hrest : whole.dropWhile (· != mark) with
    | nil =>
      rw [hrest, List.append_nil] at hsplit
      exact .inl hsplit.symm
    | cons c rest =>
      rw [hrest] at hsplit hnot
      obtain rfl : c = mark := by simpa using hnot
      exact .inr ⟨rest, hsplit.symm⟩

/-- There is only one such part. -/
theorem upTo_iff {mark : Char} {whole part : List Char} :
    UpTo mark whole part ↔ part = whole.takeWhile (· != mark) := by
  refine ⟨?_, ?_⟩
  · rintro ⟨hnot, rfl | ⟨rest, rfl⟩⟩
    · refine (List.takeWhile_eq_self_iff.mpr fun c hc => ?_).symm
      exact bne_iff_ne.mpr fun heq => hnot (heq ▸ hc)
    · exact (takeWhile_append_mark hnot rest).symm
  · rintro rfl
    exact upTo_takeWhile mark whole

end Text

namespace Line

/-! ### The grammar -/

/-- Whether a line has the marker of a cosmetic rule somewhere. -/
def Cosmetic (line : List Char) : Prop :=
  ['#', '#'] <:+: line ∨ ['#', '%', '#'] <:+: line

/-- Whether a line begins as one that is never a rule. -/
def Opens (line : List Char) : Prop :=
  ['!'] <+: line ∨ ['['] <+: line ∨ ['@', '@'] <+: line

instance (line : List Char) : Decidable (Cosmetic line) :=
  inferInstanceAs (Decidable (_ ∨ _))

instance (line : List Char) : Decidable (Opens line) :=
  inferInstanceAs (Decidable (_ ∨ _ ∨ _))

/-- **Rules for a domain**, whether or not there is a cosmetic marker: the domain is the body
between `||` and the first `^`, up to its first `$`. -/
def Rule (line domain : List Char) : Prop :=
  ∃ body rest, line = '|' :: '|' :: (body ++ '^' :: rest) ∧ body ≠ [] ∧ '^' ∉ body ∧
    Text.UpTo '$' body domain ∧ domain ≠ [] ∧ domain.getLast? ≠ some '/'

/-- **The lines that block a domain.** -/
def Blocks (line domain : List Char) : Prop := ¬ Cosmetic line ∧ Rule line domain

/-- **The lines that are skipped**, by reason. -/
def Skips (line : List Char) : SkipReason → Prop
  | .empty => line = []
  | .comment => ['!'] <+: line
  | .header => ['['] <+: line
  | .exception => ['@', '@'] <+: line
  | .cosmetic => line ≠ [] ∧ ¬ Opens line ∧ Cosmetic line
  | .unsupported => line ≠ [] ∧ ¬ Opens line ∧ ¬ Cosmetic line ∧ ∀ domain, ¬ Rule line domain

/-- What a line says, by the grammar. -/
def Says (line : List Char) : Verdict → Prop
  | .blocks domain => Blocks line domain.toList
  | .skipped reason => Skips line reason

/-! ### The marks of a line -/

theorem Cosmetic.ne_nil {line : List Char} (h : Cosmetic line) : line ≠ [] := by
  rintro rfl
  simp [Cosmetic] at h

/-- Looking for a part is finding it somewhere. -/
theorem occurs_iff {part line : List Char} : occurs part line = true ↔ part <:+: line := by
  induction line with
  | nil => rw [occurs, List.isEmpty_iff, List.infix_nil]
  | cons c cs ih =>
    rw [occurs, Bool.or_eq_true, List.isPrefixOf_iff_prefix, ih, List.infix_cons_iff]

/-- Whatever has three number signs in a row has two. -/
theorem cosmetic_iff {line : List Char} :
    (cosmeticMarkers.any fun marker => occurs marker.toList line) = true ↔ Cosmetic line := by
  -- the third marker is never needed, as the first one is in it
  have hthree : ['#', '#', '#'] <:+: line → ['#', '#'] <:+: line :=
    fun h => List.IsInfix.trans ⟨[], ['#'], rfl⟩ h
  simp only [cosmeticMarkers, List.any_cons, List.any_nil, Bool.or_false, Bool.or_eq_true,
    occurs_iff]
  change ['#', '#'] <:+: line ∨ ['#', '%', '#'] <:+: line ∨ ['#', '#', '#'] <:+: line ↔ _
  refine ⟨?_, ?_⟩
  · rintro (h | h | h)
    · exact .inl h
    · exact .inr h
    · exact .inl (hthree h)
  · rintro (h | h)
    · exact .inl h
    · exact .inr (.inl h)

/-- **Marks are as they are written**, and without one a line opens as none and is not cosmetic. -/
theorem marked?_says (line : List Char) :
    match marked? line with
    | some reason => Skips line reason
    | none => ¬ Opens line ∧ ¬ Cosmetic line := by
  unfold marked?
  split_ifs with hcomment hheader hexception hcosmetic
  · exact List.isPrefixOf_iff_prefix.mp hcomment
  · exact List.isPrefixOf_iff_prefix.mp hheader
  · exact List.isPrefixOf_iff_prefix.mp hexception
  -- what is no comment, no header and no exception does not begin like one
  all_goals
    have hopens : ¬ Opens line := by
      rintro (h | h | h)
      · exact hcomment (List.isPrefixOf_iff_prefix.mpr h)
      · exact hheader (List.isPrefixOf_iff_prefix.mpr h)
      · exact hexception (List.isPrefixOf_iff_prefix.mpr h)
  · exact ⟨Cosmetic.ne_nil (cosmetic_iff.mp hcosmetic), hopens, cosmetic_iff.mp hcosmetic⟩
  · exact ⟨hopens, fun h => hcosmetic (cosmetic_iff.mpr h)⟩

/-! ### The domain of a rule -/

/-- **The body of a rule** stands between two bars and the first caret. -/
theorem body?_eq_some_iff {line body : List Char} :
    body? line = some body ↔
      '^' ∉ body ∧ ∃ rest, line = '|' :: '|' :: (body ++ '^' :: rest) := by
  unfold body?
  split
  · next rest =>
    -- without a caret there is no body on either side
    by_cases hcaret : '^' ∈ rest
    · rw [if_pos (List.contains_iff_mem.mpr hcaret), Option.some.injEq]
      refine ⟨?_, ?_⟩
      · rintro rfl
        obtain ⟨hnot, hall | ⟨back, hback⟩⟩ := Text.upTo_takeWhile '^' rest
        · exact absurd (hall ▸ hcaret) hnot
        · exact ⟨hnot, back, by rw [← hback]⟩
      · rintro ⟨hnot, back, hline⟩
        obtain rfl : rest = body ++ '^' :: back := by simpa using hline
        exact Text.takeWhile_append_mark hnot back
    · rw [if_neg (fun h => hcaret (List.contains_iff_mem.mp h))]
      refine ⟨nofun, ?_⟩
      rintro ⟨-, back, hline⟩
      obtain rfl : rest = body ++ '^' :: back := by simpa using hline
      exact absurd (List.mem_append_right body List.mem_cons_self) hcaret
  · -- what does not begin with two bars has none either
    next hshape =>
    refine ⟨nofun, ?_⟩
    rintro ⟨-, rest, hline⟩
    exact absurd hline (hshape _)

/-- **The domain of a line** is the one that its rule blocks. -/
theorem domain?_eq_some_iff {line domain : List Char} :
    domain? line = some domain ↔ Rule line domain := by
  unfold domain?
  cases hbody : body? line with
  | none =>
    refine ⟨nofun, ?_⟩
    rintro ⟨body, rest, hline, -, hcaret, -⟩
    rw [body?_eq_some_iff.mpr ⟨hcaret, rest, hline⟩] at hbody
    cases hbody
  | some body =>
    obtain ⟨hcaret, rest, hline⟩ := body?_eq_some_iff.mp hbody
    simp only [Bool.or_eq_true, List.isEmpty_iff, beq_iff_eq]
    refine ⟨?_, ?_⟩
    · intro h
      split_ifs at h with hrefused
      obtain rfl := Option.some.inj h
      rw [not_or] at hrefused
      refine ⟨body, rest, hline, ?_, hcaret, Text.upTo_takeWhile '$' body, hrefused⟩
      rintro rfl
      exact hrefused.1 rfl
    · rintro ⟨body', rest', hline', -, hcaret', hupTo, hne, hlast⟩
      -- a line has one body only
      rw [body?_eq_some_iff.mpr ⟨hcaret', rest', hline'⟩] at hbody
      obtain rfl := Option.some.inj hbody
      obtain rfl := Text.upTo_iff.mp hupTo
      rw [if_neg (not_or.mpr ⟨hne, hlast⟩)]

/-! ### Reading follows the grammar -/

/-- **What is read is written there.** -/
theorem says_read (raw : String) : Says (Text.trim raw.toList) (read raw) := by
  unfold read
  simp only
  generalize Text.trim raw.toList = line
  split_ifs with hempty
  · exact List.isEmpty_iff.mp hempty
  · have hne : line ≠ [] := fun h => hempty (List.isEmpty_iff.mpr h)
    have hsays := marked?_says line
    -- a line with a mark is judged by it, and any other by the domain that it has or has not
    cases hmarked : marked? line with
    | some reason =>
      rw [hmarked] at hsays
      exact hsays
    | none =>
      rw [hmarked] at hsays
      obtain ⟨hopens, hcosmetic⟩ := hsays
      cases hdomain : domain? line with
      | some domain =>
        refine ⟨hcosmetic, ?_⟩
        rw [String.toList_ofList]
        exact domain?_eq_some_iff.mp hdomain
      | none =>
        refine ⟨hne, hopens, hcosmetic, fun domain hrule => ?_⟩
        rw [domain?_eq_some_iff.mpr hrule] at hdomain
        cases hdomain

/-- No rule begins like a comment, a header or an exception. -/
theorem Rule.not_opens {line domain : List Char} (h : Rule line domain) : ¬ Opens line := by
  obtain ⟨body, rest, rfl, -⟩ := h
  simp [Opens]

theorem Rule.ne_nil {line domain : List Char} (h : Rule line domain) : line ≠ [] := by
  obtain ⟨body, rest, rfl, -⟩ := h
  exact List.cons_ne_nil _ _

/-- A line is a rule for one domain at most. -/
theorem Rule.unique {line domain domain' : List Char} (h : Rule line domain)
    (h' : Rule line domain') : domain = domain' :=
  Option.some.inj ((domain?_eq_some_iff.mpr h).symm.trans (domain?_eq_some_iff.mpr h'))

/-- Only one reason holds of a line. -/
theorem Skips.unique {line : List Char} {reason reason' : SkipReason} (h : Skips line reason)
    (h' : Skips line reason') : reason = reason' := by
  -- two marks that open a line differ in its first character, and the other reasons exclude them
  cases reason <;> cases reason' <;> grind [Skips, Opens, List.cons_prefix_iff]

/-- A line that blocks a domain is not skipped. -/
theorem Blocks.not_skips {line domain : List Char} (h : Blocks line domain)
    (reason : SkipReason) : ¬ Skips line reason := by
  obtain ⟨hcosmetic, hrule⟩ := h
  intro hskips
  -- each reason denies a part of what a rule is
  cases reason with
  | empty => exact hrule.ne_nil hskips
  | comment => exact hrule.not_opens (.inl hskips)
  | header => exact hrule.not_opens (.inr (.inl hskips))
  | exception => exact hrule.not_opens (.inr (.inr hskips))
  | cosmetic => exact hcosmetic hskips.2.2
  | unsupported => exact hskips.2.2.2 domain hrule

/-- **A line says one thing only.** -/
theorem Says.unique {line : List Char} {verdict verdict' : Verdict} (h : Says line verdict)
    (h' : Says line verdict') : verdict = verdict' := by
  -- a line that blocks is not skipped, so that only two of the four cases are left
  cases verdict with
  | blocks domain =>
    cases verdict' with
    | blocks domain' => exact congrArg _ (String.toList_injective (h.2.unique h'.2))
    | skipped reason' => exact absurd h' (h.not_skips reason')
  | skipped reason =>
    cases verdict' with
    | blocks domain' => exact absurd h (h'.not_skips reason)
    | skipped reason' => exact congrArg _ (Skips.unique h h')

/-- **Reading is the grammar.** -/
theorem read_eq_iff {raw : String} {verdict : Verdict} :
    read raw = verdict ↔ Says (Text.trim raw.toList) verdict :=
  ⟨fun h => h ▸ says_read raw, fun h => (says_read raw).unique h⟩

/-! ### Behind the first caret -/

/-- A mark without a caret in it does not reach over one. -/
theorem prefix_append_caret_iff {mark front : List Char} (hmark : '^' ∉ mark)
    (rest : List Char) : mark <+: front ++ '^' :: rest ↔ mark <+: front := by
  refine ⟨fun h => ?_, fun h => h.trans (List.prefix_append _ _)⟩
  have hcaret : front ++ ['^'] <+: front ++ '^' :: rest := ⟨rest, by simp⟩
  rcases List.prefix_or_prefix_of_prefix h hcaret with h | h
  · rcases List.prefix_concat_iff.mp h with rfl | h
    · exact absurd (List.mem_append_right _ List.mem_cons_self) hmark
    · exact h
  · -- a mark that reaches the caret would have it
    exact absurd (h.subset (List.mem_append_right _ List.mem_cons_self)) hmark

/-- So what a line begins like hangs on what is in front of a caret. -/
theorem opens_append_caret_iff {front : List Char} (rest : List Char) :
    Opens (front ++ '^' :: rest) ↔ Opens front := by
  unfold Opens
  rw [prefix_append_caret_iff (by decide), prefix_append_caret_iff (by decide),
    prefix_append_caret_iff (by decide)]

/-- A rule is known by what stands before the first caret. -/
theorem rule_append_caret_iff {front domain : List Char} (hcaret : '^' ∉ front)
    (rest : List Char) :
    Rule (front ++ '^' :: rest) domain ↔ ∃ body, front = '|' :: '|' :: body ∧ body ≠ [] ∧
      Text.UpTo '$' body domain ∧ domain ≠ [] ∧ domain.getLast? ≠ some '/' := by
  refine ⟨?_, ?_⟩
  · rintro ⟨body, back, hline, hne, hbody, hdomain⟩
    -- both are the text up to the first caret
    have hfront := Text.takeWhile_append_mark hcaret rest
    have hrule : '^' ∉ '|' :: '|' :: body := by simpa using hbody
    have hsame := Text.takeWhile_append_mark hrule back
    rw [List.cons_append, List.cons_append, ← hline, hfront] at hsame
    exact ⟨body, hsame, hne, hdomain⟩
  · rintro ⟨body, rfl, hne, hdomain⟩
    exact ⟨body, rest, rfl, hne, by simpa using hcaret, hdomain⟩

/-- **Behind the first caret** only a cosmetic marker counts. -/
theorem Says.of_append_caret {front rest : List Char} {verdict : Verdict}
    (h : Says (front ++ '^' :: rest) verdict) (hcaret : '^' ∉ front) {rest' : List Char}
    (hcosmetic : Cosmetic (front ++ '^' :: rest) ↔ Cosmetic (front ++ '^' :: rest')) :
    Says (front ++ '^' :: rest') verdict := by
  have hne : ∀ back : List Char, front ++ '^' :: back ≠ [] := fun back => by simp
  cases verdict with
  | blocks domain =>
    refine ⟨fun hmarked => h.1 (hcosmetic.mpr hmarked), ?_⟩
    exact (rule_append_caret_iff hcaret rest').mpr ((rule_append_caret_iff hcaret rest).mp h.2)
  | skipped reason =>
    -- of the reasons, some look at the beginning, one at markers, and the last one at all of this
    cases reason with
    | empty => exact absurd h (hne rest)
    | comment | header | exception =>
      exact (prefix_append_caret_iff (by decide) rest').mpr
        ((prefix_append_caret_iff (by decide) rest).mp h)
    | cosmetic =>
      obtain ⟨-, hopens, hmarked⟩ := h
      rw [opens_append_caret_iff] at hopens
      exact ⟨hne rest', by rwa [opens_append_caret_iff], hcosmetic.mp hmarked⟩
    | unsupported =>
      obtain ⟨-, hopens, hmarked, hrule⟩ := h
      rw [opens_append_caret_iff] at hopens
      refine ⟨hne rest', by rwa [opens_append_caret_iff], fun h => hmarked (hcosmetic.mpr h), ?_⟩
      intro domain hrule'
      exact hrule domain
        ((rule_append_caret_iff hcaret rest).mpr ((rule_append_caret_iff hcaret rest').mp hrule'))

/-! ### The main statement -/

/-- **Reading follows the grammar.** A line, without the blanks around it, blocks exactly the
domains that the grammar says it blocks, and is skipped exactly for the reason that the grammar
gives. So no line that opens with a mark or has a cosmetic marker blocks a domain, and two lines
that agree up to the first caret are read alike if both have a cosmetic marker or neither has. -/
theorem read_follows_grammar (raw : String) :
    Text.Trimmed raw.toList (Text.trim raw.toList) ∧
    (∀ domain : String, read raw = .blocks domain ↔
      Blocks (Text.trim raw.toList) domain.toList) ∧
    (∀ reason, read raw = .skipped reason ↔ Skips (Text.trim raw.toList) reason) ∧
    (Opens (Text.trim raw.toList) ∨ Cosmetic (Text.trim raw.toList) →
      ∀ domain, read raw ≠ .blocks domain) ∧
    (∀ raw' front rest rest', Text.trim raw.toList = front ++ '^' :: rest →
      Text.trim raw'.toList = front ++ '^' :: rest' → '^' ∉ front →
      (Cosmetic (Text.trim raw.toList) ↔ Cosmetic (Text.trim raw'.toList)) →
      read raw' = read raw) := by
  refine ⟨Text.trimmed_trim _, fun _ => read_eq_iff, fun _ => read_eq_iff, ?_, ?_⟩
  · intro hmarked domain h
    obtain ⟨hcosmetic, hrule⟩ := read_eq_iff.mp h
    exact hmarked.elim hrule.not_opens hcosmetic
  · -- what is behind the caret matters only if it makes the line cosmetic
    intro raw' front rest rest' hraw hraw' hcaret hcosmetic
    rw [hraw, hraw'] at hcosmetic
    have hsays := says_read raw
    rw [hraw] at hsays
    rw [read_eq_iff, hraw']
    exact hsays.of_append_caret hcaret hcosmetic

/-- A rule with options before and behind its caret, one with other text behind it, and an
exception. -/
theorem read_follows_grammar_options :
    Text.trim "\u2003||a.test$b^^c\t".toList = "||a.test$b".toList ++ '^' :: "^c".toList ∧
    Text.trim "||a.test$b^$image,#".toList = "||a.test$b".toList ++ '^' :: "$image,#".toList ∧
    '^' ∉ "||a.test$b".toList ∧
    (Cosmetic (Text.trim "\u2003||a.test$b^^c\t".toList) ↔
      Cosmetic (Text.trim "||a.test$b^$image,#".toList)) ∧
    read "||a.test$b^$image,#" = read "\u2003||a.test$b^^c\t" ∧
    read "||a.test$b^$image,#" = .blocks "a.test" ∧
    Opens (Text.trim " @@||a.test^".toList) ∧
    ∀ domain, read " @@||a.test^" ≠ .blocks domain := by
  have hraw : Text.trim "\u2003||a.test$b^^c\t".toList
      = "||a.test$b".toList ++ '^' :: "^c".toList := by decide
  have hraw' : Text.trim "||a.test$b^$image,#".toList
      = "||a.test$b".toList ++ '^' :: "$image,#".toList := by decide
  have hcosmetic : Cosmetic (Text.trim "\u2003||a.test$b^^c\t".toList) ↔
      Cosmetic (Text.trim "||a.test$b^$image,#".toList) := by decide
  -- the body is cut at the dollar sign, and what is left is the domain
  have hblocks : Blocks (Text.trim "||a.test$b^$image,#".toList) "a.test".toList :=
    ⟨by decide, "a.test$b".toList, "$image,#".toList, hraw', by decide, by decide,
      ⟨by decide, .inr ⟨['b'], rfl⟩⟩, by decide, by decide⟩
  have hopens : Opens (Text.trim " @@||a.test^".toList) := by decide
  exact ⟨hraw, hraw', by decide, hcosmetic,
    (read_follows_grammar _).2.2.2.2 _ _ _ _ hraw hraw' (by decide) hcosmetic,
    ((read_follows_grammar _).2.1 _).mpr hblocks, hopens,
    (read_follows_grammar _).2.2.2.1 (.inl hopens)⟩

end Line

end Blocklist
