import Blocklist.Proofs.JsonGrammar
import Mathlib.Data.List.TakeWhile

/-!
# Reading JSON

A reader of JSON texts, and that it gives a text the value that the grammar does.

* `decode` — the value of a text, if there is one;
* `Value.length_lt` — every value takes up some characters, so that the reader comes to an end;
* `value_of_readValue` — what is read is written there; `readValue_of_value` — what is written there
  is read;
* `decode_eq_some_iff` — reading and the grammar agree, and a text has one value at most
  (`IsText.unique`).

By the grammar alone a number could end before its last digit. The reader goes on as long as there
are characters of words, and is right to: none of them follows a value in a text (`Bounded`).
-/

namespace Blocklist.Json

/-! ### The reader -/

/-- What is left behind the blanks. -/
def skip (cs : List Char) : List Char := cs.dropWhile isSpace

/-- What is left behind a mark, if it comes next but for blanks. -/
def expect (mark : Char) (cs : List Char) : Option (List Char) :=
  match skip cs with
  | c :: rest => if c = mark then some rest else none
  | [] => none

/-- Reads one character between quotes. -/
def readSymbol : List Char → Option (Char × List Char)
  | '\\' :: 'u' :: rest => do
    let (n, rest) ← unit? rest
    if isHigh n then
      match rest with
      | '\\' :: 'u' :: rest => do
        let (low, rest) ← unit? rest
        if isLow low then some (paired n low, rest) else none
      | _ => none
    else if isLow n then none
    else some (Char.ofNat n, rest)
  | '\\' :: e :: rest => (shortEscape? e).map (·, rest)
  | c :: rest => if isPlain c then some (c, rest) else none
  | [] => none

/-- Reads up to the closing quote. -/
def readChars : Nat → List Char → Option (List Char × List Char)
  | 0, _ => none
  | _ + 1, '"' :: rest => some ([], rest)
  | fuel + 1, cs => do
    let (c, rest) ← readSymbol cs
    let (cs, rest) ← readChars fuel rest
    some (c :: cs, rest)

/-- Reads a field, by a reader of its value. -/
def readField (readValue : List Char → Option (Json × List Char)) :
    List Char → Option ((String × Json) × List Char)
  | '"' :: rest => do
    let (key, rest) ← readChars rest.length rest
    let rest ← expect ':' rest
    let (value, rest) ← readValue (skip rest)
    some ((String.ofList key, value), rest)
  | _ => none

/-- Reads parts with commas between them, up to a closing mark. -/
def readSeries {α : Type} (close : Char) (readPart : List Char → Option (α × List Char)) :
    Nat → List Char → Option (List α × List Char)
  | 0, _ => none
  | fuel + 1, cs => do
    let (part, rest) ← readPart cs
    match expect close rest with
    | some rest => some ([part], rest)
    | none => do
      let rest ← expect ',' rest
      let (parts, rest) ← readSeries close readPart fuel (skip rest)
      some (part :: parts, rest)

/-- Reads some parts, or none, behind an opening bracket. -/
def readEnclosed {α : Type} (close : Char) (readPart : List Char → Option (α × List Char))
    (fuel : Nat) (cs : List Char) : Option (List α × List Char) :=
  match expect close cs with
  | some rest => some ([], rest)
  | none => readSeries close readPart fuel (skip cs)

section Reader

variable (real : List Char → Json)

/-- Reads a word. -/
def readWord (cs : List Char) : Option (Json × List Char) :=
  (word? real (cs.takeWhile isWordChar)).map (·, cs.dropWhile isWordChar)

/-- **Reads a value.** Every value takes up a character, so that the number of them bounds how deep
values stand in each other. -/
def readValue : Nat → List Char → Option (Json × List Char)
  | 0, _ => none
  | fuel + 1, cs =>
    match cs with
    | '"' :: rest => do
      let (cs, rest) ← readChars rest.length rest
      some (.str (String.ofList cs), rest)
    | '[' :: rest => do
      let (items, rest) ← readEnclosed ']' (readValue fuel) fuel rest
      some (.arr items, rest)
    | '\x7b' :: rest => do
      let (fields, rest) ← readEnclosed '\x7d' (readField (readValue fuel)) fuel rest
      some (object fields, rest)
    | _ => readWord real cs

/-- **The value of a text.** -/
def decode (cs : List Char) : Option Json := do
  let (d, rest) ← readValue real cs.length (skip cs)
  if skip rest = [] then some d else none

end Reader

variable {real : List Char → Json} {before after : List Char}
  {α : Type} {close : Char} {Part : α → List Char → List Char → Prop} {parts : List α}
  {Inner : Json → List Char → List Char → Prop} {field : String × Json}

/-! ### Every part takes up some characters -/

/-- The four digits of an escaped number. -/
theorem length_of_unit? {n : Nat} (h : unit? before = some (n, after)) :
    before.length = after.length + 4 := by
  unfold unit? at h
  split at h
  · simp only [Option.bind_eq_bind, Option.bind_eq_some_iff, Option.some.injEq, Prod.mk.injEq] at h
    obtain ⟨_, -, _, -, _, -, _, -, -, rfl⟩ := h
    rfl
  · cases h

/-- A character is written in at least one. -/
theorem Symbol.length_lt {c : Char} (h : Symbol c before after) : after.length < before.length := by
  cases h with
  | plain _ => exact Nat.lt_succ_self _
  | short _ => exact Nat.lt_succ_of_lt (Nat.lt_succ_self _)
  | unit hunit _ _ =>
    have hlength := length_of_unit? hunit
    simp only [List.length_cons]
    omega
  | pair hhigh hlow _ _ =>
    have hlength := length_of_unit? hhigh
    have hlength' := length_of_unit? hlow
    simp only [List.length_cons] at hlength ⊢
    omega

/-- At least the closing quote is taken up. -/
theorem Chars.length_lt {cs : List Char} (h : Chars cs before after) :
    after.length < before.length := by
  induction h with
  | close => simp
  | symbol hsymbol _ ih => exact ih.trans hsymbol.length_lt

/-- A field takes up some characters, if the value in it does. -/
theorem Field.length_lt (h : Field Inner field before after)
    (hvalue : ∀ {d next}, next.length < before.length → Inner d next after →
      after.length < next.length) : after.length < before.length := by
  obtain ⟨hchars, hcolon, hspaced, hd⟩ := h
  have hbetween := hchars.length_lt
  have hbehind := hcolon.length_le
  have hnext := hspaced.length_le
  simp only [List.length_cons] at hvalue hbehind ⊢
  have hafter := hvalue (by omega) hd
  omega

/-- Parts take up some characters, if each of them does. Only parts that stand in the text of all
are asked about, for an induction on its length. -/
theorem Series.length_lt (h : Series close Part parts before after)
    (hpart : ∀ {part next between}, next.length ≤ before.length → Part part next between →
      between.length < next.length) : after.length < before.length := by
  induction h with
  | last hfirst hclose => exact Nat.lt_trans hclose.length_le (hpart le_rfl hfirst)
  | more hfirst hcomma hspaced _ ih =>
    have hbetween := hpart le_rfl hfirst
    have hbehind := hcomma.length_le
    have hnext := hspaced.length_le
    rw [List.length_cons] at hbehind
    have hafter := ih fun hle => hpart (by omega)
    omega

/-- At least the closing bracket is taken up. -/
theorem Enclosed.length_lt (h : Enclosed close Part parts before after)
    (hpart : ∀ {part next between}, next.length ≤ before.length → Part part next between →
      between.length < next.length) : after.length < before.length := by
  cases h with
  | empty hclose => exact hclose.length_le
  | full hspaced hparts =>
    have hfirst := hspaced.length_le
    exact (hparts.length_lt fun hle => hpart (hle.trans hfirst)).trans_le hfirst

/-- **Every value takes up some characters.** -/
theorem Value.length_lt {d : Json} (h : Value real d before after) :
    after.length < before.length := by
  -- the parts of a value stand in shorter texts
  induction hn : before.length using Nat.strong_induction_on generalizing d before after with
  | _ n ih =>
    subst hn
    cases h with
    | @word _ word _ hword =>
      have hpos := List.length_pos_iff.mpr (ne_nil_of_word? hword)
      rw [List.length_append]
      omega
    -- the opening quote or bracket is one character, and what follows takes up others
    | str hchars => exact Nat.lt_succ_of_lt hchars.length_lt
    | arr hitems =>
      refine Nat.lt_succ_of_lt (hitems.length_lt fun hle hitem => ?_)
      exact ih _ (Nat.lt_succ_of_le hle) hitem rfl
    | obj hfields =>
      refine Nat.lt_succ_of_lt (hfields.length_lt fun hle hfield => ?_)
      refine hfield.length_lt fun hlt hvalue => ?_
      exact ih _ (Nat.lt_succ_of_lt (hlt.trans_le hle)) hvalue rfl

/-! ### What is read is written there -/

theorem spaced_skip (cs : List Char) : Spaced cs (skip cs) :=
  ⟨cs.takeWhile isSpace, (List.takeWhile_append_dropWhile).symm,
    fun _ hc => List.mem_takeWhile_imp hc⟩

/-- A mark that was expected and found stands there behind blanks. -/
theorem spaced_of_expect {mark : Char} {cs rest : List Char} (h : expect mark cs = some rest) :
    Spaced cs (mark :: rest) := by
  have hskip := spaced_skip cs
  unfold expect at h
  split at h
  · next c rest' hcs =>
    split_ifs at h with hc
    obtain rfl := Option.some.inj h
    rwa [hcs, hc] at hskip
  · cases h

/-- **A character that is read** is written there. -/
theorem symbol_of_readSymbol {c : Char} {cs rest : List Char}
    (h : readSymbol cs = some (c, rest)) : Symbol c cs rest := by
  unfold readSymbol at h
  split at h
  · next before =>
    simp only [Option.bind_eq_bind, Option.bind_eq_some_iff, Prod.exists] at h
    obtain ⟨n, after, hunit, h⟩ := h
    -- the first of a pair has to be followed by the second, which cannot stand alone
    split_ifs at h with hhigh hlow
    · split at h
      · next between =>
        simp only [Option.bind_eq_some_iff, Prod.exists] at h
        obtain ⟨low, after, hunit', h⟩ := h
        split_ifs at h with hlow
        obtain ⟨rfl, rfl⟩ := Prod.mk.inj (Option.some.inj h)
        exact .pair hunit hunit' hhigh hlow
      · cases h
    · obtain ⟨rfl, rfl⟩ := Prod.mk.inj (Option.some.inj h)
      exact .unit hunit (Bool.eq_false_iff.mpr hhigh) (Bool.eq_false_iff.mpr hlow)
  · -- an escape of one character
    simp only [Option.map_eq_some_iff, Prod.mk.injEq] at h
    obtain ⟨_, hshort, rfl, rfl⟩ := h
    exact .short hshort
  · -- a character that stands for itself
    split_ifs at h with hplain
    cases h
    exact .plain hplain
  · cases h

/-- The characters that are read up to a quote are written there. -/
theorem chars_of_readChars {fuel : Nat} {s cs rest : List Char}
    (h : readChars fuel cs = some (s, rest)) : Chars s cs rest := by
  -- by the fuel: none left, the closing quote, or one more character
  fun_induction readChars fuel cs generalizing s rest with
  | case1 => cases h
  | case2 =>
    cases h
    exact .close
  | case3 fuel cs _ ih =>
    simp only [Option.bind_eq_bind, Option.bind_eq_some_iff, Prod.exists, Option.some.injEq,
      Prod.mk.injEq] at h
    obtain ⟨c, between, hsymbol, s', after, hchars, rfl, rfl⟩ := h
    exact .symbol (symbol_of_readSymbol hsymbol) (ih _ hchars)

variable {readPart : List Char → Option (α × List Char)}
  {readInner : List Char → Option (Json × List Char)}

/-- A word that is read is all that stands there of characters of words. -/
theorem value_of_readWord {d : Json} {cs rest : List Char}
    (h : readWord real cs = some (d, rest)) : Value real d cs rest := by
  obtain ⟨d', hword, heq⟩ := Option.map_eq_some_iff.mp h
  obtain ⟨rfl, rfl⟩ := Prod.mk.inj heq
  have hvalue : Value real d' (_ ++ cs.dropWhile isWordChar) _ := .word hword
  rwa [List.takeWhile_append_dropWhile] at hvalue

/-- A field that is read is written there, if the values that are read are. -/
theorem field_of_readField {cs rest : List Char}
    (h : readField readInner cs = some (field, rest))
    (hvalue : ∀ {d cs rest}, readInner cs = some (d, rest) → Inner d cs rest) :
    Field Inner field cs rest := by
  unfold readField at h
  split at h
  · simp only [Option.bind_eq_bind, Option.bind_eq_some_iff, Prod.exists, Option.some.injEq,
      Prod.mk.injEq] at h
    obtain ⟨key, between, hchars, behind, hcolon, value, after, hread, rfl, rfl⟩ := h
    exact .field (chars_of_readChars hchars) (spaced_of_expect hcolon) (spaced_skip _)
      (hvalue hread)
  · cases h

/-- Parts that are read are written there, if each of them is. -/
theorem series_of_readSeries {fuel : Nat} {cs rest : List Char}
    (h : readSeries close readPart fuel cs = some (parts, rest))
    (hpart : ∀ {part cs rest}, readPart cs = some (part, rest) → Part part cs rest) :
    Series close Part parts cs rest := by
  induction fuel generalizing parts cs with
  | zero => cases h
  | succ fuel ih =>
    simp only [readSeries, Option.bind_eq_bind, Option.bind_eq_some_iff, Prod.exists] at h
    obtain ⟨part, between, hfirst, h⟩ := h
    -- either the closing mark comes next, or else a comma has to
    split at h
    · next hclose =>
      cases h
      exact .last (hpart hfirst) (spaced_of_expect hclose)
    · simp only [Option.bind_eq_some_iff, Prod.exists, Option.some.injEq, Prod.mk.injEq] at h
      obtain ⟨behind, hcomma, parts, after, hparts, rfl, rfl⟩ := h
      exact .more (hpart hfirst) (spaced_of_expect hcomma) (spaced_skip _) (ih hparts)

/-- The same of parts that may be none. -/
theorem enclosed_of_readEnclosed {fuel : Nat} {cs rest : List Char}
    (h : readEnclosed close readPart fuel cs = some (parts, rest))
    (hpart : ∀ {part cs rest}, readPart cs = some (part, rest) → Part part cs rest) :
    Enclosed close Part parts cs rest := by
  unfold readEnclosed at h
  split at h
  · next hclose =>
    cases h
    exact .empty (spaced_of_expect hclose)
  · exact .full (spaced_skip cs) (series_of_readSeries h hpart)

/-- What is read as a value is written as one. -/
theorem value_of_readValue {fuel : Nat} {d : Json} {cs rest : List Char}
    (h : readValue real fuel cs = some (d, rest)) : Value real d cs rest := by
  -- by the fuel, of which what stands in a value is read with one less
  induction fuel generalizing d cs rest with
  | zero => cases h
  | succ fuel ih =>
    unfold readValue at h
    split at h
    · simp only [Option.bind_eq_bind, Option.bind_eq_some_iff, Prod.exists, Option.some.injEq,
        Prod.mk.injEq] at h
      obtain ⟨s, after, hchars, rfl, rfl⟩ := h
      exact .str (chars_of_readChars hchars)
    · simp only [Option.bind_eq_bind, Option.bind_eq_some_iff, Prod.exists, Option.some.injEq,
        Prod.mk.injEq] at h
      obtain ⟨items, after, hitems, rfl, rfl⟩ := h
      exact .arr (enclosed_of_readEnclosed hitems ih)
    · simp only [Option.bind_eq_bind, Option.bind_eq_some_iff, Prod.exists, Option.some.injEq,
        Prod.mk.injEq] at h
      obtain ⟨fields, after, hfields, rfl, rfl⟩ := h
      refine .obj (enclosed_of_readEnclosed hfields fun hfield => ?_)
      exact field_of_readField hfield ih
    · exact value_of_readWord h

/-- **What is read is what is written.** -/
theorem isText_of_decode {d : Json} {cs : List Char} (h : decode real cs = some d) :
    IsText real d cs := by
  simp only [decode, Option.bind_eq_bind, Option.bind_eq_some_iff, Prod.exists] at h
  obtain ⟨d', rest, hvalue, h⟩ := h
  split_ifs at h with hrest
  obtain rfl := Option.some.inj h
  exact ⟨_, _, spaced_skip cs, value_of_readValue hvalue, hrest ▸ spaced_skip rest⟩

/-! ### What is written is read -/

/-- The characters that a value or a field may begin with. -/
def isOpening (c : Char) : Bool :=
  isWordChar c || c == '"' || c == '[' || c == '\x7b'

/-- No value begins with a blank, and no word holds one. -/
theorem of_isSpace {c : Char} (h : isSpace c = true) :
    isWordChar c = false ∧ isOpening c = false := by
  simp only [isSpace, Bool.or_eq_true, beq_iff_eq] at h
  rcases h with ((rfl | rfl) | rfl) | rfl <;> decide

/-- Whether a value or a field may begin in front of `cs`. -/
def Opens (cs : List Char) : Prop := ∃ c ∈ cs.head?, isOpening c = true

/-- Whether no word goes on in `cs`. -/
def Bounded (cs : List Char) : Prop := ∀ c ∈ cs.head?, isWordChar c = false

/-- Blanks end a word. -/
theorem bounded_of_spaced (h : Spaced before after) (hafter : Bounded after) :
    Bounded before := by
  obtain ⟨blanks, rfl, hblanks⟩ := h
  cases blanks with
  | nil => exact hafter
  | cons blank blanks =>
    intro c hc
    obtain rfl : blank = c := by simpa using hc
    exact (of_isSpace (hblanks _ List.mem_cons_self)).1

/-- Blanks make no difference to what is left behind them. -/
theorem skip_of_spaced (h : Spaced before after) : skip before = skip after := by
  obtain ⟨blanks, rfl, hblanks⟩ := h
  exact List.dropWhile_append_of_pos hblanks

/-- What is left behind blanks is where the next value begins. -/
theorem skip_of_opens (h : Spaced before after) (hafter : Opens after) : skip before = after := by
  obtain ⟨c, hc, hopening⟩ := hafter
  obtain ⟨rest, rfl⟩ := List.head?_eq_some_iff.mp hc
  rw [skip_of_spaced h]
  refine List.dropWhile_cons_of_neg fun hspace => ?_
  rw [(of_isSpace hspace).2] at hopening
  cases hopening

/-- Behind blanks, a mark is found if it is the next character. -/
theorem expect_of_spaced {c mark : Char} {cs rest : List Char} (h : Spaced cs (c :: rest))
    (hc : isSpace c = false) : expect mark cs = if c = mark then some rest else none := by
  rw [expect, skip_of_spaced h, skip, List.dropWhile_cons_of_neg (Bool.eq_false_iff.mp hc)]

/-- Where a value begins, no bracket is closed. -/
theorem expect_eq_none_of_opens {mark : Char} {cs rest : List Char} (h : Spaced cs rest)
    (hrest : Opens rest) (hmark : isOpening mark = false) : expect mark cs = none := by
  have hskip := skip_of_opens h hrest
  obtain ⟨c, hc, hopening⟩ := hrest
  obtain ⟨rest, rfl⟩ := List.head?_eq_some_iff.mp hc
  have hne : c ≠ mark := by
    rintro rfl
    exact Bool.false_ne_true (hmark.symm.trans hopening)
  simp only [expect, hskip, if_neg hne]

/-- **A character that is written** is read as it. -/
theorem readSymbol_of_symbol {c : Char} (h : Symbol c before after) :
    readSymbol before = some (c, after) := by
  cases h with
  | plain hplain =>
    have hne : c ≠ '\\' := by
      rintro rfl
      exact absurd hplain (by decide)
    -- no escape begins with a plain character
    rw [readSymbol, if_pos hplain]
    · exact fun _ hc _ => hne hc
    · exact fun _ _ hc _ => hne hc
  -- the reader looks for `u` first, which is no escape of one character
  | short hshort =>
    rw [readSymbol, hshort]
    · rfl
    · rintro rfl
      cases hshort
  | unit hunit hhigh hlow => simp [readSymbol, hunit, hhigh, hlow]
  | pair hunit hunit' hhigh hlow => simp [readSymbol, hunit, hunit', hhigh, hlow]

/-- The characters that are written up to a quote are read as they are, given fuel for each of
them. -/
theorem readChars_of_chars {fuel : Nat} {cs : List Char} (h : Chars cs before after)
    (hfuel : before.length ≤ fuel) : readChars fuel before = some (cs, after) := by
  induction h generalizing fuel with
  | close =>
    obtain ⟨fuel, rfl⟩ := Nat.exists_eq_succ_of_ne_zero (Nat.ne_zero_of_lt hfuel)
    rfl
  | @symbol c cs before between after hsymbol _ ih =>
    have hlength := hsymbol.length_lt
    obtain ⟨fuel, rfl⟩ := Nat.exists_eq_succ_of_ne_zero (Nat.ne_zero_of_lt (hlength.trans_le hfuel))
    -- no character is written as a quote
    have hquote : ∀ rest, before ≠ '"' :: rest := by
      rintro rest rfl
      cases hsymbol with
      | plain hplain => exact absurd hplain (by decide)
    have hcs := ih (Nat.le_of_lt_succ (hlength.trans_le hfuel))
    rw [readChars, readSymbol_of_symbol hsymbol]
    · simp only [Option.bind_eq_bind, Option.bind_some, hcs]
    · exact hquote

/-- A value begins with a character of a word, a quote or a bracket. -/
theorem Value.opens {d : Json} (h : Value real d before after) : Opens before := by
  cases h with
  | @word _ word after hword =>
    obtain ⟨c, cs, rfl⟩ := List.exists_cons_of_ne_nil (ne_nil_of_word? hword)
    have hc := isWordChar_of_word? hword c List.mem_cons_self
    exact ⟨c, rfl, by simp [isOpening, hc]⟩
  | _ => exact ⟨_, rfl, by decide⟩

theorem Field.opens (h : Field Inner field before after) : Opens before := by
  cases h
  exact ⟨_, rfl, by decide⟩

/-- Parts begin as the first of them does. -/
theorem Series.opens (h : Series close Part parts before after)
    (hpart : ∀ {part next between}, Part part next between → Opens next) : Opens before := by
  cases h with
  | last hfirst _ => exact hpart hfirst
  | more hfirst _ _ _ => exact hpart hfirst

/-- A word is read up to its end, where no word goes on behind it. -/
theorem readWord_of_word? {d : Json} {word : List Char} (h : word? real word = some d)
    (hafter : Bounded after) : readWord real (word ++ after) = some (d, after) := by
  have hword := isWordChar_of_word? h
  -- the run of characters of words ends where the word does
  have hstop : after.takeWhile isWordChar = [] ∧ after.dropWhile isWordChar = after := by
    cases after with
    | nil => exact ⟨rfl, rfl⟩
    | cons c after =>
      have hc := Bool.eq_false_iff.mp (hafter c rfl)
      exact ⟨List.takeWhile_cons_of_neg hc, List.dropWhile_cons_of_neg hc⟩
  rw [readWord, List.takeWhile_append_of_pos hword, List.dropWhile_append_of_pos hword, hstop.1,
    hstop.2, List.append_nil, h]
  rfl

/-- A field is read as it is written, if the value in it is. -/
theorem readField_of_field (h : Field Inner field before after)
    (hopens : ∀ {d next between}, Inner d next between → Opens next)
    (hvalue : ∀ {d next}, next.length < before.length → Inner d next after →
      readInner next = some (d, after)) :
    readField readInner before = some (field, after) := by
  obtain ⟨hchars, hcolon, hspaced, hd⟩ := h
  have hbetween := hchars.length_lt
  have hbehind := hcolon.length_le
  have hnext := hspaced.length_le
  simp only [List.length_cons] at hvalue hbehind
  -- nothing but the value can begin behind the colon
  have hskip := skip_of_opens hspaced (hopens hd)
  simp only [readField, readChars_of_chars hchars le_rfl, expect_of_spaced hcolon (by decide),
    hskip, hvalue (by omega) hd, Option.bind_eq_bind, Option.bind_some, if_true]

/-- **Parts are read as they are written**, if each of them is where no word goes on behind it. -/
theorem readSeries_of_series {fuel : Nat} (h : Series close Part parts before after)
    (hopens : ∀ {part next between}, Part part next between → Opens next)
    (hpart : ∀ {part next between}, next.length ≤ before.length → Part part next between →
      between.length < next.length ∧
        (Bounded between → readPart next = some (part, between)))
    (hclose : close = ']' ∨ close = '\x7d') (hfuel : before.length ≤ fuel) :
    readSeries close readPart fuel before = some (parts, after) := by
  obtain ⟨hspace, hword, hcomma⟩ :
      isSpace close = false ∧ isWordChar close = false ∧ ',' ≠ close := by
    rcases hclose with rfl | rfl <;> decide
  -- a part is followed by a comma or by the closing mark, so that no word goes on there
  induction h generalizing fuel with
  | @last part before between after hfirst hend =>
    obtain ⟨hlength, hread⟩ := hpart le_rfl hfirst
    obtain ⟨fuel, rfl⟩ := Nat.exists_eq_succ_of_ne_zero (Nat.ne_zero_of_lt (hlength.trans_le hfuel))
    have hbounded : Bounded between := by
      refine bounded_of_spaced hend ?_
      rintro c ⟨⟩
      exact hword
    simp only [readSeries, hread hbounded, expect_of_spaced hend hspace, Option.bind_eq_bind,
      Option.bind_some, if_true]
  | @more part parts before between behind next after hfirst hnext hspaced hrest ih =>
    obtain ⟨hlength, hread⟩ := hpart le_rfl hfirst
    have hbehind := hnext.length_le
    have hlength' := hspaced.length_le
    rw [List.length_cons] at hbehind
    obtain ⟨fuel, rfl⟩ := Nat.exists_eq_succ_of_ne_zero (Nat.ne_zero_of_lt (hlength.trans_le hfuel))
    have hbounded : Bounded between := by
      refine bounded_of_spaced hnext ?_
      rintro c ⟨⟩
      decide
    -- the blanks behind the comma are over where the next part begins
    have hparts := ih (fun hle => hpart (by omega)) (show next.length ≤ fuel by omega)
    have hskip := skip_of_opens hspaced (hrest.opens hopens)
    have hcomma' : isSpace ',' = false := by decide
    simp only [readSeries, hread hbounded, expect_of_spaced hnext hcomma', if_neg hcomma, hskip,
      hparts, Option.bind_eq_bind, Option.bind_some, if_true]

/-- The same of parts that may be none: where a part begins, the closing bracket is not found. -/
theorem readEnclosed_of_enclosed {fuel : Nat} (h : Enclosed close Part parts before after)
    (hopens : ∀ {part next between}, Part part next between → Opens next)
    (hpart : ∀ {part next between}, next.length ≤ before.length → Part part next between →
      between.length < next.length ∧
        (Bounded between → readPart next = some (part, between)))
    (hclose : close = ']' ∨ close = '\x7d') (hfuel : before.length ≤ fuel) :
    readEnclosed close readPart fuel before = some (parts, after) := by
  obtain ⟨hspace, hopening⟩ : isSpace close = false ∧ isOpening close = false := by
    rcases hclose with rfl | rfl <;> decide
  cases h with
  | empty hend => simp only [readEnclosed, expect_of_spaced hend hspace, if_true]
  -- a part begins there, and no part begins with the closing mark
  | full hspaced hparts =>
    have hfirst := hspaced.length_le
    have hfirstOpens := hparts.opens hopens
    simp only [readEnclosed, expect_eq_none_of_opens hspaced hfirstOpens hopening,
      skip_of_opens hspaced hfirstOpens]
    exact readSeries_of_series hparts hopens (fun hle => hpart (hle.trans hfirst)) hclose
      (hfirst.trans hfuel)

/-- A word is read as one, as none begins like a value of another kind. -/
theorem readValue_of_word? (fuel : Nat) {d : Json} {word : List Char}
    (h : word? real word = some d) (hafter : Bounded after) :
    readValue real (fuel + 1) (word ++ after) = some (d, after) := by
  have hread := readWord_of_word? h hafter
  have hchars := isWordChar_of_word? h
  obtain ⟨c, cs, rfl⟩ := List.exists_cons_of_ne_nil (ne_nil_of_word? h)
  have hc := hchars c List.mem_cons_self
  -- no word begins with a quote or a bracket
  have hne : c ≠ '"' ∧ c ≠ '[' ∧ c ≠ '\x7b' := by
    refine ⟨?_, ?_, ?_⟩
    all_goals
      rintro rfl
      cases hc
  rw [List.cons_append] at hread ⊢
  simp only [readValue]
  split
  · next heq => exact absurd (List.cons.inj heq).1 hne.1
  · next heq => exact absurd (List.cons.inj heq).1 hne.2.1
  · next heq => exact absurd (List.cons.inj heq).1 hne.2.2
  · exact hread

/-- What is written as a value is read as it, where no word goes on behind it. -/
theorem readValue_of_value {fuel : Nat} {d : Json} (h : Value real d before after)
    (hafter : Bounded after) (hfuel : before.length ≤ fuel) :
    readValue real fuel before = some (d, after) := by
  -- by the fuel: what stands in a value has one character less to it
  induction fuel generalizing d before after with
  | zero => exact absurd (h.length_lt.trans_le hfuel) (Nat.not_lt_zero _)
  | succ fuel ih =>
    cases h with
    | word hword => exact readValue_of_word? fuel hword hafter
    | str hchars =>
      simp only [readValue, readChars_of_chars hchars le_rfl, Option.bind_eq_bind,
        Option.bind_some]
    | @arr items before after hitems =>
      have hbefore := Nat.le_of_succ_le_succ hfuel
      have hread : readEnclosed ']' (readValue real fuel) fuel before = some (items, after) := by
        refine readEnclosed_of_enclosed hitems Value.opens (fun hle hitem => ?_) (.inl rfl) hbefore
        exact ⟨hitem.length_lt, fun hbounded => ih hitem hbounded (hle.trans hbefore)⟩
      simp only [readValue, hread, Option.bind_eq_bind, Option.bind_some]
    | @obj fields before after hfields =>
      have hbefore := Nat.le_of_succ_le_succ hfuel
      have hread : readEnclosed '\x7d' (readField (readValue real fuel)) fuel before
          = some (fields, after) := by
        refine readEnclosed_of_enclosed hfields Field.opens (fun hle hfield => ?_) (.inr rfl)
          hbefore
        refine ⟨hfield.length_lt fun _ hvalue => hvalue.length_lt, fun hbounded => ?_⟩
        refine readField_of_field hfield Value.opens fun hlt hvalue => ?_
        exact ih hvalue hbounded (hlt.le.trans (hle.trans hbefore))
      simp only [readValue, hread, Option.bind_eq_bind, Option.bind_some]

/-- **Reading a text is being given its value** by the grammar. -/
theorem decode_eq_some_iff {d : Json} {cs : List Char} :
    decode real cs = some d ↔ IsText real d cs := by
  refine ⟨isText_of_decode, ?_⟩
  rintro ⟨before, after, hbefore, hvalue, hafter⟩
  have hskip := skip_of_opens hbefore hvalue.opens
  -- behind the value there are blanks only, so that no word goes on
  have hread : readValue real cs.length before = some (d, after) :=
    readValue_of_value hvalue (bounded_of_spaced hafter nofun) hbefore.length_le
  have hend : skip after = [] := skip_of_spaced hafter
  simp only [decode, hskip, hread, hend, Option.bind_eq_bind, Option.bind_some, if_true]

-- Numbers, escapes and keys may be written in ways that no value is written in here.
example :
    decode (fun word => .str (String.ofList word))
      " [1, -0 ,2.50e+1,\"\\u00E9\\uD83d\\uDE00\\/\", \x7b\"a\":1, \"b\":null,\"a\":2\x7d]".toList =
    some (.arr [.int 1, .int 0, .str "2.50e+1", .str "é😀/",
      .obj [("a", .int 2), ("b", .null)]]) :=
  rfl

-- These are no texts of JSON.
example : ∀ text ∈ ["", "01", "+1", "1.", ".5", "nul", "[1,]", "[1] 2", "\"\n\"", "\"\\uD83D\""],
    decode (fun _ => .null) text.toList |>.isNone := by
  decide

/-- A text has one value at most. -/
theorem IsText.unique {d d' : Json} {cs : List Char} (h : IsText real d cs)
    (h' : IsText real d' cs) : d = d' :=
  Option.some.inj ((decode_eq_some_iff.mpr h).symm.trans (decode_eq_some_iff.mpr h'))

end Blocklist.Json
