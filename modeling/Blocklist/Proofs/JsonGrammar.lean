import Blocklist.Json
import Mathlib.Computability.RegularExpressions

/-!
# The grammar of JSON

Which texts are JSON, and the value that each stands for. A part of a text is told by two lists: the
characters from where it begins, and those from where it has ended.

* `word?` — what stands without quotes or brackets: the three names and the numbers;
* `Symbol`, `Chars` — what stands between quotes;
* `Series`, `Enclosed`, `Field` — what stands between brackets, for any kind of part;
* `Value` — the values, by what they are made of;
* `IsText` — the texts of a value: the value, with blanks around it.

A value here has whole numbers only. What a number with a fraction or an exponent stands for is left
open, so that all that is shown holds for every choice. An escaped surrogate counts as one of a pair
or not at all, as no character is one.
-/

namespace Blocklist.Json

/-! ### Words -/

/-- One of some characters. -/
def oneOf (cs : List Char) : RegularExpression Char :=
  cs.foldr (fun c e => .char c + e) 0

def digit : RegularExpression Char := oneOf "0123456789".toList

/-- Whole numbers without a sign. No zero leads but that of zero itself. -/
def unsigned : RegularExpression Char :=
  .char '0' + oneOf "123456789".toList * digit.star

/-- **Whole numbers.** -/
def whole : RegularExpression Char := (1 + .char '-') * unsigned

/-- **Numbers**, with a fraction and an exponent if there are any. -/
def number : RegularExpression Char :=
  whole * (1 + .char '.' * digit * digit.star) *
    (1 + oneOf "eE".toList * (1 + oneOf "+-".toList) * digit * digit.star)

/-- What the digits of a whole number stand for. -/
def wholeValue : List Char → Int
  | '-' :: digits => -(Nat.ofDigitChars 10 digits 0 : Int)
  | digits => Nat.ofDigitChars 10 digits 0

/-- **What a word stands for**; `real` says what a number does that is not written as a whole
one. -/
def word? (real : List Char → Json) (word : List Char) : Option Json :=
  if word = "null".toList then some .null
  else if word = "true".toList then some (.bool true)
  else if word = "false".toList then some (.bool false)
  else if word ∈ whole.matches' then some (.int (wholeValue word))
  else if word ∈ number.matches' then some (real word)
  else none

/-- The characters that words are made of. -/
def isWordChar (c : Char) : Bool :=
  c.isAlphanum || c == '+' || c == '-' || c == '.'

/-- Whether an expression is made of characters of words. -/
def spelled : RegularExpression Char → Bool
  | .zero | .epsilon => true
  | .char c => isWordChar c
  | .plus e e' | .comp e e' => spelled e && spelled e'
  | .star e => spelled e

/-- An expression that is spelled in characters of words matches nothing else. -/
theorem isWordChar_of_mem_matches' {e : RegularExpression Char} (he : spelled e = true)
    {word : List Char} (hword : word ∈ e.matches') : ∀ c ∈ word, isWordChar c = true := by
  -- on the expression, one case for each way to put a word together
  induction e generalizing word with
  | zero => cases hword
  | epsilon =>
    rw [(Language.mem_one word).mp hword]
    exact nofun
  | char c =>
    rw [Set.mem_singleton_iff.mp hword]
    exact List.forall_mem_singleton.mpr he
  | plus e e' ih ih' =>
    obtain ⟨hleft, hright⟩ := Bool.and_eq_true_iff.mp he
    exact hword.elim (ih hleft) (ih' hright)
  | comp e e' ih ih' =>
    obtain ⟨hleft, hright⟩ := Bool.and_eq_true_iff.mp he
    obtain ⟨front, hfront, back, hback, rfl⟩ := Language.mem_mul.mp hword
    exact List.forall_mem_append.mpr ⟨ih hleft hfront, ih' hright hback⟩
  | star e ih =>
    obtain ⟨parts, rfl, hparts⟩ := Language.mem_kstar.mp hword
    intro c hc
    obtain ⟨part, hpart, hc⟩ := List.mem_flatten.mp hc
    exact ih he (hparts part hpart) c hc

/-- **Words are made of characters of words.** -/
theorem isWordChar_of_word? {real : List Char → Json} {word : List Char} {d : Json}
    (h : word? real word = some d) : ∀ c ∈ word, isWordChar c = true := by
  unfold word? at h
  split_ifs at h with hnull htrue hfalse hwhole hnumber
  · subst hnull
    exact List.all_eq_true.mp rfl
  · subst htrue
    exact List.all_eq_true.mp rfl
  · subst hfalse
    exact List.all_eq_true.mp rfl
  · exact isWordChar_of_mem_matches' (by decide) hwhole
  · exact isWordChar_of_mem_matches' (by decide) hnumber

/-- No word is empty. -/
theorem ne_nil_of_word? {real : List Char → Json} {word : List Char} {d : Json}
    (h : word? real word = some d) : word ≠ [] := by
  rintro rfl
  have hnone : word? real [] = none := by
    rw [word?, if_neg (by decide), if_neg (by decide), if_neg (by decide), if_neg (by decide),
      if_neg (by decide)]
  cases hnone.symm.trans h

/-! ### Blanks -/

/-- The blanks that stand between the parts of a text. -/
def isSpace (c : Char) : Bool :=
  c == ' ' || c == '\n' || c == '\r' || c == '\t'

/-- Whether only blanks stand in front of `after`. -/
def Spaced (before after : List Char) : Prop :=
  ∃ blanks, before = blanks ++ after ∧ ∀ c ∈ blanks, isSpace c = true

theorem Spaced.refl (cs : List Char) : Spaced cs cs := ⟨[], rfl, nofun⟩

/-- Blanks are only ever skipped. -/
theorem Spaced.length_le {before after : List Char} (h : Spaced before after) :
    after.length ≤ before.length := by
  obtain ⟨blanks, rfl, -⟩ := h
  rw [List.length_append]
  exact Nat.le_add_left _ _

/-! ### Between quotes -/

/-- The characters that stand between quotes as they are. -/
def isPlain (c : Char) : Bool :=
  0x20 ≤ c.toNat && c != '"' && c != '\\'

/-- What a character behind a backslash stands for. -/
def shortEscape? : Char → Option Char
  | '"' => some '"'
  | '\\' => some '\\'
  | '/' => some '/'
  | 'b' => some '\x08'
  | 'f' => some '\x0C'
  | 'n' => some '\n'
  | 'r' => some '\r'
  | 't' => some '\t'
  | _ => none

/-- The value of a hexadecimal digit in either case. -/
def hexValue? (c : Char) : Option Nat :=
  if '0' ≤ c ∧ c ≤ '9' then some (c.toNat - '0'.toNat)
  else if 'a' ≤ c ∧ c ≤ 'f' then some (c.toNat - 'a'.toNat + 10)
  else if 'A' ≤ c ∧ c ≤ 'F' then some (c.toNat - 'A'.toNat + 10)
  else none

/-- The number that four hexadecimal digits stand for, and what is behind them. -/
def unit? : List Char → Option (Nat × List Char)
  | a :: b :: c :: d :: after => do
    let a ← hexValue? a
    let b ← hexValue? b
    let c ← hexValue? c
    let d ← hexValue? d
    some (((a * 16 + b) * 16 + c) * 16 + d, after)
  | _ => none

/-- The first of a pair of surrogates. -/
def isHigh (n : Nat) : Bool := 0xD800 ≤ n && n < 0xDC00

/-- The second of a pair of surrogates. -/
def isLow (n : Nat) : Bool := 0xDC00 ≤ n && n < 0xE000

/-- The character that a pair of surrogates stands for. -/
def paired (high low : Nat) : Char :=
  Char.ofNat (0x10000 + (high - 0xD800) * 0x400 + (low - 0xDC00))

/-- **How one character is written** between quotes. -/
inductive Symbol : Char → List Char → List Char → Prop where
  | plain {c : Char} {after : List Char} : isPlain c = true → Symbol c (c :: after) after
  | short {e c : Char} {after : List Char} :
    shortEscape? e = some c → Symbol c ('\\' :: e :: after) after
  | unit {n : Nat} {before after : List Char} :
    unit? before = some (n, after) → isHigh n = false → isLow n = false →
    Symbol (Char.ofNat n) ('\\' :: 'u' :: before) after
  | pair {high low : Nat} {before between after : List Char} :
    unit? before = some (high, '\\' :: 'u' :: between) → unit? between = some (low, after) →
    isHigh high = true → isLow low = true →
    Symbol (paired high low) ('\\' :: 'u' :: before) after

/-- **How a text is written** up to its closing quote, and with it. -/
inductive Chars : List Char → List Char → List Char → Prop where
  | close {after : List Char} : Chars [] ('"' :: after) after
  | symbol {c : Char} {cs before between after : List Char} :
    Symbol c before between → Chars cs between after → Chars (c :: cs) before after

/-! ### Values -/

/-- How some parts are written with commas between them, up to a closing mark, and with it. -/
inductive Series {α : Type} (close : Char) (Part : α → List Char → List Char → Prop) :
    List α → List Char → List Char → Prop where
  | last {part : α} {before between after : List Char} :
    Part part before between → Spaced between (close :: after) →
    Series close Part [part] before after
  | more {part : α} {parts : List α} {before between behind next after : List Char} :
    Part part before between → Spaced between (',' :: behind) → Spaced behind next →
    Series close Part parts next after → Series close Part (part :: parts) before after

/-- How some parts, or none, are written behind an opening bracket. -/
inductive Enclosed {α : Type} (close : Char) (Part : α → List Char → List Char → Prop) :
    List α → List Char → List Char → Prop where
  | empty {before after : List Char} :
    Spaced before (close :: after) → Enclosed close Part [] before after
  | full {parts : List α} {before first after : List Char} :
    Spaced before first → Series close Part parts first after →
    Enclosed close Part parts before after

/-- How a field is written, by how its value is. -/
inductive Field (Inner : Json → List Char → List Char → Prop) :
    String × Json → List Char → List Char → Prop where
  | field {key : List Char} {value : Json} {before between behind next after : List Char} :
    Chars key before between → Spaced between (':' :: behind) → Spaced behind next →
    Inner value next after → Field Inner (String.ofList key, value) ('"' :: before) after

variable (real : List Char → Json)

/-- **How a value is written.** -/
inductive Value : Json → List Char → List Char → Prop where
  | word {d : Json} {word after : List Char} :
    word? real word = some d → Value d (word ++ after) after
  | str {cs before after : List Char} :
    Chars cs before after → Value (.str (String.ofList cs)) ('"' :: before) after
  | arr {items : List Json} {before after : List Char} :
    Enclosed ']' Value items before after → Value (.arr items) ('[' :: before) after
  | obj {fields : List (String × Json)} {before after : List Char} :
    Enclosed '\x7d' (Field Value) fields before after →
    Value (object fields) ('\x7b' :: before) after

/-- **The texts of a value.** -/
def IsText (d : Json) (cs : List Char) : Prop :=
  ∃ before after, Spaced cs before ∧ Value real d before after ∧ Spaced after []

end Blocklist.Json
