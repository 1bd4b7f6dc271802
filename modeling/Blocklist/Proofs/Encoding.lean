import Blocklist.Json
import Blocklist.Text.Encode
import Blocklist.Proofs.Decimals
import Mathlib.Data.List.Basic
import Mathlib.Data.List.TakeWhile
import Mathlib.Tactic.SplitIfs

/-!
# Which texts have bytes

A text has bytes unless there is a half of a surrogate pair in it. The text of a JSON value adds
nothing but characters below U+0080 to the strings and the keys in the value, and none of these
stands for a half. So whether a value can be written in a file is told by its strings and keys.

* `Codec.HasHalf` — whether there is a half in a text; `Codec.encode_eq_ok_iff` — then and only then
  it has no bytes; `Codec.encode_eq_error` — which halves are named in the error;
* `Json.strings` — the strings and keys in a value, at any depth;
* `Json.mem_write_iff` — where the characters of a text come from;
  `Json.hasHalf_text_iff` — whether a half is among them.
-/

namespace Blocklist

/-! ### Texts -/

namespace Text.Codec

variable {codec : Codec}

/-- **Whether there is a half in a text.** -/
def HasHalf (codec : Codec) (content : String) : Prop :=
  ∃ c ∈ content.toList, codec.half? c ≠ none

/-- Nothing is found exactly where no character stands for a half. -/
theorem firstHalves?_eq_none_iff {place : Nat} {cs : List Char} :
    codec.firstHalves? place cs = none ↔ ∀ c ∈ cs, codec.half? c = none := by
  induction cs generalizing place with
  | nil => simp [firstHalves?]
  | cons c cs ih =>
    rw [firstHalves?, List.forall_mem_cons]
    cases hhalf : codec.half? c with
    | none => simp [ih]
    | some half => simp

/-- **When a text has bytes**, and which. -/
theorem encode_eq_ok_iff {content : String} {bytes : ByteArray} :
    codec.encode content = .ok bytes ↔ ¬ codec.HasHalf content ∧ bytes = content.toUTF8 := by
  -- looking for halves is looking at every character
  have hnone : ¬ codec.HasHalf content ↔ codec.firstHalves? 0 content.toList = none := by
    rw [firstHalves?_eq_none_iff]
    simp [HasHalf]
  rw [hnone, encode]
  cases codec.firstHalves? 0 content.toList with
  | none => simp [eq_comm]
  | some e => simp

/-- A text without halves has the bytes that it would have anyway. -/
theorem encode_of_not_hasHalf {content : String} (h : ¬ codec.HasHalf content) :
    codec.encode content = .ok content.toUTF8 :=
  encode_eq_ok_iff.mpr ⟨h, rfl⟩

/-- Where nothing stands for a half, no text has one. -/
theorem not_hasHalf_plain (content : String) : ¬ HasHalf plain content := by
  rintro ⟨c, -, h⟩
  exact h rfl

/-- A text has a half exactly if it cannot be encoded. -/
theorem exists_encode_eq_error_iff {content : String} :
    (∃ e, codec.encode content = .error e) ↔ codec.HasHalf content := by
  -- encoding comes to bytes or to an error, and to bytes without halves only
  cases hencode : codec.encode content with
  | ok bytes =>
    have hnone := (encode_eq_ok_iff.mp hencode).1
    refine ⟨?_, fun h => absurd h hnone⟩
    rintro ⟨e, h⟩
    cases h
  | error e =>
    refine ⟨fun _ => ?_, fun _ => ⟨e, rfl⟩⟩
    by_contra hnone
    rw [encode_of_not_hasHalf hnone] at hencode
    cases hencode

/-- **Where the first halves stand**: behind characters without any, as many as follow each
other. -/
theorem firstHalves?_eq_some {place : Nat} {cs : List Char} {e : Unencodable}
    (h : codec.firstHalves? place cs = some e) :
    ∃ front c more back, cs = front ++ c :: (more ++ back) ∧
      (∀ c ∈ front, codec.half? c = none) ∧ codec.half? c = some e.half ∧
      (∀ c ∈ more, codec.half? c ≠ none) ∧ (∀ c ∈ back.head?, codec.half? c = none) ∧
      e.first = place + front.length ∧ e.last = e.first + more.length := by
  induction cs generalizing place with
  | nil => cases h
  | cons c cs ih =>
    rw [firstHalves?] at h
    cases hhalf : codec.half? c with
    | none =>
      rw [hhalf] at h
      obtain ⟨front, c', more, back, rfl, hfront, hc', hmore, hback, hfirst, hlast⟩ := ih h
      refine ⟨c :: front, c', more, back, rfl, List.forall_mem_cons.mpr ⟨hhalf, hfront⟩, hc', hmore,
        hback, ?_, hlast⟩
      rw [hfirst, List.length_cons]
      omega
    | some half =>
      rw [hhalf] at h
      obtain rfl := Option.some.inj h
      -- the halves are those up to the first character that is none
      refine ⟨[], c, _, cs.dropWhile fun c => (codec.half? c).isSome, ?_, nofun, hhalf, ?_, ?_, rfl,
        rfl⟩
      · rw [List.nil_append, List.takeWhile_append_dropWhile]
      · intro c hc
        have hsome := List.mem_takeWhile_imp (p := fun c => (codec.half? c).isSome) hc
        exact Option.isSome_iff_ne_none.mp hsome
      · intro c hc
        have hstop := List.head?_dropWhile_not (fun c => (codec.half? c).isSome) cs
        rw [Option.mem_def.mp hc] at hstop
        simpa using hstop

/-- **What an encoding error names**: the first halves in the text, all that stand together, by the
first of them and the places of the first and the last. -/
theorem encode_eq_error {content : String} {e : Unencodable}
    (h : codec.encode content = .error e) :
    ∃ front c more back, content.toList = front ++ c :: (more ++ back) ∧
      (∀ c ∈ front, codec.half? c = none) ∧ codec.half? c = some e.half ∧
      (∀ c ∈ more, codec.half? c ≠ none) ∧ (∀ c ∈ back.head?, codec.half? c = none) ∧
      e.first = front.length ∧ e.last = front.length + more.length := by
  unfold encode at h
  cases hhalves : codec.firstHalves? 0 content.toList with
  | none =>
    rw [hhalves] at h
    cases h
  | some e' =>
    rw [hhalves] at h
    obtain rfl := Except.error.inj h
    obtain ⟨front, c, more, back, hsplit, hfront, hc, hmore, hback, hfirst, hlast⟩ :=
      firstHalves?_eq_some hhalves
    rw [Nat.zero_add] at hfirst
    -- a text is counted from its first character on
    exact ⟨front, c, more, back, hsplit, hfront, hc, hmore, hback, hfirst, hfirst ▸ hlast⟩

end Text.Codec

/-! ### Texts of values -/

namespace Json

mutual

/-- **The strings and the keys in a value**, at any depth. -/
def strings : Json → List String
  | .null | .bool _ | .int _ => []
  | .str s => [s]
  | .arr items => stringsOfItems items
  | .obj fields => stringsOfFields fields

/-- The strings and the keys in some items. -/
def stringsOfItems : List Json → List String
  | [] => []
  | item :: items => strings item ++ stringsOfItems items

/-- The strings and the keys in some fields. -/
def stringsOfFields : List (String × Json) → List String
  | [] => []
  | field :: fields => stringsOfField field ++ stringsOfFields fields

/-- The strings and the keys in a field. -/
def stringsOfField : String × Json → List String
  | (key, value) => key :: strings value

end

/-- The strings in some values, one value after the other. -/
theorem stringsOfItems_eq_flatMap (items : List Json) :
    stringsOfItems items = items.flatMap strings := by
  induction items with
  | nil => rfl
  | cons item items ih => rw [stringsOfItems, ih, List.flatMap_cons]

/-- The characters that stand for themselves in every text. -/
def Low (c : Char) : Prop := c.toNat < 0x80

instance (c : Char) : Decidable (Low c) := inferInstanceAs (Decidable (c.toNat < 0x80))

/-- Fixed characters are looked through. -/
theorem low_of_all {cs : List Char} (h : cs.all (Low ·) = true) :
    ∀ c ∈ cs, Low c := fun c hc => of_decide_eq_true (List.all_eq_true.mp h c hc)

theorem low_of_isDigit {c : Char} (h : c.isDigit) : Low c := by
  simp only [Char.isDigit, Bool.and_eq_true, decide_eq_true_eq, UInt32.le_iff_toNat_le] at h
  exact Nat.lt_of_le_of_lt h.2 (by decide)

/-- A number is written in digits and a sign. -/
theorem low_of_mem_toString {c : Char} {n : Int} (h : c ∈ (toString n).toList) : Low c := by
  rcases Text.isDigit_of_mem_toString h with hdigit | rfl
  · exact low_of_isDigit hdigit
  · decide

/-- The digits of escapes. -/
theorem low_hexDigit {n : Nat} (hn : n < 16) : Low (hexDigit n) := by
  have hall : ∀ n < 16, Low (hexDigit n) := by decide
  exact hall n hn

/-- What a character below U+0080 is escaped to stays below U+0080. -/
theorem low_of_mem_escape {d : Char} (hd : Low d) : ∀ c ∈ escape d, Low c := by
  unfold escape
  -- the quote, the backslash, five controls with an escape of their own, the others, and the rest
  iterate 7
    split
    · exact low_of_all (by decide)
  split
  case isTrue hcontrol =>
    have hhigh := low_hexDigit (n := d.toNat / 16) (by omega)
    have hrest := low_hexDigit (n := d.toNat % 16) (by omega)
    simpa only [List.forall_mem_cons, List.not_mem_nil, false_imp_iff, implies_true, and_true]
      using ⟨by decide, by decide, by decide, by decide, hhigh, hrest⟩
  case isFalse => simpa only [List.mem_singleton, forall_eq] using hd

/-- A character beyond U+007F has no escape. -/
theorem escape_of_not_low {d : Char} (hd : ¬ Low d) : escape d = [d] := by
  -- a character that is escaped is below U+0080, and this one is not
  have hne : ∀ e, Low e → d ≠ e := by
    rintro e he rfl
    exact hd he
  have hcontrol : ¬ d.toNat < 0x20 := fun h => hd (Nat.lt_trans h (by decide))
  rw [escape, if_neg (hne _ (by decide)), if_neg (hne _ (by decide)), if_neg (hne _ (by decide)),
    if_neg (hne _ (by decide)), if_neg (hne _ (by decide)), if_neg (hne _ (by decide)),
    if_neg (hne _ (by decide)), if_neg hcontrol]

section Beyond

variable {c : Char} (hc : ¬ Low c)

include hc

/-- **An escape hides no character** beyond U+007F and brings in none. -/
theorem mem_escape_iff {d : Char} : c ∈ escape d ↔ c = d := by
  by_cases hd : Low d
  · refine ⟨fun hmem => absurd (low_of_mem_escape hd c hmem) hc, ?_⟩
    rintro rfl
    exact absurd hd hc
  · rw [escape_of_not_low hd, List.mem_singleton]

/-- Line feeds and indents bring in no character beyond U+007F. -/
theorem mem_newline_iff {depth : Nat} {rest : List Char} : c ∈ newline depth rest ↔ c ∈ rest := by
  have hblanks : ∀ d ∈ '\n' :: List.replicate (2 * depth) ' ', Low d := by
    refine List.forall_mem_cons.mpr ⟨by decide, fun d hd => ?_⟩
    rw [List.eq_of_mem_replicate hd]
    decide
  rw [newline, ← List.cons_append, List.mem_append, or_iff_right fun hmem => hc (hblanks c hmem)]

/-- What is between the quotes of a text is the text. -/
theorem mem_writeString_iff {s : String} {rest : List Char} :
    c ∈ writeString s rest ↔ c ∈ s.toList ∨ c ∈ rest := by
  have hquote : c ≠ '"' := fun h => hc (h ▸ by decide)
  simp only [writeString, List.mem_cons, List.mem_append, List.mem_flatMap, mem_escape_iff hc,
    hquote, false_or, exists_eq_right']

/-- What has no strings in it is laid out below U+0080. -/
theorem mem_low_append_iff {cs rest : List Char} (h : ∀ d ∈ cs, Low d) :
    c ∈ cs ++ rest ↔ c ∈ ([] : List String).flatMap String.toList ∨ c ∈ rest := by
  rw [List.mem_append, List.flatMap_nil, or_iff_right fun hmem => hc (h c hmem),
    or_iff_right List.not_mem_nil]

theorem mem_low_cons_iff {d : Char} {rest : List Char} (h : Low d) : c ∈ d :: rest ↔ c ∈ rest := by
  rw [List.mem_cons, or_iff_right]
  rintro rfl
  exact hc h

mutual

/-- **Where the characters of a text come from**: beyond U+007F all are from strings and keys. -/
theorem mem_write_iff (depth : Nat) (d : Json) (rest : List Char) :
    c ∈ write depth d rest ↔ c ∈ d.strings.flatMap String.toList ∨ c ∈ rest :=
  match d with
  | .null => mem_low_append_iff hc (low_of_all rfl)
  | .bool true => mem_low_append_iff hc (low_of_all rfl)
  | .bool false => mem_low_append_iff hc (low_of_all rfl)
  | .int n => mem_low_append_iff hc fun _ => low_of_mem_toString
  | .str s => by
    refine (mem_writeString_iff hc).trans ?_
    rw [strings, List.flatMap_singleton]
  | .arr [] => mem_low_append_iff hc (low_of_all rfl : ∀ d ∈ ['[', ']'], Low d)
  | .arr (item :: items) => by
    refine (mem_low_cons_iff hc (by decide)).trans ((mem_newline_iff hc).trans ?_)
    rw [mem_write_iff, mem_writeItems_iff, strings, stringsOfItems, List.flatMap_append,
      List.mem_append, or_assoc]
  | .obj [] => mem_low_append_iff hc (low_of_all rfl : ∀ d ∈ ['\x7b', '\x7d'], Low d)
  | .obj (field :: fields) => by
    refine (mem_low_cons_iff hc (by decide)).trans ((mem_newline_iff hc).trans ?_)
    rw [mem_writeField_iff, mem_writeFields_iff, strings, stringsOfFields, List.flatMap_append,
      List.mem_append, or_assoc]

/-- The same of items, each with what separates it from the one before. -/
theorem mem_writeItems_iff (depth : Nat) (items : List Json) (rest : List Char) :
    c ∈ writeItems depth items rest ↔ c ∈ (stringsOfItems items).flatMap String.toList ∨ c ∈ rest :=
  match items with
  | [] => by
    refine (mem_newline_iff hc).trans ?_
    exact mem_low_append_iff hc (low_of_all rfl : ∀ d ∈ [']'], Low d)
  | item :: items => by
    refine (mem_low_cons_iff hc (by decide)).trans ((mem_newline_iff hc).trans ?_)
    rw [mem_write_iff, mem_writeItems_iff, stringsOfItems, List.flatMap_append, List.mem_append,
      or_assoc]

/-- The same of fields. -/
theorem mem_writeFields_iff (depth : Nat) (fields : List (String × Json)) (rest : List Char) :
    c ∈ writeFields depth fields rest ↔
      c ∈ (stringsOfFields fields).flatMap String.toList ∨ c ∈ rest :=
  match fields with
  | [] => by
    refine (mem_newline_iff hc).trans ?_
    exact mem_low_append_iff hc (low_of_all rfl : ∀ d ∈ ['\x7d'], Low d)
  | field :: fields => by
    refine (mem_low_cons_iff hc (by decide)).trans ((mem_newline_iff hc).trans ?_)
    rw [mem_writeField_iff, mem_writeFields_iff, stringsOfFields, List.flatMap_append,
      List.mem_append, or_assoc]

/-- The same of one field, where the key is a string as well. -/
theorem mem_writeField_iff (depth : Nat) (field : String × Json) (rest : List Char) :
    c ∈ writeField depth field rest ↔ c ∈ (stringsOfField field).flatMap String.toList ∨ c ∈ rest :=
  match field with
  | (key, value) => by
    refine (mem_writeString_iff hc).trans ?_
    rw [mem_low_cons_iff hc (by decide), mem_low_cons_iff hc (by decide), mem_write_iff,
      stringsOfField, List.flatMap_cons, List.mem_append, or_assoc]

end

end Beyond

/-- A value has a text exactly if every number in it can be written. -/
theorem exists_text_eq_ok_iff {d : Json} :
    (∃ content, d.text = .ok content) ↔ d.writable = true := by
  unfold text
  split_ifs with h
  · simp [h]
  · simp [h]

/-- **When the text of a value has a half**: there is one in a string or in a key. -/
theorem hasHalf_text_iff {codec : Text.Codec} {d : Json} {content : String}
    (h : d.text = .ok content) :
    codec.HasHalf content ↔ ∃ s ∈ d.strings, codec.HasHalf s := by
  unfold text at h
  split_ifs at h
  obtain rfl := Except.ok.inj h
  rw [Text.Codec.HasHalf, String.toList_ofList]
  -- what stands for a half is no character that the text brings in by itself
  have hbeyond {c : Char} (hc : codec.half? c ≠ none) : ¬ Low c := fun hlow =>
    hc (codec.half?_of_lt c hlow)
  have hmem {c : Char} (hc : codec.half? c ≠ none) :
      c ∈ write 0 d ['\n'] ↔ ∃ s ∈ d.strings, c ∈ s.toList := by
    have hend : c ∉ ['\n'] := by
      intro hmem
      rw [List.mem_singleton.mp hmem] at hc
      exact hbeyond hc (by decide)
    rw [mem_write_iff (hbeyond hc), or_iff_left hend, List.mem_flatMap]
  refine ⟨?_, ?_⟩
  · rintro ⟨c, hwritten, hc⟩
    obtain ⟨s, hs, hcs⟩ := (hmem hc).mp hwritten
    exact ⟨s, hs, c, hcs, hc⟩
  · rintro ⟨s, hs, c, hcs, hc⟩
    exact ⟨c, (hmem hc).mpr ⟨s, hs, hcs⟩, hc⟩

end Json

/-- A codec by which the first character of the private use area stands for U+D800. -/
def privateUse : Text.Codec where
  half? c := if c = '\uE000' then some 0 else none
  half?_of_lt := by
    intro c hc
    rw [if_neg]
    rintro rfl
    exact absurd hc (by decide)

-- One half is shown, several are counted.
example : (["\"a\uE000\"\n", "\uE000\uE000\uE000.", "a"].map fun content =>
    match privateUse.encode content with
    | .ok _ => ""
    | .error cause => cause.message) =
    ["'utf-8' codec can't encode character '\\ud800' in position 2: surrogates not allowed",
      "'utf-8' codec can't encode characters in position 0-2: surrogates not allowed", ""] := by
  decide +kernel

end Blocklist
