import Blocklist.Proofs.Decimals
import Blocklist.Proofs.JsonReader
import Blocklist.Proofs.Saving
import Blocklist.Proofs.Utf8RoundTrip

/-!
# JSON is lossless

The text that a value is written as is JSON, and what it stands for is the value. So is the file
that the value is saved in, and no other value is ever saved in the same one.

* `Distinct` — values whose objects have no key twice;
* `value_write` — what is written is a value by the grammar, whatever is written behind it;
* `SavedAs` — the bytes that a value may be saved as;
* `text_lossless` — the main statement.
-/

namespace Blocklist.Json

/-! ### Distinct keys -/

/-- **Values whose objects have no key twice**, at any depth. -/
inductive Distinct : Json → Prop where
  | null : Distinct .null
  | bool (b : Bool) : Distinct (.bool b)
  | int (n : Int) : Distinct (.int n)
  | str (s : String) : Distinct (.str s)
  | arr {items : List Json} : (∀ item ∈ items, Distinct item) → Distinct (.arr items)
  | obj {fields : List (String × Json)} : (fields.map Prod.fst).Nodup →
    (∀ field ∈ fields, Distinct field.2) → Distinct (.obj fields)

/-- A key that is new comes last. -/
theorem setField_of_notMem {key : String} {value : Json} {fields : List (String × Json)}
    (h : key ∉ fields.map Prod.fst) : setField key value fields = fields ++ [(key, value)] := by
  induction fields with
  | nil => rfl
  | cons field fields ih =>
    rw [List.map_cons, List.mem_cons, not_or] at h
    rw [setField, if_neg (Ne.symm h.1), ih h.2, List.cons_append]

/-- Fields with distinct keys are set one behind the other. -/
theorem foldl_setField {fields set : List (String × Json)}
    (h : ((set ++ fields).map Prod.fst).Nodup) :
    fields.foldl (fun fs (k, v) => setField k v fs) set = set ++ fields := by
  induction fields generalizing set with
  | nil => exact (List.append_nil set).symm
  | cons field fields ih =>
    obtain ⟨key, value⟩ := field
    have hkey : key ∉ set.map Prod.fst := by
      rw [List.map_append, List.map_cons] at h
      exact fun hmem => (List.nodup_append.mp h).2.2 _ hmem _ List.mem_cons_self rfl
    -- the key is none of those set so far, so that the field goes to the end
    rw [List.append_cons] at h ⊢
    simp only [List.foldl_cons, setField_of_notMem hkey]
    exact ih h

/-- Fields with distinct keys are an object as they stand. -/
theorem object_of_nodup {fields : List (String × Json)} (h : (fields.map Prod.fst).Nodup) :
    object fields = .obj fields :=
  congrArg Json.obj (foldl_setField h)

/-! ### Numbers -/

/-- A word is one of some characters. -/
theorem mem_oneOf_iff {cs word : List Char} :
    word ∈ (oneOf cs).matches' ↔ ∃ c ∈ cs, word = [c] := by
  induction cs with
  | nil => simp [oneOf]
  | cons c cs ih =>
    have hsplit : (oneOf (c :: cs)).matches' = {[c]} + (oneOf cs).matches' := rfl
    rw [hsplit, Language.mem_add, ih, List.exists_mem_cons_iff]
    exact Iff.rfl

/-- Digits, any number of them. -/
theorem mem_star_digit {word : List Char} (h : ∀ c ∈ word, c ∈ "0123456789".toList) :
    word ∈ digit.star.matches' := by
  refine Language.mem_kstar.mpr ⟨word.map ([·]), ?_, fun part hpart => ?_⟩
  · rw [← List.flatMap_def, List.flatMap_singleton']
  · obtain ⟨c, hc, rfl⟩ := List.mem_map.mp hpart
    exact mem_oneOf_iff.mpr ⟨c, h c hc, rfl⟩

/-- No zero leads a number that is not zero. -/
theorem toDigits_shape {n : Nat} (h : 0 < n) :
    ∃ c cs, Nat.toDigits 10 n = c :: cs ∧ c ∈ "123456789".toList ∧
      ∀ c ∈ cs, c ∈ "0123456789".toList := by
  induction n using Nat.strong_induction_on with
  | _ n ih =>
    by_cases hlt : n < 10
    · have hdigit : ∀ n < 10, 0 < n → n.digitChar ∈ "123456789".toList := by decide
      exact ⟨_, [], Nat.toDigits_of_lt_base hlt, hdigit n hlt h, nofun⟩
    · have hdigit : ∀ n < 10, n.digitChar ∈ "0123456789".toList := by decide
      -- without its last digit the number is smaller, and still not zero
      obtain ⟨c, cs, hfront, hc, hcs⟩ := ih (n / 10) (by omega) (by omega)
      refine ⟨c, cs ++ [(n % 10).digitChar], ?_, hc, ?_⟩
      · rw [Nat.toDigits_of_base_le (by decide) (by omega), hfront, List.cons_append]
      · exact List.forall_mem_append.mpr
          ⟨hcs, List.forall_mem_singleton.mpr (hdigit _ (Nat.mod_lt n (by decide)))⟩

/-- The digits of a number have no zero in front, unless it is zero. -/
theorem toDigits_mem_unsigned (n : Nat) : Nat.toDigits 10 n ∈ unsigned.matches' := by
  rcases Nat.eq_zero_or_pos n with rfl | hpos
  · exact .inl rfl
  · -- the first digit of a number above zero, and whatever follows it
    obtain ⟨c, cs, heq, hc, hcs⟩ := toDigits_shape hpos
    rw [heq]
    exact .inr (Language.mem_mul.mpr
      ⟨[c], mem_oneOf_iff.mpr ⟨c, hc, rfl⟩, cs, mem_star_digit hcs, rfl⟩)

/-- **An integer is written as a number** of the grammar. -/
theorem toString_mem_whole (n : Int) : (toString n).toList ∈ whole.matches' := by
  cases n with
  | ofNat n =>
    refine Language.mem_mul.mpr ⟨[], .inl rfl, _, toDigits_mem_unsigned n, ?_⟩
    exact (Text.toList_toString_ofNat n).symm
  | negSucc n =>
    refine Language.mem_mul.mpr ⟨['-'], .inr rfl, _, toDigits_mem_unsigned (n + 1), ?_⟩
    exact (Text.toList_toString_negSucc n).symm

/-- And its word has the integer as its value. -/
theorem wholeValue_toString (n : Int) : wholeValue (toString n).toList = n := by
  cases n with
  | ofNat n =>
    rw [Text.toList_toString_ofNat, wholeValue, Nat.ofDigitChars_toDigits (by decide) le_rfl]
    · rfl
    · exact Text.toDigits_ne_minus n
  | negSucc n =>
    rw [Text.toList_toString_negSucc, wholeValue, Nat.ofDigitChars_toDigits (by decide) le_rfl]
    rfl

/-! ### Text -/

/-- A digit of an escape is read as the number that it was written for. -/
theorem hexValue?_hexDigit : ∀ n < 16, hexValue? (hexDigit n) = some n := by decide

/-- A control is escaped by its number. -/
theorem symbol_control {c : Char} (h : c.toNat < 0x20) (rest : List Char) :
    Symbol c
      ('\\' :: 'u' :: '0' :: '0' :: hexDigit (c.toNat / 16) :: hexDigit (c.toNat % 16) :: rest)
      rest := by
  -- its number fits into two digits, behind two zeros
  have hunit : unit? ('0' :: '0' :: hexDigit (c.toNat / 16) :: hexDigit (c.toNat % 16) :: rest)
      = some (c.toNat, rest) := by
    have hzero : hexValue? '0' = some 0 := by decide
    have hfirst := hexValue?_hexDigit (c.toNat / 16) (by omega)
    have hlast := hexValue?_hexDigit (c.toNat % 16) (by omega)
    have hvalue : ((0 * 16 + 0) * 16 + c.toNat / 16) * 16 + c.toNat % 16 = c.toNat := by omega
    simp only [unit?, hzero, hfirst, hlast, Option.bind_eq_bind, Option.bind_some]
    rw [hvalue]
  -- and is far below the halves of pairs, which would not stand alone
  have hhigh : isHigh c.toNat = false := by
    rw [isHigh, decide_eq_false (by omega), Bool.false_and]
  have hlow : isLow c.toNat = false := by
    rw [isLow, decide_eq_false (by omega), Bool.false_and]
  have hsymbol := Symbol.unit hunit hhigh hlow
  rwa [Char.ofNat_toNat] at hsymbol

/-- **An escaped character** is written as one. -/
theorem symbol_escape (c : Char) (rest : List Char) : Symbol c (escape c ++ rest) rest := by
  unfold escape
  -- the quote, the backslash, five controls with an escape of their own, the others, and the rest
  split_ifs with hquote hback hb hf hn hr ht hcontrol
  · subst hquote
    exact .short rfl
  · subst hback
    exact .short rfl
  · subst hb
    exact .short rfl
  · subst hf
    exact .short rfl
  · subst hn
    exact .short rfl
  · subst hr
    exact .short rfl
  · subst ht
    exact .short rfl
  · exact symbol_control hcontrol rest
  · refine .plain ?_
    simp [isPlain, hquote, hback, Nat.le_of_not_lt hcontrol]

/-- **An escaped text** is written as its characters, up to the quote. -/
theorem chars_escape (cs rest : List Char) : Chars cs (cs.flatMap escape ++ '"' :: rest) rest := by
  induction cs with
  | nil => exact .close
  | cons c cs ih =>
    rw [List.flatMap_cons, List.append_assoc]
    exact .symbol (symbol_escape c _) ih

/-- A line feed and an indent are blanks. -/
theorem spaced_newline (depth : Nat) (rest : List Char) : Spaced (newline depth rest) rest := by
  refine ⟨'\n' :: List.replicate (2 * depth) ' ', rfl, List.forall_mem_cons.mpr ⟨rfl, ?_⟩⟩
  intro c hc
  rw [List.eq_of_mem_replicate hc]
  rfl

section Write

variable (real : List Char → Json)

/-- A text in quotes. -/
theorem value_writeString (s : String) (rest : List Char) :
    Value real (.str s) (writeString s rest) rest := by
  have hvalue : Value real (.str (String.ofList s.toList)) (writeString s rest) rest :=
    .str (chars_escape s.toList rest)
  rwa [String.ofList_toList] at hvalue

/-- A number. -/
theorem value_writeInt (n : Int) (rest : List Char) :
    Value real (.int n) ((toString n).toList ++ rest) rest := by
  have hwhole := toString_mem_whole n
  -- a number is none of the names
  have hnames : ∀ name ∈ ["null".toList, "true".toList, "false".toList],
      name ∉ whole.matches' := by decide
  have hne : ∀ name ∈ ["null".toList, "true".toList, "false".toList],
      (toString n).toList ≠ name := fun name hname heq => hnames name hname (heq ▸ hwhole)
  simp only [List.forall_mem_cons] at hne
  obtain ⟨hnull, htrue, hfalse, -⟩ := hne
  refine .word ?_
  rw [word?, if_neg hnull, if_neg htrue, if_neg hfalse, if_pos hwhole, wholeValue_toString]

mutual

/-- **What is written is a value**, and ends where the rest begins. -/
theorem value_write {d : Json} (hd : d.Distinct) (depth : Nat) (rest : List Char) :
    Value real d (write depth d rest) rest :=
  match d, hd with
  | .null, _ => .word rfl
  | .bool true, _ => .word rfl
  | .bool false, _ => .word rfl
  | .int n, _ => value_writeInt real n rest
  | .str s, _ => value_writeString real s rest
  | .arr [], _ => .arr (.empty (.refl _))
  | .arr (_ :: items), .arr hitems => by
    obtain ⟨hfirst, hrest⟩ := List.forall_mem_cons.mp hitems
    have hitem := value_write hfirst (depth + 1) (writeItems depth items rest)
    exact .arr (.full (spaced_newline _ _) (series_writeItems hrest depth rest hitem))
  | .obj [], _ => .obj (.empty (.refl _))
  | .obj (_ :: fields), .obj hkeys hfields => by
    obtain ⟨hfirst, hrest⟩ := List.forall_mem_cons.mp hfields
    have hfield := field_writeField hfirst depth (writeFields depth fields rest)
    have hvalue := Value.obj (.full (spaced_newline (depth + 1) _)
      (series_writeFields hrest depth rest hfield))
    -- the grammar sets the fields in turn, and here none of them is set twice
    rw [object_of_nodup hkeys] at hvalue
    exact hvalue

/-- The further items make a series with an item in front of them. -/
theorem series_writeItems {items : List Json} (hitems : ∀ item ∈ items, item.Distinct)
    (depth : Nat) (rest : List Char) {first : Json} {before : List Char}
    (hfirst : Value real first before (writeItems depth items rest)) :
    Series ']' (Value real) (first :: items) before rest :=
  match items, hitems with
  | [], _ => .last hfirst (spaced_newline _ _)
  | _ :: items, hitems => by
    obtain ⟨hnext, hrest⟩ := List.forall_mem_cons.mp hitems
    have hitem := value_write hnext (depth + 1) (writeItems depth items rest)
    exact .more hfirst (.refl _) (spaced_newline _ _) (series_writeItems hrest depth rest hitem)

/-- The further fields make a series with a field in front of them. -/
theorem series_writeFields {fields : List (String × Json)}
    (hfields : ∀ field ∈ fields, field.2.Distinct) (depth : Nat) (rest : List Char)
    {first : String × Json} {before : List Char}
    (hfirst : Field (Value real) first before (writeFields depth fields rest)) :
    Series '\x7d' (Field (Value real)) (first :: fields) before rest :=
  match fields, hfields with
  | [], _ => .last hfirst (spaced_newline _ _)
  | _ :: fields, hfields => by
    obtain ⟨hnext, hrest⟩ := List.forall_mem_cons.mp hfields
    have hfield := field_writeField hnext depth (writeFields depth fields rest)
    exact .more hfirst (.refl _) (spaced_newline _ _)
      (series_writeFields hrest depth rest hfield)

/-- A field: its key in quotes, a colon, a blank, and its value. -/
theorem field_writeField {field : String × Json} (hvalue : field.2.Distinct) (depth : Nat)
    (rest : List Char) : Field (Value real) field (writeField depth field rest) rest :=
  match field with
  | (key, value) => by
    have hblank : Spaced (' ' :: write (depth + 1) value rest) (write (depth + 1) value rest) :=
      ⟨[' '], rfl, List.forall_mem_singleton.mpr rfl⟩
    have hfield := Field.field (chars_escape key.toList _) (.refl _) hblank
      (value_write hvalue (depth + 1) rest)
    rwa [String.ofList_toList] at hfield

end

end Write

/-- **The text of a value** is one that stands for it. -/
theorem isText_text (real : List Char → Json) {d : Json} (hd : d.Distinct) {content : String}
    (h : d.text = .ok content) : IsText real d content.toList := by
  unfold text at h
  -- a value has a text unless a number in it is too long to be written
  split_ifs at h
  obtain rfl := Except.ok.inj h
  rw [String.toList_ofList]
  have hend : Spaced ['\n'] [] := ⟨['\n'], rfl, List.forall_mem_singleton.mpr rfl⟩
  exact ⟨_, _, .refl _, value_write real hd 0 _, hend⟩

/-- No text begins with a byte order mark. -/
theorem IsText.head_ne_mark {real : List Char → Json} {d : Json} {cs : List Char}
    (h : IsText real d cs) : cs.head? ≠ some '\uFEFF' := by
  obtain ⟨before, after, ⟨blanks, rfl, hblanks⟩, hvalue, -⟩ := h
  intro hmark
  -- it would be a blank, or a value would begin with it
  cases blanks with
  | nil =>
    obtain ⟨c, hc, hopening⟩ := hvalue.opens
    obtain rfl := Option.some.inj (hc.symm.trans hmark)
    cases hopening
  | cons blank blanks =>
    obtain rfl := Option.some.inj hmark
    cases hblanks _ List.mem_cons_self

/-! ### Files -/

/-- **The bytes that a value is saved as**: they are what is in its file after some save of it. -/
def SavedAs (d : Json) (bytes : ByteArray) : Prop :=
  ∃ w process path w' p, save w process path d = (w', .ok p) ∧
    w'.tree.get? (w.target p) = some (.file bytes)

/-- The bytes that are saved are those of the text. -/
theorem SavedAs.exists_text {d : Json} {bytes : ByteArray} (h : d.SavedAs bytes) :
    ∃ content, d.text = .ok content ∧ bytes = content.toUTF8 := by
  obtain ⟨w, process, path, w', p, hsave, hfile⟩ := h
  obtain ⟨-, content, htext, hfile'⟩ := of_save_eq_ok hsave
  cases hfile.symm.trans hfile'
  exact ⟨content, htext, rfl⟩

/-- A value that has a text is saved as the bytes of it, and as nothing else. -/
theorem savedAs_iff {d : Json} {content : String} (h : d.text = .ok content) {bytes : ByteArray} :
    d.SavedAs bytes ↔ bytes = content.toUTF8 := by
  refine ⟨fun hsaved => ?_, ?_⟩
  · obtain ⟨content', htext, rfl⟩ := hsaved.exists_text
    rw [Except.ok.inj (h.symm.trans htext)]
  · rintro rfl
    -- where there is nothing yet, any text is saved
    have hsave : save {} 7 "out.json" d
        = ({ tree := ⟨[(["out.json"], .file content.toUTF8)]⟩ }, .ok (.ofString "out.json")) := by
      have hpath : Path.ofString "out.json" = ⟨.here, ["out.json"]⟩ := by decide +kernel
      rw [save_eq_replace_of_name h hpath (by decide +kernel) rfl
        (Text.Codec.not_hasHalf_plain content)]
      rfl
    exact ⟨_, _, _, _, _, hsave, rfl⟩

/-- **JSON is lossless.** The text of a value without repeated keys is JSON, and reading it gives
the value. What the value is saved as are the bytes of that text, which are read back as it.
Whatever else is saved as the same bytes is the same value. -/
theorem text_lossless (real : List Char → Json) {d : Json} (hd : d.Distinct) {content : String}
    (h : d.text = .ok content) :
    IsText real d content.toList ∧
    decode real content.toList = some d ∧
    (∀ bytes, d.SavedAs bytes ↔ bytes = content.toUTF8) ∧
    Text.Utf8.decodeBody content.toUTF8 = content ∧
    ∀ d' bytes, d'.Distinct → d.SavedAs bytes → d'.SavedAs bytes → d' = d := by
  have htext := isText_text real hd h
  have hbody : Text.Utf8.decodeBody content.toUTF8 = content :=
    Text.Utf8.decodeBody_toUTF8 htext.head_ne_mark
  refine ⟨htext, decode_eq_some_iff.mpr htext, fun bytes => savedAs_iff h, hbody, ?_⟩
  intro d' bytes hd' hsaved hsaved'
  obtain ⟨content', h', hbytes⟩ := hsaved'.exists_text
  have htext' := isText_text real hd' h'
  -- the same bytes are read back as one text, which has one value
  have hcontent : content' = content := calc
    content' = Text.Utf8.decodeBody content'.toUTF8 :=
      (Text.Utf8.decodeBody_toUTF8 htext'.head_ne_mark).symm
    _ = Text.Utf8.decodeBody content.toUTF8 := by rw [← hbytes, (savedAs_iff h).mp hsaved]
    _ = content := hbody
  exact htext'.unique (hcontent ▸ htext)

/-- A value with values in it, a key that needs escapes, and a number below zero. -/
def nested : Json :=
  .obj [("a", .arr [.int (-20), .arr [], .bool true]), ("\"\\\n\x01é", .obj [("b", .null)])]

def nestedText : String :=
  "\x7b\n  \"a\": [\n    -20,\n    [],\n    true\n  ],\n" ++
    "  \"\\\"\\\\\\n\\u0001é\": \x7b\n    \"b\": null\n  \x7d\n\x7d\n"

/-- Numbers with a fraction may be kept as they are written. -/
theorem text_lossless_nested :
    nested.Distinct ∧ nested.text = .ok nestedText ∧
      decode (fun word => .str (String.ofList word)) nestedText.toList = some nested ∧
      Text.Utf8.decodeBody nestedText.toUTF8 = nestedText := by
  -- distinct keys, from the inside out
  have hinner : (Json.obj [("b", .null)]).Distinct :=
    .obj (by decide) (List.forall_mem_singleton.mpr .null)
  have hitems : ∀ item ∈ [Json.int (-20), .arr [], .bool true], item.Distinct := by
    simp only [List.forall_mem_cons]
    exact ⟨.int _, .arr nofun, .bool _, nofun⟩
  have hdistinct : nested.Distinct := by
    refine .obj (by decide) ?_
    simp only [List.forall_mem_cons]
    exact ⟨.arr hitems, hinner, nofun⟩
  have htext : nested.text = .ok nestedText := by decide +kernel
  obtain ⟨-, hdecode, -, hbody, -⟩ :=
    text_lossless (fun word => .str (String.ofList word)) hdistinct htext
  exact ⟨hdistinct, htext, hdecode, hbody⟩

end Blocklist.Json
