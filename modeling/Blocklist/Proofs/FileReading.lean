import Blocklist.ListFile
import Blocklist.Proofs.LineBytes
import Blocklist.Proofs.Parsing
import Mathlib.Data.List.Induction

/-!
# Files and bodies are read alike

A list on disk streams in, in portions, and its lines keep their line feeds. A list that was fetched
is read as a whole, and its lines do not. Both come to the same rules and the same counts, unless
the list is nothing but a byte order mark that breaks off: then a body has one line, which blocks
nothing, and a file has none.

* `decodePortions_eq_decodeBody` — it makes no difference how a file is divided into portions, since
  what is held back at its beginning is read with the next portion (`FileReader.take_take`);
* `Line.read_append_newline` — a line feed at its end makes no difference to a line, as it is a
  blank;
* `parse_congr` — what a list parses to depends on the verdicts on its lines only;
* `parseFile_agrees` — the main statement.
-/

namespace Blocklist

namespace Text.Utf8

/-! ### Portions -/

/-- Whether some bytes may begin a byte order mark, and are not all of it. -/
def BeginsMark (bytes : List UInt8) : Prop := bytes.length < 3 ∧ bytes <+: mark

/-- Whether some bytes are a byte order mark that breaks off. -/
def CutMark (bytes : List UInt8) : Prop := bytes = [0xEF] ∨ bytes = [0xEF, 0xBB]

/-- What is held back is a beginning of the mark. -/
theorem held_iff (bytes : List UInt8) :
    (bytes.length < 3 && bytes.isPrefixOf mark) = true ↔ BeginsMark bytes := by
  rw [Bool.and_eq_true, decide_eq_true_eq, List.isPrefixOf_iff_prefix, BeginsMark]

/-- That is nothing, or one of two beginnings. -/
theorem beginsMark_iff (bytes : List UInt8) : BeginsMark bytes ↔ bytes = [] ∨ CutMark bytes := by
  refine ⟨?_, ?_⟩
  · rintro ⟨hlength, hbegins⟩
    rw [List.prefix_iff_eq_take] at hbegins
    obtain h | h | h : bytes.length = 0 ∨ bytes.length = 1 ∨ bytes.length = 2 := by omega
    all_goals rw [h] at hbegins
    · exact .inl hbegins
    · exact .inr (.inl hbegins)
    · exact .inr (.inr hbegins)
  · rintro (rfl | rfl | rfl)
    all_goals exact ⟨by decide, by decide⟩

/-- What begins a mark does so from its first byte on. -/
theorem BeginsMark.of_append {a b : List UInt8} (h : BeginsMark (a ++ b)) : BeginsMark a := by
  obtain ⟨hlength, hbegins⟩ := h
  rw [List.length_append] at hlength
  exact ⟨by omega, (List.prefix_append a b).trans hbegins⟩

/-- Once bytes cannot begin a mark any more, a mark in front of them and others is one of theirs. -/
theorem mark_isPrefix_of_append {a b : List UInt8} (ha : ¬ BeginsMark a) (h : mark <+: a ++ b) :
    mark <+: a := by
  rcases Nat.lt_or_ge a.length mark.length with hlt | hge
  · have hbegins : a <+: mark :=
      List.prefix_of_prefix_length_le (List.prefix_append a b) h (Nat.le_of_lt hlt)
    exact absurd ⟨hlt, hbegins⟩ ha
  · exact List.prefix_of_prefix_length_le h (List.prefix_append a b) hge

/-- What is held back. -/
theorem FileReader.take_opening_of_begins {held portion : List UInt8}
    (h : BeginsMark (held ++ portion)) :
    FileReader.take (.opening held) portion = .opening (held ++ portion) :=
  if_pos ((held_iff _).mpr h)

/-- What is read, as soon as it is known whether there is a mark. -/
theorem FileReader.take_opening_of_not_begins {held portion : List UInt8}
    (h : ¬ BeginsMark (held ++ portion)) :
    FileReader.take (.opening held) portion
      = .reading (Reader.feed {} (dropMark (held ++ portion))) :=
  if_neg (mt (held_iff _).mp h)

/-- **Two portions** are taken in like one. -/
theorem FileReader.take_take (r : FileReader) (a b : List UInt8) :
    (r.take a).take b = r.take (a ++ b) := by
  cases r with
  | reading reader => simp only [take, Reader.feed_append]
  | opening held =>
    by_cases ha : BeginsMark (held ++ a)
    · -- nothing was read yet, so the second portion is looked at together with the first
      rw [take_opening_of_begins ha]
      by_cases hb : BeginsMark (held ++ a ++ b)
      · rw [take_opening_of_begins hb, List.append_assoc,
          take_opening_of_begins (by rwa [← List.append_assoc])]
      · rw [take_opening_of_not_begins hb, List.append_assoc,
          take_opening_of_not_begins (by rwa [← List.append_assoc])]
    · -- the first portion has settled whether there is a mark
      have hb : ¬ BeginsMark (held ++ (a ++ b)) := by
        rw [← List.append_assoc]
        exact fun h => ha h.of_append
      rw [take_opening_of_not_begins ha, take_opening_of_not_begins hb, ← List.append_assoc,
        dropMark_append (mark_isPrefix_of_append ha), Reader.feed_append]
      rfl

/-- **However a file is divided into portions**, they are taken in like the whole. -/
theorem foldl_take (portions : List (List UInt8)) (held : List UInt8) (hheld : BeginsMark held) :
    portions.foldl FileReader.take (.opening held)
      = FileReader.take (.opening held) portions.flatten := by
  -- from the last portion on, as that is the one which is taken in last
  induction portions using List.reverseRecOn with
  | nil =>
    rw [List.flatten_nil, FileReader.take_opening_of_begins (by rwa [List.append_nil]),
      List.append_nil]
    rfl
  | append_singleton portions portion ih =>
    rw [List.foldl_concat, ih, FileReader.take_take, List.flatten_concat]

theorem beginsMark_nil : BeginsMark [] := ⟨by decide, List.nil_prefix⟩

/-- **A file is read like a body**, however it is divided. -/
theorem decodePortions_eq_decodeBody {portions : List (List UInt8)} {body : ByteArray}
    (hportions : portions.flatten = body.data.toList) (h : ¬ CutMark body.data.toList) :
    decodePortions portions = decodeBody body := by
  rw [decodePortions, foldl_take portions [] beginsMark_nil, hportions, decodeBody]
  -- of no bytes there is nothing to hold back; any others are no beginning of a mark only
  by_cases hnil : body.data.toList = []
  · rw [hnil]
    rfl
  · have hnot : ¬ BeginsMark ([] ++ body.data.toList) := by
      rw [List.nil_append, beginsMark_iff]
      exact fun hbegins => hbegins.elim hnil h
    rw [FileReader.take_opening_of_not_begins hnot]
    rfl

/-- Of a byte order mark that breaks off nothing is left. -/
theorem decodePortions_of_cutMark {portions : List (List UInt8)} (h : CutMark portions.flatten) :
    decodePortions portions = "" := by
  have hbegins : BeginsMark ([] ++ portions.flatten) := (beginsMark_iff _).mpr (.inr h)
  rw [decodePortions, foldl_take portions [] beginsMark_nil,
    FileReader.take_opening_of_begins hbegins]
  rfl

/-- Portions are the bytes, cut up. -/
theorem flatten_inPortions (size : Nat) (bytes : List UInt8) :
    (inPortions size bytes).flatten = bytes := by
  fun_induction inPortions size bytes with
  | case1 => rfl
  | case2 b rest ih =>
    rw [List.flatten_cons, ih, List.cons_append, List.take_append_drop]

/-- The text of a file is that of its portions, whatever these are. -/
theorem decodeFile_eq_decodePortions {portions : List (List UInt8)} {body : ByteArray}
    (h : portions.flatten = body.data.toList) : decodeFile body = decodePortions portions := by
  rw [decodeFile, decodePortions, decodePortions, foldl_take _ [] beginsMark_nil,
    foldl_take _ [] beginsMark_nil, flatten_inPortions, h]

end Text.Utf8

/-! ### Line feeds that are kept -/

namespace Text

/-- A blank at the end is trimmed away. -/
theorem trimEnd_concat {c : Char} (h : isBlank c = true) (cs : List Char) :
    trimEnd (cs ++ [c]) = trimEnd cs := by
  rw [trimEnd, List.reverse_concat, List.dropWhile_cons_of_pos h, trimEnd]

/-- A blank at the end of a text is trimmed away. -/
theorem trim_concat {c : Char} (h : isBlank c = true) (cs : List Char) :
    trim (cs ++ [c]) = trim cs := by
  rw [trim, trim, List.dropWhile_append]
  split
  · next hblank =>
    -- the text is blank throughout
    rw [List.isEmpty_iff.mp hblank, List.dropWhile_cons_of_pos h]
    rfl
  · exact trimEnd_concat h _

end Text

/-- **A line feed at its end makes no difference to a line.** -/
theorem Line.read_append_newline (line : String) : Line.read (line ++ "\n") = Line.read line := by
  unfold Line.read
  rw [String.toList_append, show "\n".toList = ['\n'] from rfl, Text.trim_concat (by decide)]

/-- **Verdicts do not see line feeds**, as these are trimmed away with other blanks. -/
theorem read_keepLines (text : String) :
    List.Forall₂ (fun kept bare => Line.read kept = Line.read bare)
      (Text.keepLines text) (Text.splitLines text) := by
  refine (Text.forall₂_keepLines_splitLines text).imp fun kept bare h => ?_
  rcases h with rfl | rfl
  · rfl
  · exact Line.read_append_newline bare

/-! ### Verdicts decide -/

/-- Reading a line hangs on its verdict only. -/
theorem Parse.State.read_congr {line line' : String} (h : Line.read line = Line.read line')
    (s : State) : s.read line = s.read line' := by
  unfold State.read
  rw [h]

/-- So does a whole run. -/
theorem Parse.State.run_congr {lines lines' : List String}
    (h : List.Forall₂ (fun line line' => Line.read line = Line.read line') lines lines')
    (cap : Nat) (s : State) :
    (s.run cap (.ofLines lines)).map Prod.fst = (s.run cap (.ofLines lines')).map Prod.fst := by
  induction h generalizing s with
  | nil => rfl
  | @cons line line' lines lines' hline _ ih =>
    simp only [Supply.ofLines, List.map_cons, State.run, read_congr hline]
    split
    · rfl
    · exact ih (s.read line')

/-- **What a list parses to** depends on the verdicts on its lines only. -/
theorem parse_congr {lines lines' : List String}
    (h : List.Forall₂ (fun line line' => Line.read line = Line.read line') lines lines')
    (cap : Int) : parse lines cap = parse lines' cap := by
  -- a list is refused, or what its run comes to
  have hparse : ∀ lines, parse lines cap = if cap < 1 then .error (.capNotPositive cap)
      else ((Parse.State.run cap.toNat {} (.ofLines lines)).map Prod.fst).mapError .broken := by
    intro lines
    unfold parse parseSupply
    split
    · rfl
    · cases Parse.State.run cap.toNat {} (.ofLines lines) <;> rfl
  rw [hparse, hparse, Parse.State.run_congr h]

/-! ### Both readings -/

open Text Text.Utf8

/-- **A file that is not a mark cut short** parses to what its body parses to. -/
theorem parse_keepLines_decodeFile {body : ByteArray} (h : ¬ CutMark body.data.toList) (cap : Int) :
    parse (keepLines (decodeFile body)) cap = parse (splitLines (decodeBody body)) cap := by
  have hflatten := flatten_inPortions portionSize body.data.toList
  rw [decodeFile, decodePortions_eq_decodeBody hflatten h]
  exact parse_congr (read_keepLines (decodeBody body)) cap

/-- No line is read of a file that is nothing but a mark cut short. -/
theorem parse_keepLines_of_cutMark {body : ByteArray} (h : CutMark body.data.toList) {cap : Int}
    (hcap : 1 ≤ cap) : parse (keepLines (decodeFile body)) cap = .ok ⟨[], {}⟩ := by
  have hempty : decodeFile body = "" := by
    rw [decodeFile]
    apply decodePortions_of_cutMark
    rwa [flatten_inPortions]
  rw [hempty, parse, parseSupply, if_neg (by omega)]
  rfl

/-- A body that is nothing but a mark cut short has one line, which blocks nothing. -/
theorem parse_splitLines_of_cutMark {body : ByteArray} (h : CutMark body.data.toList) {cap : Int}
    (hcap : 1 ≤ cap) : parse (splitLines (decodeBody body)) cap
      = .ok ⟨[], { linesRead := 1, skipped := ⟨[(.unsupported, 1)]⟩ }⟩ := by
  -- the beginning of a mark is no character, and is replaced
  have htext : decodeBody body = "\uFFFD" := by
    rw [decodeBody]
    rcases h with h | h
    all_goals rw [h]; rfl
  have hlines : splitLines "\uFFFD" = ["\uFFFD"] := rfl
  have hverdict : Line.read "\uFFFD" = .skipped .unsupported := by decide
  have hread : Parse.State.read {} "\uFFFD"
      = { linesRead := 1, skipped := ⟨[(.unsupported, 1)]⟩ } := by
    unfold Parse.State.read
    rw [hverdict]
    rfl
  -- one line without a rule does not reach the cap
  have hbelow : ¬ cap.toNat ≤ (Parse.State.read {} "\uFFFD").rules.size := by
    rw [hread]
    change ¬ cap.toNat ≤ 0
    omega
  rw [htext, hlines, parse, parseSupply, if_neg (by omega), Supply.ofLines, List.map_singleton,
    Parse.State.run, if_neg hbelow, hread]
  rfl

/-- **Files and bodies are read alike.** Let a file be readable, and the cap be positive. However
the file comes in portions, it parses to what its bytes parse to as a body: to the same rules, and
with the same counts unless they are a byte order mark that breaks off. In that case neither has any
rule, and the body has a line that was skipped where the file has none. -/
theorem parseFile_agrees {place : Place} {path : String} {body : ByteArray} {cap : Int}
    (hpath : Path.holdsNul path = false) (hbody : place.readFile path = .ok body)
    (hcap : 1 ≤ cap) :
    (∀ portions : List (List UInt8), portions.flatten = body.data.toList →
      parseFile place path cap
        = (parse (keepLines (decodePortions portions)) cap).mapError .parse) ∧
    ∃ streamed fetched, parseFile place path cap = .ok streamed ∧
      parse (splitLines (decodeBody body)) cap = .ok fetched ∧
      streamed.rules = fetched.rules ∧
      (¬ CutMark body.data.toList → streamed.counts = fetched.counts) ∧
      (CutMark body.data.toList → fetched.rules = [] ∧ streamed.counts = {} ∧
        fetched.counts = { linesRead := 1, skipped := ⟨[(.unsupported, 1)]⟩ }) := by
  have hfile : parseFile place path cap
      = (parse (keepLines (decodeFile body)) cap).mapError .parse := by
    unfold parseFile
    rw [hpath, hbody]
    rfl
  refine ⟨fun portions hportions => ?_, ?_⟩
  · rw [hfile, decodeFile_eq_decodePortions hportions]
  · -- a file that is nothing but a beginning of the mark is the one that is read in two ways
    by_cases h : CutMark body.data.toList
    · refine ⟨⟨[], {}⟩, ⟨[], { linesRead := 1, skipped := ⟨[(.unsupported, 1)]⟩ }⟩, ?_,
        parse_splitLines_of_cutMark h hcap, rfl, fun hnot => absurd h hnot,
        fun _ => ⟨rfl, rfl, rfl⟩⟩
      rw [hfile, parse_keepLines_of_cutMark h hcap]
      rfl
    · obtain ⟨parsed, hparsed, -⟩ := exists_parse_eq_ok (splitLines (decodeBody body)) hcap
      refine ⟨parsed, parsed, ?_, hparsed, rfl, fun _ => rfl, fun hcut => absurd hcut h⟩
      rw [hfile, parse_keepLines_decodeFile h, hparsed]
      rfl

/-- Two byte order marks in front of `||a^`, a carriage return behind `||b^`, a line with a byte
that no character has, and `||c^` without a line feed. -/
def markedBody : ByteArray :=
  ⟨#[0xEF, 0xBB, 0xBF, 0xEF, 0xBB, 0xBF, 0x7C, 0x7C, 0x61, 0x5E, 0x0A,
    0x7C, 0x7C, 0x62, 0x5E, 0x0D, 0x0A, 0xFF, 0x0A, 0x7C, 0x7C, 0x63, 0x5E]⟩

/-- Only one of the two marks is dropped, so that the first line blocks nothing. -/
theorem parseFile_agrees_marked :
    ∃ place streamed fetched, Path.holdsNul "list.txt" = false ∧
      place.readFile "list.txt" = .ok markedBody ∧ ¬ CutMark markedBody.data.toList ∧
      parseFile place "list.txt" 5 = .ok streamed ∧
      parse (splitLines (decodeBody markedBody)) 5 = .ok fetched ∧
      streamed.rules = fetched.rules ∧ streamed.counts = fetched.counts ∧
      fetched.rules = [.block 1 "b", .block 2 "c"] := by
  set place : Place := { tree := { entries := [(["list.txt"], .file markedBody)] } }
  have hpath : Path.holdsNul "list.txt" = false := by decide
  have hbody : place.readFile "list.txt" = .ok markedBody := rfl
  have hwhole : ¬ CutMark markedBody.data.toList := by
    rintro (h | h)
    all_goals exact absurd h (by decide)
  obtain ⟨-, streamed, fetched, hstreamed, hfetched, hrules, hcounts, -⟩ :=
    parseFile_agrees hpath hbody (by decide : (1 : Int) ≤ 5)
  refine ⟨place, streamed, fetched, hpath, hbody, hwhole, hstreamed, hfetched, hrules,
    hcounts hwhole, ?_⟩
  have hdomains : blockedDomains (splitLines (decodeBody markedBody)) = ["b", "c"] := by decide
  rw [(parse_eq_ok hfetched).2, hdomains]
  rfl

end Blocklist
