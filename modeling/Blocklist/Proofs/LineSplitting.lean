import Blocklist.Text.Lines
import Mathlib.Data.List.Forall2

/-!
# Lines between line feeds

The machine that cuts a text into lines, and what the lines are without it: the parts between the
line feeds. Behind the last line feed stands a part as well. It is a line only if it is not empty.

* `closed` — some parts without the last one, if that is empty; `length_closed` and `getElem_closed`
  say how many are left and that they are the same;
* `splitLines_eq` — the lines of a text are its parts between line feeds, closed;
* `exists_endEach_append` — every text is some lines, each ended by a line feed, and a rest that is
  not ended; `splitLines_endEach_append` — its lines are these, and the rest if it is not empty;
* `newline_notMem_of_mem_splitLines`, `splitLines_endEach` — no line has a line feed, and lines that
  have none are read back from the text that they make;
* `forall₂_keepLines_splitLines` — a line of a file is one of the text, perhaps with a line feed;
* `CutsAtNewlines` — cutting texts at their line feeds and nowhere else, which can be done in one
  way only (`CutsAtNewlines.eq_splitLines`); `splitLines_cutsAtNewlines` — the main statement.
-/

namespace Blocklist.Text

variable {α β : Type}

/-! ### Closed parts -/

/-- **Some parts without the last one**, if that is empty. -/
def closed : List (List α) → List (List α)
  | [] => []
  | [last] => if last.isEmpty then [] else [last]
  | part :: next :: parts => part :: closed (next :: parts)

theorem closed_singleton {part : List α} (h : part ≠ []) : closed [part] = [part] := by
  cases part with
  | nil => exact absurd rfl h
  | cons a part => rfl

/-- A part that others follow is closed. -/
theorem closed_cons (part : List α) {parts : List (List α)} (h : parts ≠ []) :
    closed (part :: parts) = part :: closed parts := by
  cases parts with
  | nil => exact absurd rfl h
  | cons next parts => rfl

/-- An empty part at the end is one that never began. -/
theorem closed_concat_nil (parts : List (List α)) : closed (parts ++ [[]]) = parts := by
  induction parts with
  | nil => rfl
  | cons part parts ih => rw [List.cons_append, closed_cons part (by simp), ih]

/-- Any other part at the end is one more line. -/
theorem closed_concat (parts : List (List α)) {last : List α} (h : last ≠ []) :
    closed (parts ++ [last]) = parts ++ [last] := by
  induction parts with
  | nil => exact closed_singleton h
  | cons part parts ih => rw [List.cons_append, closed_cons part (by simp), ih]

/-- What is closed is the same up to where it ends. -/
theorem closed_isPrefix (parts : List (List α)) : closed parts <+: parts := by
  fun_induction closed parts with
  | case1 => exact List.prefix_rfl
  | case2 last hlast => exact List.nil_prefix
  | case3 last hlast => exact List.prefix_rfl
  | case4 part next parts ih => exact (List.prefix_cons_inj part).mpr ih

/-- The parts that are closed stand where they stood. -/
theorem getElem_closed {parts : List (List α)} {i : Nat} (h : i < (closed parts).length)
    (hi : i < parts.length) : (closed parts)[i] = parts[i] :=
  (closed_isPrefix parts).getElem h

/-- All parts but the last are kept, and that is kept unless it is empty. -/
theorem length_closed {parts : List (List α)} (h : parts ≠ []) :
    (closed parts).length = parts.length - 1 + if (parts.getLast h).isEmpty then 0 else 1 := by
  fun_induction closed parts with
  | case1 => exact absurd rfl h
  | case2 last hlast => simp [hlast]
  | case3 last hlast => simp [hlast]
  | case4 part next parts ih =>
    -- the part in front counts on both sides, and the last one stays the last
    rw [List.length_cons, ih (List.cons_ne_nil next parts), List.getLast_cons_cons]
    simp only [List.length_cons, Nat.add_sub_cancel]
    exact Nat.add_right_comm _ _ 1

/-- A reading of the parts that leaves nothing of an empty part only can come before closing. -/
theorem closed_map {f : List α → List β} (hf : ∀ part, f part = [] ↔ part = [])
    (parts : List (List α)) : closed (parts.map f) = (closed parts).map f := by
  fun_induction closed parts with
  | case1 => rfl
  -- whether the last part is empty is all that closing looks at
  | case2 last hlast =>
    obtain rfl : last = [] := List.isEmpty_iff.mp hlast
    rw [List.map_singleton, (hf []).mpr rfl]
    rfl
  | case3 last hlast =>
    have hne : f last ≠ [] := fun h => hlast (List.isEmpty_iff.mpr ((hf last).mp h))
    rw [List.map_singleton, closed_singleton hne]
  | case4 part next parts ih =>
    rw [List.map_cons, closed_cons (f part) (by simp), ih, List.map_cons]

/-! ### Parts between separators -/

/-- No part holds the separator. -/
theorem notMem_of_mem_splitOn [BEq α] [LawfulBEq α] {sep : α} {xs part : List α}
    (h : part ∈ xs.splitOn sep) : sep ∉ part := by
  induction xs generalizing part with
  | nil =>
    rw [List.splitOn_nil, List.mem_singleton] at h
    exact h ▸ List.not_mem_nil
  | cons x xs ih =>
    rw [List.splitOn_cons_eq_if_modifyHead] at h
    split at h
    · rcases List.mem_cons.mp h with rfl | h
      · exact List.not_mem_nil
      · exact ih h
    · next hx =>
      -- the first part has one more element, which is no separator
      cases hparts : xs.splitOn sep with
      | nil => exact absurd hparts (List.splitOn_ne_nil sep xs)
      | cons first parts =>
        rw [hparts] at ih h
        rcases List.mem_cons.mp h with rfl | h
        · refine List.not_mem_cons_of_ne_of_not_mem (fun heq => hx ?_) (ih List.mem_cons_self)
          exact beq_iff_eq.mpr heq.symm
        · exact ih (List.mem_cons_of_mem first h)

/-- **Everything is parts that a separator follows**, and a rest. -/
theorem exists_flatMap_append [DecidableEq α] (sep : α) (xs : List α) :
    ∃ (parts : List (List α)) (rest : List α), (∀ part ∈ parts, sep ∉ part) ∧ sep ∉ rest ∧
      xs = parts.flatMap (· ++ [sep]) ++ rest := by
  -- from the end, as an element joins the part behind it
  induction xs with
  | nil => exact ⟨[], [], nofun, List.not_mem_nil, rfl⟩
  | cons x xs ih =>
    obtain ⟨parts, rest, hparts, hrest, rfl⟩ := ih
    by_cases hx : sep = x
    · -- a separator ends an empty part
      refine ⟨[] :: parts, rest, List.forall_mem_cons.mpr ⟨List.not_mem_nil, hparts⟩, hrest, ?_⟩
      rw [hx]
      rfl
    · -- another element begins the first part, or the rest if there is no part
      cases parts with
      | nil => exact ⟨[], x :: rest, nofun, List.not_mem_cons_of_ne_of_not_mem hx hrest, rfl⟩
      | cons part parts =>
        obtain ⟨hpart, hparts⟩ := List.forall_mem_cons.mp hparts
        have hfirst := List.not_mem_cons_of_ne_of_not_mem hx hpart
        exact ⟨(x :: part) :: parts, rest, List.forall_mem_cons.mpr ⟨hfirst, hparts⟩, hrest, rfl⟩

/-- Parts that a separator follows are what lies between the separators. -/
theorem splitOn_flatMap_append [BEq α] [LawfulBEq α] {sep : α} {parts : List (List α)}
    (h : ∀ part ∈ parts, sep ∉ part) (rest : List α) :
    (parts.flatMap (· ++ [sep]) ++ rest).splitOn sep = parts ++ rest.splitOn sep := by
  induction parts with
  | nil => rfl
  | cons part parts ih =>
    obtain ⟨hpart, hparts⟩ := List.forall_mem_cons.mp h
    -- the first part ends at the first separator, as there is none in it
    rw [List.flatMap_cons, List.append_assoc, List.append_assoc, List.singleton_append,
      List.splitOn_append_cons_self_of_not_mem hpart, ih hparts, List.cons_append]

/-- There is one part more than there are separators. -/
theorem length_splitOn [BEq α] (sep : α) (xs : List α) :
    (xs.splitOn sep).length = xs.count sep + 1 := by
  induction xs with
  | nil => rfl
  | cons x xs ih =>
    rw [List.splitOn_cons_eq_if_modifyHead, List.count_cons]
    split
    · rw [List.length_cons, ih]
    · rw [List.length_modifyHead, ih]

/-- Cutting reads a change of the first part only, if it keeps the separator out. -/
theorem splitOn_modifyHead [BEq α] [LawfulBEq α] {sep : α} {f : List α → List α}
    (hfirst : ∀ front back, f (front ++ sep :: back) = f front ++ sep :: back)
    (hpart : ∀ part, sep ∉ part → sep ∉ f part) (xs : List α) :
    (f xs).splitOn sep = (xs.splitOn sep).modifyHead f := by
  by_cases h : sep ∈ xs
  · obtain ⟨front, back, rfl, hfront⟩ := List.eq_append_cons_of_mem h
    rw [hfirst, List.splitOn_append_cons_self_of_not_mem (hpart front hfront),
      List.splitOn_append_cons_self_of_not_mem hfront, List.modifyHead_cons]
  · rw [List.splitOn_eq_singleton h, List.splitOn_eq_singleton (hpart xs h), List.modifyHead_cons]

/-! ### Lines -/

namespace Lines

/-- A line feed ends the line at hand. -/
theorem toList_cut_newline (keep : Bool) (line cs : List Char) :
    (cut keep #[] line ('\n' :: cs)).toList
      = String.ofList (if keep then '\n' :: line else line).reverse
        :: (cut keep #[] [] cs).toList := by
  rw [cut, if_pos rfl, cut_toList]
  rfl

/-- Any other character goes on with the line. -/
theorem toList_cut_of_ne (keep : Bool) (line cs : List Char) {c : Char} (hc : c ≠ '\n') :
    (cut keep #[] line (c :: cs)).toList = (cut keep #[] (c :: line) cs).toList := by
  rw [cut, if_neg hc]

/-- The lines that are cut from a text behind a line that is already begun: its parts between line
feeds, of which the first goes on with that line. -/
theorem toList_cut (line cs : List Char) :
    (cut false #[] line cs).toList
      = (closed ((cs.splitOn '\n').modifyHead (line.reverse ++ ·))).map String.ofList := by
  -- on what is left of the text, for whatever has been read of a line
  induction cs generalizing line with
  | nil =>
    rw [List.splitOn_nil, List.modifyHead_cons, List.append_nil]
    cases line with
    | nil => rfl
    | cons c line =>
      rw [closed_singleton (by simp)]
      rfl
  | cons c cs ih =>
    rw [List.splitOn_cons_eq_if_modifyHead]
    by_cases hc : c = '\n'
    · -- the line ends here, and the next one begins with nothing
      have hnext : (cs.splitOn '\n').modifyHead (([] : List Char).reverse ++ ·)
          = cs.splitOn '\n' := by
        cases cs.splitOn '\n' <;> rfl
      rw [if_pos (by simpa using hc), List.modifyHead_cons, List.append_nil,
        closed_cons _ (List.splitOn_ne_nil '\n' cs), List.map_cons, hc, toList_cut_newline, ih,
        hnext]
      rfl
    · -- the line goes on with one more character
      have hmore : ((cs.splitOn '\n').modifyHead (List.cons c)).modifyHead (line.reverse ++ ·)
          = (cs.splitOn '\n').modifyHead ((c :: line).reverse ++ ·) := by
        cases cs.splitOn '\n' <;> simp
      rw [if_neg (by simpa using hc), hmore, toList_cut_of_ne false line cs hc, ih]

/-- Whether line feeds are kept or not, the lines are the same but for them. -/
theorem forall₂_cut (line cs : List Char) :
    List.Forall₂ (fun kept bare => kept = bare ∨ kept = bare ++ "\n")
      (cut true #[] line cs).toList (cut false #[] line cs).toList := by
  induction cs generalizing line with
  | nil =>
    cases line with
    | nil => exact .nil
    | cons c line => exact .cons (.inl rfl) .nil
  | cons c cs ih =>
    -- a line feed ends a line in both ways, and any other character ends it in neither
    by_cases hc : c = '\n'
    · have hkept : String.ofList ('\n' :: line).reverse = String.ofList line.reverse ++ "\n" := by
        rw [List.reverse_cons, String.ofList_append]
      rw [hc, toList_cut_newline, toList_cut_newline]
      exact .cons (.inr hkept) (ih [])
    · rw [toList_cut_of_ne true line cs hc, toList_cut_of_ne false line cs hc]
      exact ih (c :: line)

end Lines

/-- **The lines of a text** are its parts between line feeds, without the last if that is empty. -/
theorem splitLines_eq (text : String) :
    splitLines text = (closed (text.toList.splitOn '\n')).map String.ofList := by
  have hparts : (text.toList.splitOn '\n').modifyHead (([] : List Char).reverse ++ ·)
      = text.toList.splitOn '\n' := by
    cases text.toList.splitOn '\n' <;> rfl
  rw [splitLines, Lines.toList_cut, hparts]

/-- No line has a line feed. -/
theorem newline_notMem_of_mem_splitLines {text line : String} (h : line ∈ splitLines text) :
    '\n' ∉ line.toList := by
  rw [splitLines_eq] at h
  obtain ⟨part, hpart, rfl⟩ := List.mem_map.mp h
  rw [String.toList_ofList]
  exact notMem_of_mem_splitOn ((closed_isPrefix _).subset hpart)

/-! ### Lines that were ended -/

/-- **The text of some lines**, each with a line feed behind it. -/
def endEach (lines : List String) : String := String.join (lines.map (· ++ "\n"))

/-- In characters: the lines, each with a line feed behind it. -/
theorem toList_endEach (lines : List String) :
    (endEach lines).toList = (lines.map String.toList).flatMap (· ++ ['\n']) := by
  rw [endEach, String.toList_join, List.flatMap_map, List.flatMap_map]
  exact List.flatMap_congr fun line _ => String.toList_append

/-- Lines may be ended in two portions. -/
theorem endEach_append (lines lines' : List String) :
    endEach (lines ++ lines') = endEach lines ++ endEach lines' := by
  rw [endEach, List.map_append, String.join_append]
  rfl

theorem endEach_singleton (line : String) : endEach [line] = line ++ "\n" := by
  simp [endEach]

theorem endEach_concat (lines : List String) (last : String) :
    endEach (lines ++ [last]) = endEach lines ++ last ++ "\n" := by
  rw [endEach_append, endEach_singleton, String.append_assoc]

/-- **Every text is lines that were ended**, and a rest. -/
theorem exists_endEach_append (text : String) :
    ∃ lines rest, (∀ line ∈ lines, '\n' ∉ line.toList) ∧ '\n' ∉ rest.toList ∧
      text = endEach lines ++ rest := by
  obtain ⟨parts, rest, hparts, hrest, htext⟩ := exists_flatMap_append '\n' text.toList
  -- the parts of the characters are the characters of the lines
  have hlines : (parts.map String.ofList).map String.toList = parts := by
    rw [List.map_map]
    exact (List.map_congr_left fun part _ => String.toList_ofList).trans (List.map_id parts)
  refine ⟨parts.map String.ofList, .ofList rest,
    List.forall_mem_map.mpr fun part hpart => ?_, ?_, ?_⟩
  · rw [String.toList_ofList]
    exact hparts part hpart
  · rwa [String.toList_ofList]
  · rw [← String.toList_inj, String.toList_append, toList_endEach, hlines, String.toList_ofList,
      htext]

/-- **The lines of a text are those that were ended**, and the rest if there is one. -/
theorem splitLines_endEach_append {lines : List String} (h : ∀ line ∈ lines, '\n' ∉ line.toList)
    {rest : String} (hrest : '\n' ∉ rest.toList) :
    splitLines (endEach lines ++ rest) = lines ++ if rest = "" then [] else [rest] := by
  -- going to characters and back leaves the lines as they are
  have hlines : (lines.map String.toList).map String.ofList = lines := by
    rw [List.map_map]
    exact (List.map_congr_left fun line _ => String.ofList_toList).trans (List.map_id lines)
  rw [splitLines_eq, String.toList_append, toList_endEach,
    splitOn_flatMap_append (List.forall_mem_map.mpr h), List.splitOn_eq_singleton hrest]
  -- the rest is one more line, unless it is empty
  by_cases hempty : rest = ""
  · rw [if_pos hempty, hempty, String.toList_empty, closed_concat_nil, hlines, List.append_nil]
  · have hne : rest.toList ≠ [] := fun hnil => hempty (String.toList_eq_nil_iff.mp hnil)
    rw [if_neg hempty, closed_concat _ hne, List.map_append, hlines, List.map_singleton,
      String.ofList_toList]

/-- **Lines that were ended one by one** are the lines of the text that they make. -/
theorem splitLines_endEach {lines : List String} (h : ∀ line ∈ lines, '\n' ∉ line.toList) :
    splitLines (endEach lines) = lines := by
  have hrest : '\n' ∉ "".toList := List.not_mem_nil
  have hsplit := splitLines_endEach_append h hrest
  rwa [String.append_empty, if_pos rfl, List.append_nil] at hsplit

/-- **The lines of a file** are those of the text, each perhaps with a line feed. -/
theorem forall₂_keepLines_splitLines (text : String) :
    List.Forall₂ (fun kept bare => kept = bare ∨ kept = bare ++ "\n")
      (keepLines text) (splitLines text) := Lines.forall₂_cut [] text.toList

/-! ### Cutting at line feeds and nowhere else -/

/-- Line feeds between lines and one behind the last are line feeds behind each. -/
theorem intercalate_append_newline {lines : List String} (h : lines ≠ []) :
    "\n".intercalate lines ++ "\n" = endEach lines := by
  induction lines with
  | nil => exact absurd rfl h
  | cons line lines ih =>
    rw [← List.singleton_append, endEach_append, endEach_singleton, List.singleton_append]
    -- the last line gets its line feed from the end, all others from between
    by_cases hlines : lines = []
    · rw [hlines, String.intercalate_singleton]
      exact (String.append_empty).symm
    · rw [String.intercalate_cons_of_ne_nil hlines, String.append_assoc, ih hlines]

/-- Between the lines, and in front of the rest, stands what ends a line. -/
theorem intercalate_concat (lines : List String) (rest : String) :
    "\n".intercalate (lines ++ [rest]) = endEach lines ++ rest := by
  by_cases hlines : lines = []
  · rw [hlines, List.nil_append, String.intercalate_singleton]
    exact (String.empty_append).symm
  · rw [String.intercalate_append_of_ne_nil hlines (List.cons_ne_nil rest []),
      intercalate_append_newline hlines, String.intercalate_singleton]

/-- Ended lines end in a line feed, if there are any. -/
theorem getLast?_endEach {lines : List String} (h : lines ≠ []) :
    (endEach lines).toList.getLast? = some '\n' := by
  rw [← intercalate_append_newline h, String.toList_append]
  exact List.getLast?_concat

/-- **The lines of a text make the text**, with line feeds between them and one at the end if the
text has one there. -/
theorem intercalate_splitLines (text : String) :
    "\n".intercalate (splitLines text)
      ++ (if text.toList.getLast? = some '\n' then "\n" else "") = text := by
  obtain ⟨lines, rest, hlines, hrest, rfl⟩ := exists_endEach_append text
  rw [splitLines_endEach_append hlines hrest]
  by_cases hempty : rest = ""
  · subst hempty
    rw [if_pos rfl, List.append_nil, String.append_empty]
    by_cases hnone : lines = []
    · -- the empty text has no lines and does not end in a line feed
      subst hnone
      rfl
    · rw [if_pos (getLast?_endEach hnone), intercalate_append_newline hnone]
  · -- the rest is the end of the text, and has no line feed
    have hlast : (endEach lines ++ rest).toList.getLast? ≠ some '\n' := by
      intro hlast
      rw [String.toList_append, List.getLast?_append_of_ne_nil] at hlast
      · exact hrest (List.mem_of_getLast? hlast)
      · exact fun hnil => hempty (String.toList_eq_nil_iff.mp hnil)
    rw [if_neg hempty, if_neg hlast, intercalate_concat, String.append_empty]

/-- **A line feed parts a text**: what is in front of it and what is behind it are cut apart. -/
theorem splitLines_append_newline_append (front back : String) :
    splitLines (front ++ "\n" ++ back) = splitLines (front ++ "\n") ++ splitLines back := by
  obtain ⟨lines, last, hlines, hlast, rfl⟩ := exists_endEach_append front
  obtain ⟨lines', rest, hlines', hrest, rfl⟩ := exists_endEach_append back
  have hended : ∀ line ∈ lines ++ [last], '\n' ∉ line.toList :=
    List.forall_mem_append.mpr ⟨hlines, List.forall_mem_singleton.mpr hlast⟩
  have hboth : ∀ line ∈ lines ++ [last] ++ lines', '\n' ∉ line.toList :=
    List.forall_mem_append.mpr ⟨hended, hlines'⟩
  -- the line feed ends what was not ended in front of it
  rw [← endEach_concat, ← String.append_assoc, ← endEach_append,
    splitLines_endEach_append hboth hrest, splitLines_endEach hended,
    splitLines_endEach_append hlines' hrest, List.append_assoc]

/-- **Only line feeds disappear.** -/
theorem flatMap_toList_splitLines (text : String) :
    (splitLines text).flatMap String.toList = text.toList.filter (· ≠ '\n') := by
  obtain ⟨lines, rest, hlines, hrest, rfl⟩ := exists_endEach_append text
  -- a line has no line feed, so that nothing of it is left out
  have hkept : ∀ line : String, '\n' ∉ line.toList →
      line.toList.filter (· ≠ '\n') = line.toList := by
    intro line hline
    refine List.filter_eq_self.mpr fun c hc => decide_eq_true ?_
    rintro rfl
    exact hline hc
  -- of an ended line, what ends it is left out
  have hended : (endEach lines).toList.filter (· ≠ '\n') = lines.flatMap String.toList := by
    rw [toList_endEach, List.flatMap_map, List.filter_flatMap]
    refine List.flatMap_congr fun line hline => ?_
    rw [List.filter_append, hkept line (hlines line hline)]
    exact List.append_nil _
  rw [splitLines_endEach_append hlines hrest, List.flatMap_append, String.toList_append,
    List.filter_append, hended, hkept rest hrest]
  by_cases hempty : rest = ""
  · rw [if_pos hempty, hempty]
    rfl
  · rw [if_neg hempty, List.flatMap_singleton]

/-- **Cutting texts at their line feeds** and nowhere else. -/
structure CutsAtNewlines (cut : String → List String) : Prop where
  /-- No line has a line feed. -/
  newline_notMem : ∀ text, ∀ line ∈ cut text, '\n' ∉ line.toList
  /-- With line feeds between them, and one at the end if the text has one there, the lines are the
  text again. -/
  intercalate_eq : ∀ text, "\n".intercalate (cut text)
    ++ (if text.toList.getLast? = some '\n' then "\n" else "") = text
  /-- Lines that were ended one by one are read back. -/
  cut_join : ∀ lines : List String, (∀ line ∈ lines, '\n' ∉ line.toList) →
    cut (String.join (lines.map (· ++ "\n"))) = lines
  /-- What is in front of a line feed and what is behind it are cut apart from each other. -/
  cut_append : ∀ front back, cut (front ++ "\n" ++ back) = cut (front ++ "\n") ++ cut back
  /-- Where there is no line feed, all is one line. -/
  cut_of_notMem : ∀ text, '\n' ∉ text.toList → text ≠ "" → cut text = [text]
  /-- The line feeds are the only characters that are in no line. -/
  chars_eq : ∀ text, (cut text).flatMap String.toList = text.toList.filter (· ≠ '\n')

/-- **There is one way to do so.** -/
theorem CutsAtNewlines.eq_splitLines {cut : String → List String} (h : CutsAtNewlines cut) :
    cut = splitLines := by
  funext text
  obtain ⟨lines, rest, hlines, hrest, rfl⟩ := exists_endEach_append text
  rw [splitLines_endEach_append hlines hrest]
  -- the rest has no line feed: it is one line, or none if it is empty
  have hcut : cut rest = if rest = "" then [] else [rest] := by
    by_cases hempty : rest = ""
    · rw [if_pos hempty, hempty]
      exact h.cut_join [] nofun
    · rw [if_neg hempty]
      exact h.cut_of_notMem rest hrest hempty
  obtain rfl | ⟨front, last, rfl⟩ := lines.eq_nil_or_concat
  · rw [endEach, List.map_nil, String.join_nil, String.empty_append, List.nil_append, hcut]
  · -- the last line feed parts the text into the ended lines and the rest
    rw [List.concat_eq_append] at hlines ⊢
    have hjoin : cut (endEach (front ++ [last])) = front ++ [last] := h.cut_join _ hlines
    rw [endEach_concat, h.cut_append, ← endEach_concat, hjoin, hcut]

/-- **The lines of texts are exactly what is between their line feeds.** -/
theorem splitLines_cutsAtNewlines : CutsAtNewlines splitLines where
  newline_notMem := fun _ _ => newline_notMem_of_mem_splitLines
  intercalate_eq := intercalate_splitLines
  cut_join := fun _ => splitLines_endEach
  cut_append := splitLines_append_newline_append
  cut_of_notMem := by
    intro text htext hne
    have hnone : ∀ line ∈ ([] : List String), '\n' ∉ line.toList := nofun
    have hsplit := splitLines_endEach_append hnone htext
    rwa [if_neg hne, List.nil_append, endEach, List.map_nil, String.join_nil,
      String.empty_append] at hsplit
  chars_eq := flatMap_toList_splitLines

/-- A comment with a line separator and a carriage return, a line with nothing in it, and a line
that begins with a next-line control. -/
def otherBreaks : List String := ["! a\u2028||b^\r", "", "\u0085||c^"]

theorem splitLines_cutsAtNewlines_otherBreaks :
    (∀ line ∈ otherBreaks, '\n' ∉ line.toList) ∧
      splitLines "! a\u2028||b^\r\n\n\u0085||c^\n" = otherBreaks ∧
      splitLines "! a\u2028||b^\r" = ["! a\u2028||b^\r"] := by
  have hlines : ∀ line ∈ otherBreaks, '\n' ∉ line.toList := by decide
  exact ⟨hlines, splitLines_cutsAtNewlines.cut_join otherBreaks hlines,
    splitLines_cutsAtNewlines.cut_of_notMem _ (by decide) (by decide)⟩

end Blocklist.Text
