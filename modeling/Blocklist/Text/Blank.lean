/-!
# Blank characters and trimming

The characters that trimming removes from both ends of a line, and trimming itself.

* `isBlank` — the class: tabs and line breaks, the four separator controls, the space, next line,
  and the spaces and separators of Unicode;
* `trim` — a text without its leading and trailing blanks; `head_trim` and `getLast_trim` say that
  none is left at either end.
-/

namespace Blocklist.Text

/-- **Blank.** U+0009–000D, U+001C–0020, U+0085, U+00A0, U+1680, U+2000–200A, U+2028, U+2029,
U+202F, U+205F and U+3000. A zero-width space and a byte order mark are no blanks. -/
def isBlank (c : Char) : Bool :=
  let n := c.toNat
  (0x09 ≤ n && n ≤ 0x0D) || (0x1C ≤ n && n ≤ 0x20) || n == 0x85 || n == 0xA0 || n == 0x1680 ||
    (0x2000 ≤ n && n ≤ 0x200A) || n == 0x2028 || n == 0x2029 || n == 0x202F || n == 0x205F ||
    n == 0x3000

/-- The text without the blanks at its end. -/
def trimEnd (cs : List Char) : List Char :=
  (cs.reverse.dropWhile isBlank).reverse

/-- The text without the blanks at either end. -/
def trim (cs : List Char) : List Char :=
  trimEnd (cs.dropWhile isBlank)

@[simp] theorem trim_nil : trim [] = [] := rfl

/-- Trimming the end leaves the beginning as it is. -/
theorem trimEnd_isPrefix (cs : List Char) : trimEnd cs <+: cs := by
  obtain ⟨blanks, h⟩ := List.dropWhile_suffix (l := cs.reverse) isBlank
  exact ⟨blanks.reverse, by rw [trimEnd, ← List.reverse_append, h, List.reverse_reverse]⟩

/-- The first character of a trimmed text is no blank. -/
theorem head_trim {cs : List Char} {c : Char} (h : (trim cs).head? = some c) :
    isBlank c = false := by
  obtain ⟨rest, hrest⟩ := trimEnd_isPrefix (cs.dropWhile isBlank)
  have hc : (cs.dropWhile isBlank).head? = some c := by
    rw [← hrest, List.head?_append, show trimEnd (cs.dropWhile isBlank) = trim cs from rfl, h]
    rfl
  have := List.head?_dropWhile_not isBlank cs
  rw [hc] at this
  simpa using this

/-- The last character of a trimmed text is no blank. -/
theorem getLast_trim {cs : List Char} {c : Char} (h : (trim cs).getLast? = some c) :
    isBlank c = false := by
  rw [trim, trimEnd, List.getLast?_reverse] at h
  have := List.head?_dropWhile_not isBlank (cs.dropWhile isBlank).reverse
  rw [h] at this
  simpa using this

end Blocklist.Text
