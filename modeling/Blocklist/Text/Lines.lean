/-!
# Lines of a text

A line feed ends a line, and nothing else does: a carriage return, U+0085 and U+2028 are ordinary
characters of their line.

* `splitLines` — the lines without their line feeds; an unterminated last line counts if it is not
  empty;
* `keepLines` — the same lines, each with the line feed that ended it, as a file is read.
-/

namespace Blocklist.Text

namespace Lines

/-- Cuts the text after each line feed. `done` holds the finished lines and `line` the characters
of the current one, last first. With `keep`, a line keeps the line feed that ends it. -/
def cut (keep : Bool) (done : Array String) (line : List Char) : List Char → Array String
  | [] => if line.isEmpty then done else done.push (String.ofList line.reverse)
  | c :: cs =>
    if c = '\n' then
      let line := if keep then c :: line else line
      cut keep (done.push (String.ofList line.reverse)) [] cs
    else
      cut keep done (c :: line) cs

/-- Lines that are already finished stay in front. -/
theorem cut_toList (keep : Bool) (done : Array String) (line cs : List Char) :
    (cut keep done line cs).toList = done.toList ++ (cut keep #[] line cs).toList := by
  induction cs generalizing done line with
  | nil => by_cases h : line.isEmpty <;> simp [cut, h]
  | cons c cs ih =>
    by_cases h : c = '\n'
    · simp only [cut, h, if_true]
      rw [ih, ih (Array.push _ _)]
      simp
    · simp only [cut, h, if_false]
      exact ih done (c :: line)

end Lines

/-- The lines of a text, without the line feeds that end them. -/
def splitLines (text : String) : List String :=
  (Lines.cut false #[] [] text.toList).toList

/-- The lines of a text, each with the line feed that ends it. -/
def keepLines (text : String) : List String :=
  (Lines.cut true #[] [] text.toList).toList

@[simp] theorem splitLines_empty : splitLines "" = [] := rfl

end Blocklist.Text
