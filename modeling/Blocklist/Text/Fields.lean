/-!
# Separated fields

A text cut at a separator.

* `fields` — all the parts, also the empty ones: there is one more than there are separators;
* `cutAt` — the part before the first separator and, if there is one, the part behind it;
* `afterLast` — the part behind the last separator, or the whole text.
-/

namespace Blocklist.Text

/-- The parts of a text between the separators. -/
def fields (sep : Char) : List Char → List (List Char)
  | [] => [[]]
  | c :: cs =>
    if c = sep then [] :: fields sep cs
    else match fields sep cs with
      | [] => [[c]]
      | part :: parts => (c :: part) :: parts

/-- The part before the first separator, and the part behind it. -/
def cutAt (sep : Char) (cs : List Char) : List Char × Option (List Char) :=
  (cs.takeWhile (· != sep),
    match cs.dropWhile (· != sep) with
    | [] => none
    | _ :: rest => some rest)

/-- The part behind the last separator. -/
def afterLast (sep : Char) (cs : List Char) : List Char :=
  (cs.reverse.takeWhile (· != sep)).reverse

end Blocklist.Text
