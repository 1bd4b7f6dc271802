import Blocklist.Text.Blank

/-!
# One line of a filter list

What a single line says. Of all the forms that filter lists have, one is of interest: a line
`||domain^`, perhaps with options behind it, blocks a whole domain. Every other line is skipped, for
a reason that is counted.

* `Line.read` — the verdict on a raw line: the domain that it blocks, or why it is skipped;
* `Line.marked?` — the reasons that show in the characters of a line alone;
* `Line.domain?` — the domain between `||` and `^`.
-/

namespace Blocklist

/-- Why a line makes no rule. -/
inductive SkipReason where
  | empty
  | comment
  | header
  | exception
  | cosmetic
  | unsupported
deriving DecidableEq, Repr

/-- The name under which skipped lines are counted. -/
def SkipReason.name : SkipReason → String
  | .empty => "empty"
  | .comment => "comment"
  | .header => "header"
  | .exception => "exception"
  | .cosmetic => "cosmetic"
  | .unsupported => "unsupported"

/-- What a line says. -/
inductive Verdict where
  | blocks (domain : String)
  | skipped (reason : SkipReason)
deriving DecidableEq, Repr

namespace Line

/-- The markers of a cosmetic rule, which hides parts of a page and blocks nothing. -/
def cosmeticMarkers : List String := ["##", "#%#", "###"]

/-- Whether `part` stands somewhere in the text. -/
def occurs (part : List Char) : List Char → Bool
  | [] => part.isEmpty
  | c :: cs => part.isPrefixOf (c :: cs) || occurs part cs

/-- **Marked lines.** The first reason of these that holds: a comment starts with `!`, a header with
`[`, an exception with `@@`, and a cosmetic rule has its marker anywhere. -/
def marked? (line : List Char) : Option SkipReason :=
  if ['!'].isPrefixOf line then some .comment
  else if ['['].isPrefixOf line then some .header
  else if ['@', '@'].isPrefixOf line then some .exception
  else if cosmeticMarkers.any fun marker => occurs marker.toList line then some .cosmetic
  else none

/-- The body of a domain rule: what stands between a leading `||` and the first `^` after it. -/
def body? : List Char → Option (List Char)
  | '|' :: '|' :: rest => if rest.contains '^' then some (rest.takeWhile (· != '^')) else none
  | _ => none

/-- **The blocked domain** of a line: its body up to the first `$`, from where on it is options. No
domain is empty, and one that ends in `/` belongs to a pattern. -/
def domain? (line : List Char) : Option (List Char) :=
  match body? line with
  | none => none
  | some body =>
    let domain := body.takeWhile (· != '$')
    if domain.isEmpty || domain.getLast? == some '/' then none else some domain

/-- **The verdict on a raw line.** Blanks around the line do not count. -/
def read (line : String) : Verdict :=
  let cs := Text.trim line.toList
  if cs.isEmpty then .skipped .empty
  else match marked? cs with
    | some reason => .skipped reason
    | none => match domain? cs with
      | some domain => .blocks (String.ofList domain)
      | none => .skipped .unsupported

end Line

end Blocklist
