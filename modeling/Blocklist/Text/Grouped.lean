/-!
# Numbers for people

Decimal numbers with a comma between groups of three digits, and padding to a width.

* `grouped` — `1234567` as `1,234,567`, the sign in front;
* `padLeft` — blanks in front, up to a width; a longer text stays as it is.
-/

namespace Blocklist.Text

/-- Puts a comma before every third digit from the right, given the digits last first. -/
def groupDigits : List Char → List Char
  | a :: b :: c :: d :: rest => a :: b :: c :: ',' :: groupDigits (d :: rest)
  | digits => digits

/-- A number with its digits in groups of three. -/
def grouped (n : Int) : String :=
  let digits := String.ofList (groupDigits (toString n.natAbs).toList.reverse).reverse
  if n < 0 then "-" ++ digits else digits

/-- Blanks in front of a text, so that it is `width` characters long. -/
def padLeft (width : Nat) (s : String) : String :=
  String.ofList (List.replicate (width - s.length) ' ') ++ s

/-- A decimal number of at least `width` digits, zeros in front. -/
def zeroPadded (width n : Nat) : String :=
  let s := toString n
  String.ofList (List.replicate (width - s.length) '0') ++ s

end Blocklist.Text
