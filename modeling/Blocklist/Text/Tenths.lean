/-!
# Tenths of a second

A duration in milliseconds, shown in seconds with one decimal place. The quotient is rounded twice:
to the nearest binary number of 53 digits, as which durations are kept, and from there to tenths. So
250 ms, which is exact, goes to the even 0.2, while 350 ms is kept a little short and shown as 0.3.

* `roundDiv` — a quotient rounded to the nearest whole number, a half to the even one;
* `tenths` — the rounding; `seconds` — the text.
-/

namespace Blocklist.Text

/-- **A rounded quotient**; a half goes to the even neighbour. -/
def roundDiv (num den : Nat) : Nat :=
  let q := num / den
  let r := num % den
  if 2 * r < den then q else if den < 2 * r then q + 1 else q + q % 2

/-- The scale that makes every quotient of a whole number by 1000 exact enough: times `2 ^ 64` it
has at least 53 binary digits. -/
def scale : Nat := Nat.pow 2 64

/-- The nearest binary number of 53 digits to a number of milliseconds over 1000, times `scale`. -/
def binarySeconds (millis : Nat) : Nat :=
  let grain := Nat.pow 2 (Nat.log2 (millis * scale / 1000) - 52)
  roundDiv (millis * scale) (1000 * grain) * grain

/-- The tenths of a second nearest to the binary number. -/
def tenths (millis : Nat) : Nat := roundDiv (10 * binarySeconds millis) scale

example : [250, 150, 350, 450, 149, 0].map tenths = [2, 1, 3, 5, 1, 0] := by decide

/-- A duration in seconds. -/
def seconds (millis : Int) : String :=
  let n := tenths millis.natAbs
  let sign := if millis < 0 then "-" else ""
  sign ++ toString (n / 10) ++ "." ++ toString (n % 10)

end Blocklist.Text
