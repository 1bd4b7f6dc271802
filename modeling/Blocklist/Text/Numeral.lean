import Blocklist.Text.Blank

/-!
# Numerals

Reading whole numbers as people type them: blanks around, a sign, digits of any script, and single
underscores between digits.

* `digitValue?` — the value of a decimal digit of any script;
* `readInt?` — the number that a numeral stands for, or `none`.
-/

namespace Blocklist.Text

/-- The code points of the digit zero of every script with decimal digits in Unicode 14.0; the nine
other digits follow each in order. -/
def digitZeros : List Nat := [
  0x0030, 0x0660, 0x06F0, 0x07C0, 0x0966, 0x09E6, 0x0A66, 0x0AE6, 0x0B66, 0x0BE6, 0x0C66, 0x0CE6,
  0x0D66, 0x0DE6, 0x0E50, 0x0ED0, 0x0F20, 0x1040, 0x1090, 0x17E0, 0x1810, 0x1946, 0x19D0, 0x1A80,
  0x1A90, 0x1B50, 0x1BB0, 0x1C40, 0x1C50, 0xA620, 0xA8D0, 0xA900, 0xA9D0, 0xA9F0, 0xAA50, 0xABF0,
  0xFF10, 0x104A0, 0x10D30, 0x11066, 0x110F0, 0x11136, 0x111D0, 0x112F0, 0x11450, 0x114D0, 0x11650,
  0x116C0, 0x11730, 0x118E0, 0x11950, 0x11C50, 0x11D50, 0x11DA0, 0x16A60, 0x16AC0, 0x16B50,
  0x1D7CE, 0x1D7D8, 0x1D7E2, 0x1D7EC, 0x1D7F6, 0x1E140, 0x1E2F0, 0x1E950, 0x1FBF0]

/-- The value of a decimal digit. -/
def digitValue? (c : Char) : Option Nat :=
  (digitZeros.find? fun z => z ≤ c.toNat && c.toNat ≤ z + 9).map (c.toNat - ·)

/-- Blank beside a numeral: as in `isBlank`, without the four separator controls. -/
def isNumeralBlank (c : Char) : Bool :=
  isBlank c && !(0x1C ≤ c.toNat && c.toNat ≤ 0x1F)

/-- A numeral has at most this many digits. -/
def maxDigits : Nat := 4300

/-- Reads digits that single underscores may separate: `value` is what the `count` digits so far
stand for, and `afterDigit` says that the last character was one of them. -/
def readDigits? (value count : Nat) (afterDigit : Bool) : List Char → Option Nat
  | [] => if afterDigit && count ≤ maxDigits then some value else none
  | c :: cs =>
    match digitValue? c with
    | some d => readDigits? (10 * value + d) (count + 1) true cs
    | none => if c = '_' && afterDigit then readDigits? value count false cs else none

/-- The whole number that a numeral stands for. -/
def readInt? (s : String) : Option Int :=
  let cs := (s.toList.dropWhile isNumeralBlank).reverse.dropWhile isNumeralBlank |>.reverse
  match cs with
  | '-' :: digits => (readDigits? 0 0 false digits).map fun n => -(n : Int)
  | '+' :: digits => (readDigits? 0 0 false digits).map Int.ofNat
  | digits => (readDigits? 0 0 false digits).map Int.ofNat

end Blocklist.Text
