import Blocklist.Text.Grouped

/-!
# Decimal numbers read back

Whole numbers are written in decimal digits, with a minus sign for the negative ones and, up to a
width, with zeros in front. Reading them gives the number back.

* `decimal?`, `signed?` — reading a number without and with a sign;
* `decimal?_zeroPadded`, `signed?_toString` — what is written is read back.
-/

namespace Blocklist.Text

/-- The number that decimal digits stand for. -/
def decimal? (digits : List Char) : Option Nat :=
  if !digits.isEmpty && digits.all Char.isDigit then some (Nat.ofDigitChars 10 digits 0) else none

/-- The number that decimal digits stand for, a minus sign in front of them or not. -/
def signed? : List Char → Option Int
  | '-' :: digits => (decimal? digits).map fun n : Nat => -(n : Int)
  | digits => (decimal? digits).map fun n : Nat => (n : Int)

variable {width n : Nat} {c : Char}

/-! ### The digits -/

theorem toList_toString_ofNat (n : Nat) : (toString (Int.ofNat n)).toList = Nat.toDigits 10 n :=
  String.toList_ofList

/-- A number below zero has its sign in front. -/
theorem toList_toString_negSucc (n : Nat) :
    (toString (Int.negSucc n)).toList = '-' :: Nat.toDigits 10 (n + 1) := by
  change ("-" ++ String.ofList (Nat.toDigits 10 (n + 1))).toList = _
  rw [String.toList_append]
  exact congrArg ('-' :: ·) String.toList_ofList

/-- Zeros fill up what is wanting, and are in front. -/
theorem toList_zeroPadded (width n : Nat) :
    (zeroPadded width n).toList =
      List.replicate (width - (toString n).length) '0' ++ Nat.toDigits 10 n := by
  rw [zeroPadded, String.toList_append, String.toList_ofList]
  exact congrArg _ Nat.toList_repr

/-- No digit is taken for a sign. -/
theorem toDigits_ne_minus (n : Nat) (digits : List Char) : Nat.toDigits 10 n ≠ '-' :: digits := by
  intro h
  have hdigit := Nat.isDigit_of_mem_toDigits (by decide) (Nat.le_refl _) (h ▸ List.mem_cons_self)
  cases hdigit

/-- All of these are digits. -/
theorem isDigit_of_mem_replicate_append_toDigits {k : Nat}
    (h : c ∈ List.replicate k '0' ++ Nat.toDigits 10 n) : c.isDigit := by
  rcases List.mem_append.mp h with h | h
  · rw [List.eq_of_mem_replicate h]
    rfl
  · exact Nat.isDigit_of_mem_toDigits (by decide) (Nat.le_refl _) h

theorem isDigit_of_mem_zeroPadded (h : c ∈ (zeroPadded width n).toList) : c.isDigit := by
  rw [toList_zeroPadded] at h
  exact isDigit_of_mem_replicate_append_toDigits h

/-- An integer is written in digits and a sign. -/
theorem isDigit_of_mem_toString {i : Int} (h : c ∈ (toString i).toList) :
    c.isDigit ∨ c = '-' := by
  cases i with
  | ofNat n =>
    rw [toList_toString_ofNat] at h
    exact .inl (Nat.isDigit_of_mem_toDigits (by decide) (Nat.le_refl _) h)
  | negSucc n =>
    rw [toList_toString_negSucc] at h
    rcases List.mem_cons.mp h with hminus | h
    · exact .inr hminus
    · exact .inl (Nat.isDigit_of_mem_toDigits (by decide) (Nat.le_refl _) h)

/-- Below a hundred, padding to two digits gives two digits. -/
theorem length_zeroPadded_two (h : n < 100) : (zeroPadded 2 n).toList.length = 2 := by
  have hlen : (toString n).length ≤ 2 := by
    rw [← String.length_toList, Nat.toString_eq_repr, Nat.toList_repr]
    exact (Nat.length_toDigits_le_iff (by decide) (by decide)).mpr h
  rw [zeroPadded, String.toList_append, String.toList_ofList, List.length_append,
    List.length_replicate, String.length_toList, Nat.sub_add_cancel hlen]

/-! ### Reading them -/

/-- Zeros in front of a number do not count. -/
theorem decimal?_replicate_append_toDigits (k n : Nat) :
    decimal? (List.replicate k '0' ++ Nat.toDigits 10 n) = some n := by
  have hdigits : (List.replicate k '0' ++ Nat.toDigits 10 n).all Char.isDigit :=
    List.all_eq_true.mpr fun _ => isDigit_of_mem_replicate_append_toDigits
  rw [decimal?, hdigits, if_pos (by simp), Nat.ofDigitChars_append,
    Nat.ofDigitChars_replicate_zero, Nat.mul_zero, Nat.ofDigitChars_ten_toDigits]

/-- **Digits are read back.** -/
theorem decimal?_toDigits (n : Nat) : decimal? (Nat.toDigits 10 n) = some n :=
  decimal?_replicate_append_toDigits 0 n

/-- **So are digits with zeros in front.** -/
theorem decimal?_zeroPadded (width n : Nat) : decimal? (zeroPadded width n).toList = some n := by
  rw [toList_zeroPadded]
  exact decimal?_replicate_append_toDigits _ n

/-- **And so are digits with a sign.** -/
theorem signed?_toString (i : Int) : signed? (toString i).toList = some i := by
  cases i with
  | ofNat n =>
    -- the reader takes the digits as they are, as no digit is a minus sign
    rw [toList_toString_ofNat, signed?, decimal?_toDigits]
    · rfl
    · exact toDigits_ne_minus n
  | negSucc n =>
    rw [toList_toString_negSucc, signed?, decimal?_toDigits]
    rfl

end Blocklist.Text
