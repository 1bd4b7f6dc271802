import Blocklist.Text.Utf8
import Mathlib.Tactic.SplitIfs

/-!
# UTF-8 is read back

The machine that reads bytes gives back every text from its bytes.

* `feed_utf8EncodeChar` — the bytes of one character take the machine from where a character may
  begin to there again, with that character written;
* `decode_utf8` — so the bytes of a text give all its characters;
* `decodeBody_toUTF8` — and a body is the text again, unless it begins with a byte order mark.
-/

namespace Blocklist.Text.Utf8

/-! ### Bytes -/

/-- A number below 256 fits into a byte. -/
theorem toNat_ofNat {n : Nat} (h : n < 256) : (UInt8.ofNat n).toNat = n :=
  UInt8.toNat_ofNat_of_lt' h

/-- Whether six bits of a code point may stand in a byte between two bounds. -/
def Fits (low high : UInt8) (bits : Nat) : Prop :=
  bits < 64 ∧ low.toNat ≤ bits + 128 ∧ bits + 128 ≤ high.toNat

theorem fits_of_lt {bits : Nat} (h : bits < 64) : Fits 0x80 0xBF bits :=
  ⟨h, Nat.le_add_left _ _, Nat.add_le_add_right (Nat.le_of_lt_succ h) 128⟩

variable {written : List Char} {low high : UInt8} {bits value : Nat}

/-- A first byte opens a character of several. -/
theorem push_opens {s : State} {b : UInt8} (h : lead b = .opens s) :
    Reader.push ⟨.ready, written⟩ b = ⟨s, written⟩ := by
  simp [Reader.push, step, start, h]

/-- A byte that goes on with a sequence. -/
theorem step_inside (need : Nat) (h : Fits low high bits) :
    step (.inside need low high value) (UInt8.ofNat (bits + 128)) =
      if need = 1 then ([Char.ofNat (value * 64 + bits)], .ready)
      else ([], .inside (need - 1) 0x80 0xBF (value * 64 + bits)) := by
  obtain ⟨hbits, hlow, hhigh⟩ := h
  have hbyte : (UInt8.ofNat (bits + 128)).toNat = bits + 128 := toNat_ofNat (by omega)
  simp only [step, UInt8.le_iff_toNat_le, hbyte, hlow, hhigh, decide_true, Bool.and_self, if_true,
    Nat.add_sub_cancel]

/-- A further byte brings six bits, and others are to come. -/
theorem push_more (need : Nat) (h : Fits low high bits) :
    Reader.push ⟨.inside (need + 2) low high value, written⟩ (UInt8.ofNat (bits + 128)) =
      ⟨.inside (need + 1) 0x80 0xBF (value * 64 + bits), written⟩ := by
  rw [Reader.push, step_inside _ h]
  rfl

/-- The last byte brings six bits, and the character is there. -/
theorem push_last (h : Fits low high bits) :
    Reader.push ⟨.inside 1 low high value, written⟩ (UInt8.ofNat (bits + 128)) =
      ⟨.ready, Char.ofNat (value * 64 + bits) :: written⟩ := by
  rw [Reader.push, step_inside _ h]
  rfl

/-! ### Characters -/

/-- A character of one byte. -/
theorem feed_one {n : Nat} (h : n < 0x80) :
    Reader.feed ⟨.ready, written⟩ [UInt8.ofNat n] = ⟨.ready, Char.ofNat n :: written⟩ := by
  have hlead : lead (UInt8.ofNat n) = .single (Char.ofNat n) := by
    rw [lead, toNat_ofNat (by omega), if_pos h]
  simp [Reader.feed, Reader.push, step, start, hlead]

/-- A character of two bytes, of which the first has at least two of the bits. -/
theorem feed_two {a x : Nat} (hx : x < 64) (hlow : 2 ≤ a) (hhigh : a < 32) :
    Reader.feed ⟨.ready, written⟩ [UInt8.ofNat (a + 192), UInt8.ofNat (x + 128)] =
      ⟨.ready, Char.ofNat (a * 64 + x) :: written⟩ := by
  have hlead : lead (UInt8.ofNat (a + 192)) = .opens (.inside 1 0x80 0xBF a) := by
    rw [lead, toNat_ofNat (by omega), if_neg (by omega), if_neg (by omega), if_pos (by omega),
      Nat.add_sub_cancel]
  simp only [Reader.feed, List.foldl_cons, List.foldl_nil]
  rw [push_opens hlead, push_last (fits_of_lt hx)]

/-- Three bytes. The second has tighter bounds behind the lowest lead, where overlong forms would
be, and behind the lead that surrogates would have. -/
theorem feed_three {a x y : Nat} (hx : x < 64) (hy : y < 64) (ha : a < 16) (hlow : a = 0 → 32 ≤ x)
    (hhigh : a = 13 → x < 32) :
    Reader.feed ⟨.ready, written⟩
        [UInt8.ofNat (a + 224), UInt8.ofNat (x + 128), UInt8.ofNat (y + 128)] =
      ⟨.ready, Char.ofNat ((a * 64 + x) * 64 + y) :: written⟩ := by
  obtain ⟨low, high, hlead, hfits⟩ : ∃ low high,
      lead (UInt8.ofNat (a + 224)) = .opens (.inside 2 low high a) ∧ Fits low high x := by
    rw [lead, toNat_ofNat (by omega), if_neg (by omega), if_neg (by omega), if_neg (by omega)]
    simp only [Nat.add_sub_cancel]
    -- two of the first bytes bound the second: one leaves out overlong forms, the other halves of
    -- pairs
    by_cases hzero : a = 0
    · subst hzero
      exact ⟨_, _, rfl, hx, Nat.add_le_add_right (hlow rfl) 128, (fits_of_lt hx).2.2⟩
    · rw [if_neg (by omega)]
      by_cases hthirteen : a = 13
      · subst hthirteen
        refine ⟨_, _, rfl, hx, (fits_of_lt hx).2.1, ?_⟩
        exact Nat.add_le_add_right (Nat.le_of_lt_succ (hhigh rfl)) 128
      · rw [if_neg (by omega), if_pos (by omega)]
        exact ⟨_, _, rfl, fits_of_lt hx⟩
  simp only [Reader.feed, List.foldl_cons, List.foldl_nil]
  rw [push_opens hlead, push_more 0 hfits, push_last (fits_of_lt hy)]

/-- Four bytes. The second has tighter bounds behind the lowest lead, where overlong forms would be,
and behind the highest, which goes on beyond U+10FFFF. -/
theorem feed_four {a x y z : Nat} (hx : x < 64) (hy : y < 64) (hz : z < 64) (ha : a ≤ 4)
    (hlow : a = 0 → 16 ≤ x) (hhigh : a = 4 → x < 16) :
    Reader.feed ⟨.ready, written⟩ [UInt8.ofNat (a + 240), UInt8.ofNat (x + 128),
        UInt8.ofNat (y + 128), UInt8.ofNat (z + 128)] =
      ⟨.ready, Char.ofNat (((a * 64 + x) * 64 + y) * 64 + z) :: written⟩ := by
  obtain ⟨low, high, hlead, hfits⟩ : ∃ low high,
      lead (UInt8.ofNat (a + 240)) = .opens (.inside 3 low high a) ∧ Fits low high x := by
    rw [lead, toNat_ofNat (by omega), if_neg (by omega), if_neg (by omega), if_neg (by omega),
      if_neg (by omega), if_neg (by omega), if_neg (by omega)]
    simp only [Nat.add_sub_cancel]
    -- here one leaves out overlong forms, and the other what is beyond U+10FFFF
    by_cases hzero : a = 0
    · subst hzero
      exact ⟨_, _, rfl, hx, Nat.add_le_add_right (hlow rfl) 128, (fits_of_lt hx).2.2⟩
    · rw [if_neg (by omega)]
      by_cases hfour : a = 4
      · subst hfour
        refine ⟨_, _, rfl, hx, (fits_of_lt hx).2.1, ?_⟩
        exact Nat.add_le_add_right (Nat.le_of_lt_succ (hhigh rfl)) 128
      · rw [if_pos (by omega)]
        exact ⟨_, _, rfl, fits_of_lt hx⟩
  simp only [Reader.feed, List.foldl_cons, List.foldl_nil]
  rw [push_opens hlead, push_more 1 hfits, push_more 0 (fits_of_lt hy), push_last (fits_of_lt hz)]

/-- No character is half of a pair. -/
theorem toNat_not_surrogate (c : Char) : c.toNat < 0xD800 ∨ 0xDFFF < c.toNat := by
  rcases c.valid with h | h
  · exact .inl h
  · exact .inr h.1

theorem toNat_le (c : Char) : c.toNat ≤ 0x10FFFF := by
  rcases c.valid with h | h
  · exact Nat.le_of_lt (Nat.lt_trans h (by decide))
  · exact Nat.le_of_lt_succ h.2

/-- **A character is read back** from its bytes. -/
theorem feed_utf8EncodeChar (c : Char) :
    Reader.feed ⟨.ready, written⟩ (String.utf8EncodeChar c) = ⟨.ready, c :: written⟩ := by
  have hsurrogate := toNat_not_surrogate c
  have hlast := toNat_le c
  obtain ⟨n, hn⟩ : ∃ n, c.toNat = n := ⟨_, rfl⟩
  have hchar : c = Char.ofNat n := hn ▸ (Char.ofNat_toNat c).symm
  have hval : c.val.toNat = n := hn
  rw [hn] at hsurrogate hlast
  simp only [String.utf8EncodeChar, hval]
  rw [hchar]
  -- in each case the parts make up the code point
  split_ifs with hone htwo hthree
  · exact feed_one (Nat.lt_succ_of_le hone)
  · rw [feed_two (by omega) (by omega) (by omega)]
    congr 3
    omega
  · rw [feed_three (by omega) (by omega) (by omega) (by omega) (by omega)]
    congr 3
    omega
  · rw [feed_four (by omega) (by omega) (by omega) (by omega) (by omega) (by omega)]
    congr 3
    omega

/-- **Reading what was written**, character by character. -/
theorem feed_utf8 (cs : List Char) :
    Reader.feed ⟨.ready, written⟩ (cs.flatMap String.utf8EncodeChar) =
      ⟨.ready, cs.reverse ++ written⟩ := by
  induction cs generalizing written with
  | nil => rfl
  | cons c cs ih =>
    rw [List.flatMap_cons, Reader.feed_append, feed_utf8EncodeChar, ih, List.reverse_cons,
      List.append_assoc, List.singleton_append]

/-- **Characters are read back** from their bytes. -/
theorem decode_utf8 (cs : List Char) : decode (cs.flatMap String.utf8EncodeChar) = cs := by
  change (Reader.feed ⟨.ready, []⟩ _).text = cs
  rw [feed_utf8, List.append_nil]
  exact (List.append_nil _).trans cs.reverse_reverse

/-- What was read stays. -/
theorem written_suffix_feed (r : Reader) (bytes : List UInt8) :
    r.written <:+ (r.feed bytes).written := by
  induction bytes generalizing r with
  | nil => exact List.suffix_rfl
  | cons b bytes ih => exact (List.suffix_append _ _).trans (ih (r.push b))

/-- A text that begins with no mark loses nothing. -/
theorem dropMark_utf8 {cs : List Char} (h : cs.head? ≠ some '\uFEFF') :
    dropMark (cs.flatMap String.utf8EncodeChar) = cs.flatMap String.utf8EncodeChar := by
  unfold dropMark
  split
  · next rest hbytes =>
    have hmark : Reader.feed ⟨.ready, []⟩ mark = ⟨.ready, ['\uFEFF']⟩ := by decide
    -- the machine has written the mark before it goes on
    have hsuffix := written_suffix_feed (Reader.feed ⟨.ready, []⟩ mark) rest
    have hwhole : mark ++ rest = cs.flatMap String.utf8EncodeChar := hbytes.symm
    rw [← Reader.feed_append, hwhole, feed_utf8, hmark, List.append_nil] at hsuffix
    obtain ⟨rest', rfl⟩ : ['\uFEFF'] <+: cs := List.reverse_suffix.mp hsuffix
    exact absurd rfl h
  · rfl

/-- The bytes of a text are those of its characters. -/
theorem toList_toUTF8 (s : String) :
    s.toUTF8.data.toList = s.toList.flatMap String.utf8EncodeChar := by
  obtain ⟨cs, rfl⟩ : ∃ cs, s = String.ofList cs := ⟨s.toList, (String.ofList_toList).symm⟩
  rw [String.toList_ofList]
  exact List.toList_data_toByteArray

/-- **A text is read back** as the body that it is, if it does not begin with a byte order mark. -/
theorem decodeBody_toUTF8 {s : String} (h : s.toList.head? ≠ some '\uFEFF') :
    decodeBody s.toUTF8 = s := by
  rw [decodeBody, toList_toUTF8, dropMark_utf8 h, decode_utf8, String.ofList_toList]

end Blocklist.Text.Utf8
