import Blocklist.Proofs.LineSplitting
import Blocklist.Proofs.Utf8RoundTrip
import Mathlib.Tactic.IntervalCases

/-!
# Malformed bytes stay inside their line

A line feed is one byte, and no other character has that byte in it. A reading that is inside a
character when the line feed comes gives that character up and reads the line feed all the same. So
bytes can be cut into lines before they are read as well as after, and what is wrong with the bytes
of a line shows in that line alone.

* `State.Sound` — what holds of the states of a reading: no byte below 0x80 goes on with a character
  that is begun, and whatever completes it, it is not below U+0080. Every byte keeps it
  (`State.Sound.step`), and so every reading does;
* `decode_append_newline` — a line feed cuts a reading in two, as from any sound state it leads to
  where a character may begin (`step_newline`);
* `newline_notMem_decode` — no other byte is read as a line feed;
* `segments` — the bytes of a body between its line feeds, without a byte order mark;
  `splitLines_decodeBody` — each of them is a line;
* `malformed_bytes_stay_in_line` — the main statement.
-/

namespace Blocklist.Text.Utf8

/-! ### The states of a reading -/

/-- **The states of a reading**: within a character, the next byte is not below 0x80, and with the
least byte that may come next, and the least ones behind it, the code point is not below 0x80. -/
def State.Sound : State → Prop
  | .ready => True
  | .inside need low _ value =>
    1 ≤ need ∧ 0x80 ≤ low.toNat ∧
      0x80 ≤ (value * 64 + (low.toNat - 0x80)) * 64 ^ (need - 1)

/-- What is true of the reading of a byte where a character may begin: it is that character, or it
opens one and leaves a sound state. -/
def Lead.Sound (b : UInt8) : Lead → Prop
  | .single c => c = Char.ofNat b.toNat
  | .opens s => s.Sound ∧ s ≠ .ready
  | .invalid => True

/-- **Whatever byte comes first**, what it opens can only become a character of several bytes. -/
theorem sound_lead (b : UInt8) : (lead b).Sound b := by
  unfold lead
  simp only
  split
  · exact rfl
  split
  · trivial
  split
  · -- two bytes: the lead has at least 2 of the bits
    exact ⟨⟨by decide, by decide, by simp; omega⟩, State.noConfusion⟩
  split
  · -- 0xE0: the bound on the second byte leaves out the overlong forms
    exact ⟨⟨by decide, by decide, by decide⟩, State.noConfusion⟩
  split
  · exact ⟨⟨by decide, by decide, by simp; omega⟩, State.noConfusion⟩
  split
  · exact ⟨⟨by decide, by decide, by simp; omega⟩, State.noConfusion⟩
  split
  · -- 0xF0, as for 0xE0
    exact ⟨⟨by decide, by decide, by decide⟩, State.noConfusion⟩
  split
  · exact ⟨⟨by decide, by decide, by simp; omega⟩, State.noConfusion⟩
  split
  · exact ⟨⟨by decide, by decide, by simp; omega⟩, State.noConfusion⟩
  · trivial

/-- So it leaves a sound state. -/
theorem sound_start (b : UInt8) : (start b).2.Sound := by
  have hsound := sound_lead b
  unfold start
  cases hlead : lead b with
  | single c => trivial
  | opens s =>
    rw [hlead] at hsound
    exact hsound.1
  | invalid => trivial

/-- **One byte** keeps soundness. -/
theorem State.Sound.step {s : State} (h : s.Sound) (b : UInt8) : (step s b).2.Sound := by
  cases s with
  | ready => exact sound_start b
  | inside need low high value =>
    obtain ⟨hneed, hlow, hleast⟩ := h
    simp only [Utf8.step]
    split_ifs with hfits hlast
    · trivial
    · -- the byte is at least the least one, and the least ones are still to come
      have hb : low.toNat ≤ b.toNat := by
        rw [Bool.and_eq_true, decide_eq_true_eq, decide_eq_true_eq] at hfits
        exact UInt8.le_iff_toNat_le.mp hfits.1
      have hpow : 64 ^ (need - 1) = 64 * 64 ^ (need - 1 - 1) := by
        rw [← Nat.pow_succ']
        congr 1
        omega
      refine ⟨by omega, by decide, ?_⟩
      calc 0x80 ≤ (value * 64 + (low.toNat - 0x80)) * 64 ^ (need - 1) := hleast
        _ ≤ (value * 64 + (b.toNat - 0x80)) * 64 ^ (need - 1) :=
          Nat.mul_le_mul_right _ (by omega)
        _ = ((value * 64 + (b.toNat - 0x80)) * 64 + ((0x80 : UInt8).toNat - 0x80))
              * 64 ^ (need - 1 - 1) := by
          rw [hpow, ← Nat.mul_assoc, show (0x80 : UInt8).toNat - 0x80 = 0 from rfl, Nat.add_zero]
    · -- a byte that does not fit begins anew
      exact sound_start b

/-- **Every reading is sound.** -/
theorem sound_feed {r : Reader} (h : r.state.Sound) (bytes : List UInt8) :
    (r.feed bytes).state.Sound := by
  induction bytes generalizing r with
  | nil => exact h
  | cons b bytes ih => exact ih (h.step b)

/-! ### A line feed cuts a reading in two -/

/-- A line feed gives up the character that is begun, if any, and is read itself. -/
theorem step_newline {s : State} (h : s.Sound) : step s 0x0A = (finish s ++ ['\n'], .ready) := by
  cases s with
  | ready => rfl
  | inside need low high value =>
    obtain ⟨-, hlow, -⟩ := h
    -- no further byte is that low, so that the character breaks off here
    have hnot : ¬ low ≤ 0x0A := by
      intro hle
      have hle' : low.toNat ≤ 10 := UInt8.le_iff_toNat_le.mp hle
      omega
    simp only [step, hnot, decide_false, Bool.false_and, Bool.false_eq_true, if_false]
    rfl

/-- What was written before stays in front of what is read. -/
theorem text_feed (s : State) (written : List Char) (bytes : List UInt8) :
    (Reader.feed ⟨s, written⟩ bytes).text
      = written.reverse ++ (Reader.feed ⟨s, []⟩ bytes).text := by
  induction bytes generalizing s written with
  | nil => rfl
  | cons b bytes ih =>
    change (Reader.feed ⟨(step s b).2, (step s b).1.reverse ++ written⟩ bytes).text
      = written.reverse ++ (Reader.feed ⟨(step s b).2, (step s b).1.reverse ++ []⟩ bytes).text
    -- what was written before is in front in both readings
    rw [ih, ih (step s b).2 ((step s b).1.reverse ++ []), List.append_nil, List.reverse_append,
      List.append_assoc]

/-- **A line feed cuts a reading in two.** -/
theorem decode_append_newline (a b : List UInt8) :
    decode (a ++ 0x0A :: b) = decode a ++ '\n' :: decode b := by
  set r := Reader.feed {} a with hr
  have hsound : r.state.Sound := sound_feed (r := {}) trivial a
  -- the line feed ends what was begun and leaves nothing open
  have hpush : r.push 0x0A = ⟨.ready, (r.text ++ ['\n']).reverse⟩ := by
    simp [Reader.push, step_newline hsound, Reader.text]
  calc decode (a ++ 0x0A :: b) = ((r.push 0x0A).feed b).text := by
        rw [decode, Reader.feed_append, ← hr]
        rfl
    _ = (r.text ++ ['\n']) ++ decode b := by
        rw [hpush, text_feed, List.reverse_reverse]
        rfl
    _ = decode a ++ '\n' :: decode b := by
        rw [List.append_assoc]
        rfl

/-! ### No other byte is a line feed -/

/-- No other number is read as a line feed. -/
theorem ofNat_ne_newline {n : Nat} (h : n ≠ 10) : Char.ofNat n ≠ '\n' := by
  intro heq
  by_cases hn : n.isValidChar
  · rw [Char.ofNat, dif_pos hn] at heq
    exact h (congrArg Char.toNat heq)
  · -- what is no code point is read as U+0000
    rw [Char.ofNat, dif_neg hn] at heq
    exact absurd heq (by decide)

/-- A first byte other than the line feed writes none. -/
theorem newline_notMem_start {b : UInt8} (h : b ≠ 0x0A) : '\n' ∉ (start b).1 := by
  have hne : b.toNat ≠ 10 := fun heq => h (UInt8.toNat_inj.mp heq)
  have hsound := sound_lead b
  unfold start
  cases hlead : lead b with
  | single c =>
    rw [hlead] at hsound
    obtain rfl : c = Char.ofNat b.toNat := hsound
    rw [List.mem_singleton]
    exact (ofNat_ne_newline hne).symm
  | opens s => exact List.not_mem_nil
  | invalid => decide

/-- **One byte** is read as a line feed only if it is one. -/
theorem newline_notMem_step {s : State} (h : s.Sound) {b : UInt8} (hb : b ≠ 0x0A) :
    '\n' ∉ (step s b).1 := by
  cases s with
  | ready => exact newline_notMem_start hb
  | inside need low high value =>
    obtain ⟨-, hlow, hleast⟩ := h
    simp only [step]
    split_ifs with hfits hlast
    · -- a character of several bytes is not below U+0080
      have hle : low.toNat ≤ b.toNat := by
        rw [Bool.and_eq_true, decide_eq_true_eq, decide_eq_true_eq] at hfits
        exact UInt8.le_iff_toNat_le.mp hfits.1
      subst hlast
      rw [Nat.sub_self, Nat.pow_zero, Nat.mul_one] at hleast
      rw [List.mem_singleton]
      exact (ofNat_ne_newline (by omega)).symm
    · exact List.not_mem_nil
    · -- what broke off is replaced, and the byte begins anew
      exact List.not_mem_cons_of_ne_of_not_mem (by decide) (newline_notMem_start hb)

/-- **No line feed is written** unless one was read. -/
theorem newline_notMem_text_feed {r : Reader} (hsound : r.state.Sound) (hwritten : '\n' ∉ r.written)
    {bytes : List UInt8} (h : 0x0A ∉ bytes) : '\n' ∉ (r.feed bytes).text := by
  induction bytes generalizing r with
  | nil =>
    -- what is open at the end is replaced
    have hfinish : '\n' ∉ finish r.state := by
      cases r.state with
      | ready => exact List.not_mem_nil
      | inside need low high value => exact (by decide : '\n' ∉ [replacement])
    intro hmem
    rcases List.mem_append.mp hmem with hmem | hmem
    · exact hwritten (List.mem_reverse.mp hmem)
    · exact hfinish hmem
  | cons b bytes ih =>
    obtain ⟨hb, hbytes⟩ := List.ne_and_not_mem_of_not_mem_cons h
    refine ih (hsound.step b) ?_ hbytes
    intro hmem
    rcases List.mem_append.mp hmem with hmem | hmem
    · exact newline_notMem_step hsound hb.symm (List.mem_reverse.mp hmem)
    · exact hwritten hmem

/-- **No other byte is read as a line feed.** -/
theorem newline_notMem_decode {bytes : List UInt8} (h : 0x0A ∉ bytes) : '\n' ∉ decode bytes :=
  newline_notMem_text_feed (r := {}) trivial List.not_mem_nil h

/-! ### Something is read of every byte -/

/-- A byte is written as something, at the latest when reading ends. -/
theorem start_append_finish_ne_nil (b : UInt8) : (start b).1 ++ finish (start b).2 ≠ [] := by
  have hsound := sound_lead b
  unfold start
  cases hlead : lead b with
  | single c => exact List.cons_ne_nil c []
  | opens s =>
    rw [hlead] at hsound
    cases s with
    | ready => exact absurd rfl hsound.2
    | inside need low high value => exact List.cons_ne_nil replacement []
  | invalid => exact List.cons_ne_nil replacement []

/-- The same of a byte in any state. -/
theorem step_append_finish_ne_nil (s : State) (b : UInt8) :
    (step s b).1 ++ finish (step s b).2 ≠ [] := by
  cases s with
  | ready => exact start_append_finish_ne_nil b
  | inside need low high value =>
    simp only [step]
    split_ifs with hfits hlast
    · exact List.cons_ne_nil _ []
    · exact List.cons_ne_nil replacement []
    · exact List.cons_ne_nil replacement _

/-- Only of no bytes nothing is read. -/
theorem decode_eq_nil_iff {bytes : List UInt8} : decode bytes = [] ↔ bytes = [] := by
  refine ⟨fun h => ?_, fun h => h ▸ rfl⟩
  -- by the last byte, which completes a character or leaves one that is given up at the end
  rcases List.eq_nil_or_concat bytes with rfl | ⟨front, b, rfl⟩
  · rfl
  · exfalso
    rw [List.concat_eq_append, decode, Reader.feed_append] at h
    set r := Reader.feed {} front
    have hlast : (r.push b).text = r.written.reverse ++ ((step r.state b).1
        ++ finish (step r.state b).2) := by
      simp [Reader.push, Reader.text, List.append_assoc]
    change (r.push b).text = [] at h
    rw [hlast] at h
    exact step_append_finish_ne_nil r.state b (List.append_eq_nil_iff.mp h).2

/-! ### Lines -/

/-- Bytes that are put together with line feeds are read one after the other. -/
theorem decode_intercalate (parts : List (List UInt8)) :
    decode ([0x0A].intercalate parts) = ['\n'].intercalate (parts.map decode) := by
  induction parts with
  | nil => rfl
  | cons part parts ih =>
    -- the last part has no line feed behind it
    cases parts with
    | nil => simp
    | cons next parts =>
      rw [List.map_cons] at ih
      rw [List.intercalate_cons_cons, List.append_assoc, List.singleton_append,
        decode_append_newline, ih, List.map_cons, List.map_cons, List.intercalate_cons_cons,
        List.append_assoc, List.singleton_append]

/-- **Bytes can be cut into lines before they are read** as well as after. -/
theorem splitOn_decode (bytes : List UInt8) :
    (decode bytes).splitOn '\n' = (bytes.splitOn 0x0A).map decode := by
  have hparts : decode bytes = ['\n'].intercalate ((bytes.splitOn 0x0A).map decode) := by
    rw [← decode_intercalate, List.intercalate_splitOn]
  rw [hparts]
  -- the parts have no line feeds, and there is at least one part
  apply List.splitOn_intercalate
  · intro line hline
    obtain ⟨part, hpart, rfl⟩ := List.mem_map.mp hline
    exact newline_notMem_decode (notMem_of_mem_splitOn hpart)
  · exact fun h => List.splitOn_ne_nil 0x0A bytes (List.map_eq_nil_iff.mp h)

/-- Without a mark in front nothing is dropped. -/
theorem dropMark_of_not_isPrefix {bytes : List UInt8} (h : ¬ mark <+: bytes) :
    dropMark bytes = bytes := by
  unfold dropMark
  split
  · next rest => exact absurd ⟨rest, rfl⟩ h
  · rfl

/-- If a mark does not reach beyond the first of two parts, it is dropped from that alone. -/
theorem dropMark_append {a b : List UInt8} (h : mark <+: a ++ b → mark <+: a) :
    dropMark (a ++ b) = dropMark a ++ b := by
  by_cases hmark : mark <+: a
  · obtain ⟨rest, rfl⟩ := hmark
    rfl
  · rw [dropMark_of_not_isPrefix hmark, dropMark_of_not_isPrefix (mt h hmark)]

/-- A line feed is not part of a byte order mark, so behind it nothing is dropped. -/
theorem dropMark_append_newline (a b : List UInt8) :
    dropMark (a ++ 0x0A :: b) = dropMark a ++ 0x0A :: b := by
  apply dropMark_append
  intro hmark
  rcases Nat.lt_or_ge a.length mark.length with hlt | hge
  · -- the line feed would stand within the mark
    have hpart : a ++ [0x0A] <+: mark := by
      refine List.prefix_of_prefix_length_le ⟨b, by simp⟩ hmark ?_
      rw [List.length_append]
      exact hlt
    exact absurd (hpart.subset (List.mem_append_right a List.mem_cons_self)) (by decide)
  · exact List.prefix_of_prefix_length_le hmark (List.prefix_append a _) hge

/-- Dropping a mark brings in no line feed. -/
theorem newline_notMem_dropMark {bytes : List UInt8} (h : 0x0A ∉ bytes) :
    0x0A ∉ dropMark bytes := by
  by_cases hmark : mark <+: bytes
  · obtain ⟨rest, rfl⟩ := hmark
    exact fun hmem => h (List.mem_append_right mark hmem)
  · rwa [dropMark_of_not_isPrefix hmark]

/-- **The bytes of a body between its line feeds.** The last of them have no line feed behind them,
and a byte order mark in front of the first is not part of it. -/
def segments (body : ByteArray) : List (List UInt8) :=
  (body.data.toList.splitOn 0x0A).modifyHead dropMark

theorem segments_ne_nil (body : ByteArray) : segments body ≠ [] := by
  unfold segments
  rw [Ne, List.modifyHead_eq_nil_iff]
  exact List.splitOn_ne_nil 0x0A _

/-- **The lines of a body** are its segments, each read by itself. -/
theorem splitLines_decodeBody (body : ByteArray) :
    splitLines (decodeBody body) = (closed (segments body)).map fun segment =>
      String.ofList (decode segment) := by
  rw [splitLines_eq, decodeBody, String.toList_ofList, splitOn_decode,
    splitOn_modifyHead dropMark_append_newline (fun _ => newline_notMem_dropMark),
    closed_map (fun _ => decode_eq_nil_iff), List.map_map]
  rfl

/-- **How many lines there are** is told by the bytes. -/
theorem length_splitLines_decodeBody (body : ByteArray) :
    (splitLines (decodeBody body)).length = body.data.toList.count 0x0A
      + if ((segments body).getLast (segments_ne_nil body)).isEmpty then 0 else 1 := by
  have hsegments : (segments body).length = body.data.toList.count 0x0A + 1 := by
    rw [segments, List.length_modifyHead, length_splitOn]
  rw [splitLines_decodeBody, List.length_map, length_closed (segments_ne_nil body), hsegments,
    Nat.add_sub_cancel]

/-- **Malformed bytes stay inside their line.** A line feed in a body is read as one, and what
stands before it and behind it is read as if the other were not there. So a body has as many lines
as it has line feeds, and one more if anything is left behind the last one, and each line is what is
read of its own bytes. -/
theorem malformed_bytes_stay_in_line :
    (∀ a b : ByteArray, decodeBody (a ++ ⟨#[0x0A]⟩ ++ b)
      = decodeBody a ++ "\n" ++ String.ofList (decode b.data.toList)) ∧
    ∀ body : ByteArray,
      (splitLines (decodeBody body)).length = body.data.toList.count 0x0A
        + (if ((segments body).getLast (segments_ne_nil body)).isEmpty then 0 else 1) ∧
      ∀ (i : Nat) (h : i < (splitLines (decodeBody body)).length),
        ∃ bytes, (body.data.toList.splitOn 0x0A)[i]? = some bytes ∧
          (splitLines (decodeBody body))[i]
            = String.ofList (decode (if i = 0 then dropMark bytes else bytes)) := by
  refine ⟨fun a b => ?_, fun body => ⟨length_splitLines_decodeBody body, fun i h => ?_⟩⟩
  · rw [decodeBody, decodeBody, ByteArray.toList_data_append, ByteArray.toList_data_append,
      List.append_assoc]
    change String.ofList (decode (dropMark (a.data.toList ++ 0x0A :: b.data.toList))) = _
    rw [dropMark_append_newline, decode_append_newline, List.append_cons, String.ofList_append,
      String.ofList_append]
  · -- a line stands where its segment does, and only the first segment can have lost a mark
    have hclosed : i < (closed (segments body)).length := by
      rwa [splitLines_decodeBody, List.length_map] at h
    have hsegment : i < (segments body).length :=
      Nat.lt_of_lt_of_le hclosed (closed_isPrefix (segments body)).length_le
    have hpart : i < (body.data.toList.splitOn 0x0A).length := by
      rwa [segments, List.length_modifyHead] at hsegment
    refine ⟨_, List.getElem?_eq_getElem hpart, ?_⟩
    simp only [splitLines_decodeBody, List.getElem_map]
    rw [getElem_closed hclosed hsegment]
    simp only [segments, List.getElem_modifyHead]
    by_cases hi : i = 0
    · subst hi
      rfl
    · rw [dif_neg hi, if_neg hi]

/-- A byte order mark, and in each of three lines a character that breaks off. -/
def brokenBody : ByteArray :=
  ⟨#[0xEF, 0xBB, 0xBF, 0xC3, 0x0A, 0xE2, 0x82, 0x0A, 0xF0, 0x9F, 0x98]⟩

/-- None of the characters that break off takes a line feed with it. -/
theorem malformed_bytes_stay_in_line_broken :
    splitLines (decodeBody brokenBody) = ["\uFFFD", "\uFFFD", "\uFFFD"] := by
  obtain ⟨-, hbody⟩ := malformed_bytes_stay_in_line
  obtain ⟨hlength, hline⟩ := hbody brokenBody
  have hthree : (splitLines (decodeBody brokenBody)).length = 3 := hlength.trans (by decide)
  refine List.ext_getElem hthree fun i hi _ => ?_
  obtain ⟨bytes, hbytes, heq⟩ := hline i hi
  rw [heq]
  rw [hthree] at hi
  interval_cases i
  all_goals
    obtain rfl := Option.some.inj hbytes
    rfl

end Blocklist.Text.Utf8
