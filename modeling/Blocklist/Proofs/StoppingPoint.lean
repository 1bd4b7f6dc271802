import Blocklist.Proofs.Parsing
import Mathlib.Order.Bounds.Basic

/-!
# Where reading stops

A run ends with the line that fills the cap. It has asked for as many lines as it takes to see so
many domains, and for none behind them. So a supply that breaks off there is as good as a whole one,
and one that breaks off before is of no use.

* `FillsCap.le_distinctDomains_take_iff` — a number of lines fills the cap exactly if the line that
  fills it is among them; every statement about places comes from this one;
* `Supply.take_failingAt` — before it fails, a supply is like one that does not;
* `ReadsUpTo` — how many lines are read under a cap;
* `parseSupply_reads_up_to_cap` — the main statement, about whole supplies and broken ones.
-/

namespace Blocklist

/-! ### Lines up to a place -/

/-- The first lines block no more domains than all of them. -/
theorem distinctDomains_take_le (lines : List String) (n : Nat) :
    distinctDomains (lines.take n) ≤ distinctDomains lines := by
  have hle := distinctDomains_le_append (lines.take n) (lines.drop n)
  rwa [List.take_append_drop] at hle

/-- **The cap is full with the line that fills it**, and not before. -/
theorem FillsCap.le_distinctDomains_take_iff {cap : Nat} {front : List String} {line : String}
    (h : FillsCap cap front line) (back : List String) (n : Nat) :
    cap ≤ distinctDomains ((front ++ [line] ++ back).take n) ↔ front.length < n := by
  constructor
  · intro hcap
    by_contra hn
    -- the first lines are some of those in front, which leave room
    have htake : (front ++ [line] ++ back).take n = front.take n := by
      rw [List.append_assoc, List.take_append_of_le_length (Nat.le_of_not_lt hn)]
    rw [htake] at hcap
    have hle := distinctDomains_take_le front n
    have hroom := h.room
    omega
  · intro hn
    -- the first lines are all of those in front, the one that fills the cap, and perhaps more
    have hlength : (front ++ [line]).length ≤ n := by
      rw [List.length_append, List.length_singleton]
      exact hn
    rw [List.take_append, List.take_of_length_le hlength]
    exact h.full.trans (distinctDomains_le_append (front ++ [line]) _)

/-! ### Supplies that fail -/

namespace Supply

variable {lines : List String} {failure : ReadFailure} {n place : Nat}

/-- A failing supply is the lines, but for one place. -/
theorem getElem?_failingAt (place : Nat) (failure : ReadFailure) (lines : List String) (n : Nat) :
    (failingAt place failure lines)[n]?
      = lines[n]?.map fun line => if n = place then .error failure else .ok line := by
  rw [failingAt, List.getElem?_mapIdx]

/-- **Before it fails**, a supply is like one that does not. -/
theorem take_failingAt (h : n ≤ place) :
    (failingAt place failure lines).take n = ofLines (lines.take n) := by
  ext1 i
  rw [List.getElem?_take, ofLines, List.getElem?_map, List.getElem?_take]
  -- the place that fails is not among the first ones
  by_cases hi : i < n
  · have hne : i ≠ place := by omega
    simp only [if_pos hi, getElem?_failingAt, if_neg hne]
  · rw [if_neg hi, if_neg hi, Option.map_none]

/-- It is lines up to that place, and whatever comes then. -/
theorem failingAt_eq_append (h : n ≤ place) :
    failingAt place failure lines
      = ofLines (lines.take n) ++ (failingAt place failure lines).drop n := by
  rw [← take_failingAt h, List.take_append_drop]

/-- At the place where it fails stands the failure. -/
theorem drop_failingAt (failure : ReadFailure) (h : place < lines.length) :
    ∃ rest, (failingAt place failure lines).drop place = .error failure :: rest := by
  have hlength : place < (failingAt place failure lines).length := by
    rwa [failingAt, List.length_mapIdx]
  -- there is a line at the place, and in its stead the failure
  have hplace : (failingAt place failure lines)[place] = .error failure := by
    have hsome := getElem?_failingAt place failure lines place
    rw [List.getElem?_eq_getElem hlength, List.getElem?_eq_getElem h, Option.map_some,
      if_pos rfl] at hsome
    exact Option.some.inj hsome
  exact ⟨_, by rw [List.drop_eq_getElem_cons hlength, hplace]⟩

end Supply

/-! ### Runs to their end -/

section Runs

variable {cap : Int} {front lines : List String} {line : String} {place : Nat}

theorem parseSupply_of_one_le (hcap : 1 ≤ cap) (supply : Supply) :
    parseSupply supply cap = (Parse.State.run cap.toNat {} supply).mapError .broken := by
  rw [parseSupply, if_neg (by omega)]

/-- **All lines are read** as long as there is room. -/
theorem parseSupply_of_lt (hcap : 1 ≤ cap) (h : distinctDomains lines < cap.toNat) :
    parseSupply (.ofLines lines) cap = .ok ((Parse.State.after lines).result false, []) := by
  have hrun := Parse.State.run_of_lt h []
  rw [List.append_nil] at hrun
  rw [parseSupply_of_one_le hcap, hrun]
  rfl

/-- **A failure where there is room** is what parsing comes to. -/
theorem parseSupply_failingAt_of_lt (hcap : 1 ≤ cap) (hplace : place < lines.length)
    (h : distinctDomains (lines.take place) < cap.toNat) (failure : ReadFailure) :
    parseSupply (.failingAt place failure lines) cap = .error (.broken failure) := by
  obtain ⟨rest, hrest⟩ := Supply.drop_failingAt failure hplace
  rw [parseSupply_of_one_le hcap, Supply.failingAt_eq_append (Nat.le_refl place), hrest,
    Parse.State.run_of_lt h]
  rfl

/-- **The line that fills the cap** is the last one that is read. -/
theorem parseSupply_of_fillsCap (hcap : 1 ≤ cap) (h : FillsCap cap.toNat front line)
    (back : List String) :
    parseSupply (.ofLines (front ++ [line] ++ back)) cap
      = .ok ((Parse.State.after (front ++ [line])).result true, .ofLines back) := by
  have hsplit : Supply.ofLines (front ++ [line] ++ back)
      = .ofLines (front ++ [line]) ++ .ofLines back := List.map_append
  rw [parseSupply_of_one_le hcap, hsplit, Parse.State.run_of_fillsCap h]
  rfl

/-- **A failure behind the line that fills the cap** does no harm. -/
theorem parseSupply_failingAt_of_fillsCap (hcap : 1 ≤ cap) (h : FillsCap cap.toNat front line)
    (hplace : front.length < place) (back : List String) (failure : ReadFailure) :
    parseSupply (.failingAt place failure (front ++ [line] ++ back)) cap
      = .ok ((Parse.State.after (front ++ [line])).result true,
          (Supply.failingAt place failure (front ++ [line] ++ back)).drop (front.length + 1)) := by
  have htake : (front ++ [line] ++ back).take (front.length + 1) = front ++ [line] :=
    List.take_left' (by rw [List.length_append, List.length_singleton])
  conv_lhs => rw [Supply.failingAt_eq_append hplace, htake]
  rw [parseSupply_of_one_le hcap, Parse.State.run_of_fillsCap h]
  rfl

end Runs

/-! ### The stopping point -/

/-- **How many lines are read** under a cap: as many as it takes to fill the cap, or else all. -/
structure ReadsUpTo (cap : Int) (lines : List String) (n : Nat) : Prop where
  least : (∃ j, cap ≤ distinctDomains (lines.take j)) →
    IsLeast {j : Nat | cap ≤ distinctDomains (lines.take j)} n
  all : (∀ j, (distinctDomains (lines.take j) : Int) < cap) → n = lines.length

/-- A list that fills the cap is read up to the line that does. -/
theorem FillsCap.readsUpTo {cap : Int} {front : List String} {line : String}
    (h : FillsCap cap.toNat front line) (back : List String) :
    ReadsUpTo cap (front ++ [line] ++ back) (front.length + 1) := by
  have hfull : ∀ j : Nat, cap ≤ distinctDomains ((front ++ [line] ++ back).take j)
      ↔ front.length < j := by
    intro j
    rw [← Int.toNat_le, h.le_distinctDomains_take_iff]
  -- at that line the cap is reached, before it it is not, and not reaching it is out of the
  -- question
  refine ⟨fun _ => ⟨?_, ?_⟩, ?_⟩
  · exact (hfull _).mpr (Nat.lt_succ_self _)
  · intro j hj
    exact (hfull j).mp hj
  · intro hroom
    have hlt := hroom (front.length + 1)
    have hle := (hfull (front.length + 1)).mpr (Nat.lt_succ_self _)
    omega

/-- A list that does not is read to its end. -/
theorem readsUpTo_length {cap : Int} {lines : List String}
    (h : distinctDomains lines < cap.toNat) : ReadsUpTo cap lines lines.length := by
  refine ⟨?_, fun _ => rfl⟩
  rintro ⟨j, hj⟩
  -- no part of the lines blocks more domains than all of them
  have hle := distinctDomains_take_le lines j
  omega

/-- **Reading stops with the line that fills the cap.** Under a positive cap some lines give the
blocks for the first of their distinct domains, as many as the cap allows for. As few of the lines
are read as it takes to fill the cap, or else all, and the others are left. If the supply fails in
place of some line, then parsing fails with it exactly if the lines in front leave room under the
cap. Otherwise everything comes out as before. -/
theorem parseSupply_reads_up_to_cap (lines : List String) {cap : Int} (hcap : 1 ≤ cap) :
    ∃ parsed n, parseSupply (.ofLines lines) cap = .ok (parsed, .ofLines (lines.drop n)) ∧
      parsed.rules = blocksOf ((blockedDomains lines).eraseDups.take cap.toNat) ∧
      parsed.counts.linesRead = n ∧ ReadsUpTo cap lines n ∧
      ∀ place < lines.length, ∀ failure,
        (parseSupply (.failingAt place failure lines) cap = .error (.broken failure) ↔
          (distinctDomains (lines.take place) : Int) < cap) ∧
        (cap ≤ distinctDomains (lines.take place) →
          parseSupply (.failingAt place failure lines) cap
            = .ok (parsed, (Supply.failingAt place failure lines).drop n)) := by
  have hrules : ∀ parsed rest, parseSupply (.ofLines lines) cap = .ok (parsed, rest) →
      parsed.rules = blocksOf ((blockedDomains lines).eraseDups.take cap.toNat) := by
    intro parsed rest h
    have hparse : parse lines cap = .ok parsed := by
      rw [parse, h]
      rfl
    rw [(parse_eq_ok hparse).2, firsts_id_eq_eraseDups]
  have hbroken : ∀ place < lines.length, ∀ failure,
      (distinctDomains (lines.take place) : Int) < cap →
      parseSupply (.failingAt place failure lines) cap = .error (.broken failure) := by
    intro place hplace failure hroom
    exact parseSupply_failingAt_of_lt hcap hplace (by omega) failure
  by_cases hreach : cap.toNat ≤ distinctDomains lines
  · obtain ⟨front, line, back, rfl, hfills⟩ := exists_fillsCap (by omega) hreach
    have hlength : (front ++ [line]).length = front.length + 1 := List.length_append
    have hparsed := parseSupply_of_fillsCap hcap hfills back
    refine ⟨_, front.length + 1, by rw [hparsed, List.drop_left' hlength], hrules _ _ hparsed,
      (Parse.State.linesRead_after _).trans hlength, hfills.readsUpTo back, ?_⟩
    intro place hplace failure
    by_cases hroom : (distinctDomains ((front ++ [line] ++ back).take place) : Int) < cap
    · exact ⟨iff_of_true (hbroken place hplace failure hroom) hroom,
        fun hfull => absurd hroom (Int.not_lt.mpr hfull)⟩
    · -- the failure stands behind the line that fills the cap
      have hbehind : front.length < place :=
        (hfills.le_distinctDomains_take_iff back place).mp (by omega)
      have hintact := parseSupply_failingAt_of_fillsCap hcap hfills hbehind back failure
      refine ⟨iff_of_false (fun herror => ?_) hroom, fun _ => hintact⟩
      rw [hintact] at herror
      cases herror
  · have hroom : distinctDomains lines < cap.toNat := Nat.not_le.mp hreach
    have hparsed := parseSupply_of_lt hcap hroom
    refine ⟨_, lines.length, by rw [hparsed, List.drop_length]; rfl, hrules _ _ hparsed,
      Parse.State.linesRead_after lines, readsUpTo_length hroom, ?_⟩
    intro place hplace failure
    -- there is room left after all lines, and so after some of them
    have hbelow : (distinctDomains (lines.take place) : Int) < cap := by
      have hle := distinctDomains_take_le lines place
      omega
    exact ⟨iff_of_true (hbroken place hplace failure hbelow) hbelow,
      fun hfull => absurd hbelow (Int.not_lt.mpr hfull)⟩

/-- A comment, two domains of which the first stands twice, and a third one. -/
def repeatedLines : List String :=
  ["! list", "||a.test^", "||a.test^$image", "||b.test^", "||c.test^"]

/-- Under a cap of two, four of these lines are read: the fifth may fail, and the fourth may not. -/
theorem parseSupply_reads_up_to_cap_repeated :
    (1 : Int) ≤ 2 ∧ ∃ parsed,
      parseSupply (.ofLines repeatedLines) 2 = .ok (parsed, [.ok "||c.test^"]) ∧
      parsed.rules = blocksOf ["a.test", "b.test"] ∧ parsed.counts.linesRead = 4 ∧
      (∀ failure, parseSupply (.failingAt 4 failure repeatedLines) 2
        = .ok (parsed, [.error failure])) ∧
      ∀ failure, parseSupply (.failingAt 3 failure repeatedLines) 2 = .error (.broken failure) := by
  obtain ⟨parsed, n, hparsed, hrules, hread, hstop, hfailing⟩ :=
    parseSupply_reads_up_to_cap repeatedLines (by decide : (1 : Int) ≤ 2)
  have hdomains : (blockedDomains repeatedLines).eraseDups = ["a.test", "b.test", "c.test"] := by
    decide
  have hthree : distinctDomains (repeatedLines.take 3) = 1 := by decide
  have hfour : distinctDomains (repeatedLines.take 4) = 2 := by decide
  have hn : n = 4 := by
    have hleast := hstop.least ⟨4, by rw [hfour]; decide⟩
    have hle : n ≤ 4 := hleast.2 (by rw [Set.mem_ofPred_eq, hfour]; decide)
    -- with three lines the cap is not full, and so not with fewer
    by_contra hne
    have htake : repeatedLines.take n = (repeatedLines.take 3).take n := by
      rw [List.take_take, Nat.min_eq_left (by omega)]
    have hfull : (2 : Int) ≤ distinctDomains (repeatedLines.take n) := hleast.1
    have hone := distinctDomains_take_le (repeatedLines.take 3) n
    rw [← htake, hthree] at hone
    omega
  subst hn
  refine ⟨by decide, parsed, hparsed, ?_, hread, fun failure => ?_, fun failure => ?_⟩
  · rw [hrules, hdomains]
    rfl
  · exact (hfailing 4 (by decide) failure).2 (by rw [hfour]; decide)
  · exact (hfailing 3 (by decide) failure).1.mpr (by rw [hthree]; decide)

end Blocklist
