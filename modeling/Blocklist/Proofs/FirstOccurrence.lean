import Mathlib.Data.Finset.Card
import Mathlib.Data.List.Induction
import Mathlib.Data.List.Nodup
import Mathlib.Data.List.Perm.Subperm

/-!
# First occurrences

What a pass over a list keeps that takes an element if no earlier one has its key. Reading a list of
lines and merging sets of rules are both such passes, with a cap on top; this file is about the pass
alone, for any elements and any keys.

* `foldl_induction` — the induction behind every invariant of a pass;
* `firstsAfter key kept xs` — `kept`, followed by the elements of `xs` whose keys are new;
  `firsts key xs` — the same from nothing. It is a fold, so `firstsAfter_append` is `foldl_append`;
* `nodup_map_key_firsts`, `mem_map_key_firsts` — the keys that are kept are distinct, and they are
  the keys that occur; `length_firsts` — so as many elements are kept as there are keys;
* `mem_firsts_iff` — an element is kept where no earlier one has its key; `firsts_eq_eraseDupsBy` —
  what is kept, without a pass;
* `firstsAfter_firsts` — what a pass over one part has dropped would have been dropped anyway;
* `take_firsts_flatten_cuts` — the law behind caps in layers. If every part of a list is passed over
  on its own and cut at an `n` of its own, then the pass over what is left agrees with the pass over
  the whole up to any `m` that is no more than these. A part that was cut has `n` distinct keys
  left, so at the end of that part the pass has kept `n` elements already, and nothing behind them
  is among the first `m`. `take_firsts_flatten` is the case of one `n` for all.
-/

namespace Blocklist

variable {α β γ : Type} [DecidableEq β]

/-- **What a whole pass keeps**: whatever holds at the start and is kept by every element. -/
theorem foldl_induction {σ : Type} {step : σ → α → σ} {start : σ} {P : σ → List α → Prop}
    (initial : P start [])
    (next : ∀ (s : σ) (xs : List α) (a : α), P s xs → P (step s a) (xs ++ [a])) (xs : List α) :
    P (xs.foldl step start) xs := by
  induction xs using List.reverseRecOn with
  | nil => exact initial
  | append_singleton xs a ih =>
    rw [List.foldl_concat]
    exact next (xs.foldl step start) xs a ih

/-- What is kept after one more element, if some were kept before it. -/
def addFirst (key : α → β) (kept : List α) (a : α) : List α :=
  if key a ∈ kept.map key then kept else kept ++ [a]

/-- What is kept after a pass over a list, if something was kept before it. -/
def firstsAfter (key : α → β) (kept xs : List α) : List α := xs.foldl (addFirst key) kept

/-- **The first occurrences** in a list: of the elements with one key, the first. -/
def firsts (key : α → β) (xs : List α) : List α := firstsAfter key [] xs

section Pass

variable (key : α → β)

theorem addFirst_of_mem {kept : List α} {a : α} (h : key a ∈ kept.map key) :
    addFirst key kept a = kept := if_pos h

theorem addFirst_of_notMem {kept : List α} {a : α} (h : key a ∉ kept.map key) :
    addFirst key kept a = kept ++ [a] := if_neg h

@[simp] theorem firstsAfter_nil (kept : List α) : firstsAfter key kept [] = kept := rfl

@[simp] theorem firstsAfter_cons (kept : List α) (a : α) (xs : List α) :
    firstsAfter key kept (a :: xs) = firstsAfter key (addFirst key kept a) xs := rfl

/-- A pass over two lists goes on from what the pass over the first has kept. -/
theorem firstsAfter_append (kept xs ys : List α) :
    firstsAfter key kept (xs ++ ys) = firstsAfter key (firstsAfter key kept xs) ys :=
  List.foldl_append

theorem firsts_append (xs ys : List α) :
    firsts key (xs ++ ys) = firstsAfter key (firsts key xs) ys := firstsAfter_append key [] xs ys

@[simp] theorem firsts_nil : firsts key ([] : List α) = [] := rfl

theorem firsts_concat (xs : List α) (a : α) :
    firsts key (xs ++ [a]) = addFirst key (firsts key xs) a := by
  rw [firsts_append, firstsAfter_cons, firstsAfter_nil]

/-! ### What is kept -/

/-- An element is kept behind the others, or not at all. -/
theorem prefix_addFirst (kept : List α) (a : α) : kept <+: addFirst key kept a := by
  unfold addFirst
  split
  · exact List.prefix_rfl
  · exact List.prefix_append kept [a]

/-- What was kept stays kept, in its place. -/
theorem prefix_firstsAfter (kept xs : List α) : kept <+: firstsAfter key kept xs := by
  induction xs generalizing kept with
  | nil => exact List.prefix_rfl
  | cons a xs ih => exact (prefix_addFirst key kept a).trans (ih (addFirst key kept a))

theorem mem_map_key_addFirst {kept : List α} {a : α} {k : β} :
    k ∈ (addFirst key kept a).map key ↔ k ∈ kept.map key ∨ k = key a := by
  by_cases h : key a ∈ kept.map key
  · rw [addFirst_of_mem key h]
    -- the key of an element that is not kept is there already
    refine ⟨Or.inl, ?_⟩
    rintro (hk | rfl)
    · exact hk
    · exact h
  · rw [addFirst_of_notMem key h, List.map_append, List.mem_append, List.map_singleton,
      List.mem_singleton]

/-- **The keys that are kept** are those that were and those that occur. -/
theorem mem_map_key_firstsAfter {kept xs : List α} {k : β} :
    k ∈ (firstsAfter key kept xs).map key ↔ k ∈ kept.map key ∨ k ∈ xs.map key := by
  induction xs generalizing kept with
  | nil => simp
  | cons a xs ih =>
    rw [firstsAfter_cons, ih, mem_map_key_addFirst, List.map_cons, List.mem_cons, or_assoc]

theorem mem_map_key_firsts {xs : List α} {k : β} :
    k ∈ (firsts key xs).map key ↔ k ∈ xs.map key := by
  rw [firsts, mem_map_key_firstsAfter, List.map_nil]
  simp

/-- **No key is kept twice**, if none was before. -/
theorem nodup_map_key_firstsAfter {kept xs : List α} (h : (kept.map key).Nodup) :
    ((firstsAfter key kept xs).map key).Nodup := by
  induction xs generalizing kept with
  | nil => exact h
  | cons a xs ih =>
    rw [firstsAfter_cons]
    refine ih ?_
    -- an element joins the kept ones only if its key is not among theirs
    by_cases ha : key a ∈ kept.map key
    · rwa [addFirst_of_mem key ha]
    · rw [addFirst_of_notMem key ha, List.map_append]
      exact h.append (List.nodup_singleton (key a)) (List.disjoint_singleton.mpr ha)

theorem nodup_map_key_firsts (xs : List α) : ((firsts key xs).map key).Nodup :=
  nodup_map_key_firstsAfter key List.nodup_nil

/-- The last element is kept if its key is new, and makes no difference to the others. -/
theorem mem_firsts_concat {xs : List α} {a b : α} :
    a ∈ firsts key (xs ++ [b]) ↔ a ∈ firsts key xs ∨ a = b ∧ key b ∉ xs.map key := by
  rw [firsts_concat]
  by_cases hb : key b ∈ (firsts key xs).map key
  · have hxs : key b ∈ xs.map key := (mem_map_key_firsts key).mp hb
    -- its key occurs before it, so that the last element is no first occurrence
    rw [addFirst_of_mem key hb]
    exact ⟨Or.inl, fun h => h.resolve_right fun hnew => hnew.2 hxs⟩
  · have hxs : key b ∉ xs.map key := fun hmem => hb ((mem_map_key_firsts key).mpr hmem)
    rw [addFirst_of_notMem key hb, List.mem_append, List.mem_singleton]
    exact or_congr_right (and_iff_left hxs).symm

/-- **The earliest wins**: an element is kept where no element before it has its key. -/
theorem mem_firsts_iff {xs : List α} {a : α} :
    a ∈ firsts key xs ↔ ∃ before after, xs = before ++ a :: after ∧ key a ∉ before.map key := by
  -- on the last element, as the others are judged without it
  induction xs using List.reverseRecOn with
  | nil => simp
  | append_singleton xs b ih =>
    rw [mem_firsts_concat, ih]
    constructor
    · rintro (⟨before, after, rfl, hnew⟩ | ⟨rfl, hnew⟩)
      · exact ⟨before, after ++ [b], List.append_assoc _ _ _, hnew⟩
      · exact ⟨xs, [], rfl, hnew⟩
    · rintro ⟨before, after, hsplit, hnew⟩
      -- the element is the last one, or it stands before the last one
      obtain rfl | ⟨after, last, rfl⟩ := after.eq_nil_or_concat
      · obtain ⟨rfl, hlast⟩ := List.append_inj' hsplit rfl
        obtain rfl := List.singleton_injective hlast
        exact Or.inr ⟨rfl, hnew⟩
      · rw [List.concat_eq_append, ← List.cons_append, ← List.append_assoc] at hsplit
        obtain ⟨rfl, -⟩ := List.append_inj' hsplit rfl
        exact Or.inl ⟨before, after, rfl, hnew⟩

/-- Nothing is kept but what occurs. -/
theorem mem_of_mem_firsts {xs : List α} {a : α} (h : a ∈ firsts key xs) : a ∈ xs := by
  obtain ⟨before, after, rfl, -⟩ := (mem_firsts_iff key).mp h
  exact List.mem_append_right before List.mem_cons_self

/-- Where elements are their own keys, those that occur are kept. -/
theorem mem_firsts_id {xs : List β} {a : β} : a ∈ firsts id xs ↔ a ∈ xs := by
  have hmem : a ∈ (firsts id xs).map id ↔ a ∈ xs.map id := mem_map_key_firsts id
  rwa [List.map_id, List.map_id] at hmem

theorem nodup_firsts_id (xs : List β) : (firsts id xs).Nodup := by
  have hnodup := nodup_map_key_firsts id xs
  rwa [List.map_id] at hnodup

/-- Of distinct elements all are kept. -/
theorem firsts_id_of_nodup {xs : List β} (h : xs.Nodup) : firsts id xs = xs := by
  induction xs using List.reverseRecOn with
  | nil => rfl
  | append_singleton xs a ih =>
    obtain ⟨hxs, -, hdisjoint⟩ := List.nodup_append'.mp h
    -- the last element is none of those before it
    have hnew : a ∉ xs := fun hmem => hdisjoint hmem List.mem_cons_self
    rw [firsts_concat, ih hxs, addFirst_of_notMem id (by simpa using hnew)]

/-- As many elements are kept as there are keys. -/
theorem length_firsts (xs : List α) : (firsts key xs).length = (xs.map key).toFinset.card := by
  have hkeys : ((firsts key xs).map key).toFinset = (xs.map key).toFinset := by
    ext k
    rw [List.mem_toFinset, List.mem_toFinset, mem_map_key_firsts]
  rw [← List.length_map (f := key), ← hkeys,
    List.toFinset_card_of_nodup (nodup_map_key_firsts key xs)]

/-! ### Without a pass -/

/-- What a pass adds to what was kept before it: the first occurrences among the elements with new
keys. -/
theorem firstsAfter_eq_append (kept xs : List α) :
    firstsAfter key kept xs = kept ++ firsts key (xs.filter fun a => key a ∉ kept.map key) := by
  induction xs using List.reverseRecOn with
  | nil => exact (List.append_nil kept).symm
  | append_singleton xs a ih =>
    rw [firstsAfter_append, firstsAfter_cons, firstsAfter_nil, ih, List.filter_append,
      List.filter_singleton]
    by_cases ha : key a ∈ kept.map key
    · -- a key that was kept before is not new, and the pass drops it too
      have hkept : key a ∈
          (kept ++ firsts key (xs.filter fun a => key a ∉ kept.map key)).map key := by
        rw [List.map_append]
        exact List.mem_append_left _ ha
      rw [addFirst_of_mem key hkept, decide_eq_false (not_not.mpr ha), cond_false,
        List.append_nil]
    · -- a key that is new to what was kept is judged by the new ones alone
      rw [decide_eq_true ha, cond_true, firsts_concat]
      unfold addFirst
      simp only [List.map_append, List.mem_append, ha, false_or]
      split
      · rfl
      · exact List.append_assoc _ _ _

/-- The first element is kept, and of the others those with other keys are passed over. -/
theorem firsts_cons (a : α) (xs : List α) :
    firsts key (a :: xs) = a :: firsts key (xs.filter fun b => key b ≠ key a) := by
  have hfirst : addFirst key [] a = [a] := addFirst_of_notMem key List.not_mem_nil
  rw [firsts, firstsAfter_cons, hfirst, firstsAfter_eq_append, List.map_singleton]
  simp only [List.mem_singleton]
  rfl

/-- **First occurrences without a pass**: what is left when, of all elements with one key, the first
is kept. -/
theorem firsts_eq_eraseDupsBy (xs : List α) :
    firsts key xs = xs.eraseDupsBy fun b a => key b == key a := by
  -- on the length, as the elements behind the first lose those with its key
  induction h : xs.length using Nat.strong_induction_on generalizing xs with
  | h n ih =>
    cases xs with
    | nil => rfl
    | cons a xs =>
      have hfilter : (xs.filter fun b => (key b == key a) = false)
          = xs.filter fun b => key b ≠ key a := by
        simp only [beq_eq_false_iff_ne]
      have hlt : (xs.filter fun b => key b ≠ key a).length < n := by
        rw [← h, List.length_cons]
        exact Nat.lt_succ_of_le (List.length_filter_le _ _)
      rw [firsts_cons, List.eraseDupsBy_cons, hfilter, ih _ hlt _ rfl]

theorem firsts_id_eq_eraseDups (xs : List β) : firsts id xs = xs.eraseDups :=
  firsts_eq_eraseDupsBy id xs

/-! ### Other keys and other elements -/

/-- Elements may be replaced before a pass or after it. -/
theorem firsts_map (f : γ → α) (xs : List γ) :
    firsts key (xs.map f) = (firsts (key ∘ f) xs).map f := by
  induction xs using List.reverseRecOn with
  | nil => rfl
  | append_singleton xs c ih =>
    rw [List.map_append, List.map_singleton, firsts_concat, firsts_concat, ih]
    -- both passes take the last element, or neither does
    by_cases hc : key (f c) ∈ ((firsts (key ∘ f) xs).map f).map key
    · have hc' : (key ∘ f) c ∈ (firsts (key ∘ f) xs).map (key ∘ f) := by
        rwa [← List.map_map]
      rw [addFirst_of_mem key hc, addFirst_of_mem _ hc']
    · have hc' : (key ∘ f) c ∉ (firsts (key ∘ f) xs).map (key ∘ f) := by
        rwa [← List.map_map]
      rw [addFirst_of_notMem key hc, addFirst_of_notMem _ hc', List.map_append,
        List.map_singleton]

/-- Keys may be renamed, as long as distinct ones stay distinct. -/
theorem firsts_comp_of_injective [DecidableEq γ] {g : β → γ} (hg : Function.Injective g)
    (xs : List α) : firsts (g ∘ key) xs = firsts key xs := by
  induction xs using List.reverseRecOn with
  | nil => rfl
  | append_singleton xs a ih =>
    rw [firsts_concat, firsts_concat, ih]
    unfold addFirst
    -- a renamed key is among the renamed ones exactly if it was among them
    simp only [← List.map_map, Function.comp_apply, List.mem_map_of_injective hg]

/-- Whether elements with unwanted keys are dropped before a pass or after it is all the same. -/
theorem firsts_filter (wanted : β → Bool) (xs : List α) :
    firsts key (xs.filter fun a => wanted (key a))
      = (firsts key xs).filter fun a => wanted (key a) := by
  induction xs using List.reverseRecOn with
  | nil => rfl
  | append_singleton xs a ih =>
    rw [List.filter_append, List.filter_singleton, firsts_concat]
    cases ha : wanted (key a) with
    | false =>
      -- if the pass takes the element, it is dropped afterwards
      rw [cond_false, List.append_nil, ih]
      unfold addFirst
      split
      · rfl
      · simp [ha]
    | true =>
      -- a wanted key is new to the wanted elements exactly if it is new to all
      have hiff : key a ∈ ((firsts key xs).filter fun a => wanted (key a)).map key
          ↔ key a ∈ (firsts key xs).map key := by
        simp only [List.mem_map, List.mem_filter]
        constructor
        · rintro ⟨b, ⟨hb, -⟩, hkey⟩
          exact ⟨b, hb, hkey⟩
        · rintro ⟨b, hb, hkey⟩
          exact ⟨b, ⟨hb, by rw [hkey, ha]⟩, hkey⟩
      rw [cond_true, firsts_concat, ih]
      unfold addFirst
      simp only [hiff]
      split
      · rfl
      · simp [ha]

/-! ### Caps in layers -/

/-- A pass over a list without its repetitions. -/
theorem firstsAfter_firsts (kept xs : List α) :
    firstsAfter key kept (firsts key xs) = firstsAfter key kept xs := by
  induction xs using List.reverseRecOn with
  | nil => rfl
  | append_singleton xs a ih =>
    rw [firsts_concat, firstsAfter_append, firstsAfter_cons, firstsAfter_nil]
    by_cases ha : key a ∈ (firsts key xs).map key
    · -- a repetition within `xs` is one of what has been kept, too
      have hkept : key a ∈ (firstsAfter key kept xs).map key :=
        (mem_map_key_firstsAfter key).mpr (Or.inr ((mem_map_key_firsts key).mp ha))
      rw [addFirst_of_mem key ha, addFirst_of_mem key hkept, ih]
    · -- a first occurrence within `xs` comes to both passes
      rw [addFirst_of_notMem key ha, firstsAfter_append, ih, firstsAfter_cons, firstsAfter_nil]

/-- Distinct keys that occur in a list make its pass at least as long. -/
theorem length_le_length_firsts {ds xs : List α} (hd : (ds.map key).Nodup)
    (hsub : ds.map key ⊆ xs.map key) : ds.length ≤ (firsts key xs).length := by
  have hsub' : ds.map key ⊆ (firsts key xs).map key :=
    fun k hk => (mem_map_key_firsts key).mpr (hsub hk)
  -- distinct keys that are all kept are no more than are kept
  have hle := (hd.subperm hsub').length_le
  rwa [List.length_map, List.length_map] at hle

/-- Up to a cap nothing changes behind a part that has reached the cap. -/
theorem take_firsts_append {m : Nat} {xs : List α} (h : m ≤ (firsts key xs).length)
    (ys : List α) : (firsts key (xs ++ ys)).take m = (firsts key xs).take m := by
  obtain ⟨more, hmore⟩ := prefix_firstsAfter key (firsts key xs) ys
  -- what comes later is kept behind what there is
  rw [firsts_append, ← hmore, List.take_append_of_le_length h]

/-- **A cap on one part.** Cutting a part of a list at `n` leaves the first `m ≤ n` first
occurrences of the whole as they were, whatever stands before it and behind it. -/
theorem take_firsts_cut {m n : Nat} (hmn : m ≤ n) (front part back : List α) :
    (firsts key (front ++ (firsts key part).take n ++ back)).take m
      = (firsts key (front ++ part ++ back)).take m := by
  have hwhole : firsts key (front ++ part ++ back)
      = firsts key (front ++ firsts key part ++ back) := by
    rw [firsts_append, firsts_append, firsts_append, firsts_append, firstsAfter_firsts]
  -- the part may be passed over on its own first
  rw [hwhole]
  by_cases hlen : (firsts key part).length ≤ n
  · -- nothing was cut
    rw [List.take_of_length_le hlen]
  · -- what is left of the part holds `n` distinct keys, so the cap is reached within it
    set cut := (firsts key part).take n with hcut
    have hcutlen : cut.length = n := by
      rw [hcut, List.length_take]
      omega
    have hnodup : (cut.map key).Nodup := by
      rw [hcut, List.map_take]
      exact (nodup_map_key_firsts key part).sublist (List.take_sublist n _)
    have hreached : m ≤ (firsts key (front ++ cut)).length := by
      have hsub : cut.map key ⊆ (front ++ cut).map key := by
        rw [List.map_append]
        exact List.subset_append_right _ _
      have hle := length_le_length_firsts key hnodup hsub
      omega
    have hsplit : front ++ firsts key part ++ back
        = front ++ cut ++ ((firsts key part).drop n ++ back) := by
      rw [List.append_assoc front cut, ← List.append_assoc cut, hcut, List.take_append_drop,
        List.append_assoc]
    rw [hsplit, take_firsts_append key hreached, take_firsts_append key hreached]

/-- **Caps in layers.** Cutting every part of a list, each at an `n` of its own, leaves the first
`m ≤ n` first occurrences of the whole as they were. -/
theorem take_firsts_flatten_cuts {m : Nat} (parts : List (List α × Nat))
    (h : ∀ p ∈ parts, m ≤ p.2) :
    (firsts key (parts.map fun p => (firsts key p.1).take p.2).flatten).take m
      = (firsts key (parts.map Prod.fst).flatten).take m := by
  -- the parts are put back one after the other, so the claim is carried behind any `front`
  suffices hfront : ∀ front, (firsts key
      (front ++ (parts.map fun p => (firsts key p.1).take p.2).flatten)).take m
        = (firsts key (front ++ (parts.map Prod.fst).flatten)).take m from hfront []
  induction parts with
  | nil => intro front; rfl
  | cons p parts ih =>
    intro front
    obtain ⟨hp, hparts⟩ := List.forall_mem_cons.mp h
    rw [List.map_cons, List.map_cons, List.flatten_cons, List.flatten_cons, ← List.append_assoc,
      ih hparts, take_firsts_cut key hp, List.append_assoc]

/-- The same with one `n` for all parts. -/
theorem take_firsts_flatten {m n : Nat} (hmn : m ≤ n) (parts : List (List α)) :
    (firsts key (parts.map fun part => (firsts key part).take n).flatten).take m
      = (firsts key parts.flatten).take m := by
  have hcuts := take_firsts_flatten_cuts key (parts.map fun part => (part, n))
    (List.forall_mem_map.mpr fun _ _ => hmn)
  rw [List.map_map, List.map_map] at hcuts
  calc (firsts key (parts.map fun part => (firsts key part).take n).flatten).take m
      = (firsts key (parts.map (Prod.fst ∘ fun part => (part, n))).flatten).take m := hcuts
    _ = (firsts key parts.flatten).take m := by
      rw [show Prod.fst ∘ (fun part : List α => (part, n)) = id from rfl, List.map_id]

end Pass

end Blocklist
