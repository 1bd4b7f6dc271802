import Blocklist.Proofs.JsonRoundTrip
import Blocklist.Proofs.LeftBehind

/-!
# What a rule file holds

A rule file is an array of objects, one for each rule, and its text is read back as just that.

* `Json.distinct_ruleFile` — no object in a rule file has a key twice, whatever is left out of it;
* `Place.HoldsObjects` — whether a file, read as JSON, is an array of so many objects;
  `Place.Holds.holdsObjects` — a rule file is one of as many as there are rules.
-/

namespace Blocklist

namespace Json

/-- A header edit has distinct keys. -/
theorem distinct_toJson_headerEdit (e : HeaderEdit) : e.toJson.Distinct := by
  refine .obj (by decide : ["header", "operation", "value"].Nodup) ?_
  simp only [List.forall_mem_cons]
  exact ⟨.str _, .str _, .str _, nofun⟩

/-- So has an action, with or without edits. -/
theorem distinct_toJson_action (a : Action) : a.toJson.Distinct := by
  have hedits : (Json.arr (a.edits.map HeaderEdit.toJson)).Distinct := by
    refine .arr fun item hitem => ?_
    obtain ⟨e, -, rfl⟩ := List.mem_map.mp hitem
    exact distinct_toJson_headerEdit e
  unfold Action.toJson
  -- the edits are there or left out
  split
  · exact .obj (by decide : ["type"].Nodup) (List.forall_mem_singleton.mpr (.str _))
  · refine .obj (by decide : ["type", "requestHeaders"].Nodup) ?_
    simp only [List.forall_mem_cons]
    exact ⟨.str _, hedits, nofun⟩

/-- A list of texts has no keys. -/
theorem distinct_ofStrings (items : List String) : (ofStrings items).Distinct := by
  refine .arr fun item hitem => ?_
  obtain ⟨s, -, rfl⟩ := List.mem_map.mp hitem
  exact .str s

/-- A condition has distinct keys, whichever of its fields are left out. -/
theorem distinct_toJson_condition (c : Condition) : c.toJson.Distinct := by
  unfold Condition.toJson
  -- the filter and the types are there or left out, independently of each other
  split
  · split
    · exact .obj List.nodup_nil nofun
    · exact .obj (List.nodup_singleton "resourceTypes")
        (List.forall_mem_singleton.mpr (distinct_ofStrings _))
  · split
    · exact .obj (List.nodup_singleton "urlFilter") (List.forall_mem_singleton.mpr (.str _))
    · refine .obj (by decide : ["urlFilter", "resourceTypes"].Nodup) ?_
      simp only [List.singleton_append, List.forall_mem_cons]
      exact ⟨.str _, distinct_ofStrings _, nofun⟩

/-- A rule has distinct keys, and so has all that is in it. -/
theorem distinct_toJson_rule (r : NetworkRule) : r.toJson.Distinct := by
  refine .obj (by decide : ["id", "priority", "action", "condition"].Nodup) ?_
  simp only [List.forall_mem_cons]
  exact ⟨.int _, .int _, distinct_toJson_action _, distinct_toJson_condition _, nofun⟩

/-- **No object in a rule file has a key twice.** -/
theorem distinct_ruleFile (rules : List NetworkRule) : (ruleFile rules).Distinct := by
  refine .arr fun item hitem => ?_
  obtain ⟨r, -, rfl⟩ := List.mem_map.mp hitem
  exact distinct_toJson_rule r

end Json

namespace Place

/-- **Whether a file, read as JSON, is an array of so many objects**, however numbers with a
fraction are read. -/
def HoldsObjects (w : Place) (q : List String) (n : Nat) : Prop :=
  ∃ bytes objects, w.tree.get? q = some (.file bytes) ∧
    (∀ real, Json.decode real (Text.Utf8.decodeBody bytes).toList = some (.arr objects)) ∧
    (∀ object ∈ objects, ∃ fields, object = .obj fields) ∧ objects.length = n

/-- **A rule file holds an object for each rule.** -/
theorem Holds.holdsObjects {w : Place} {q : List String} {rules : List NetworkRule}
    (h : w.Holds q (ruleFile rules)) : w.HoldsObjects q rules.length := by
  obtain ⟨content, htext, hfile⟩ := h
  refine ⟨_, rules.map NetworkRule.toJson, hfile, fun real => ?_, ?_, List.length_map _⟩
  · have hjson := Json.isText_text real (Json.distinct_ruleFile rules) htext
    -- the bytes are read back as the text, and the text as the value
    rw [Text.Utf8.decodeBody_toUTF8 hjson.head_ne_mark]
    exact Json.decode_eq_some_iff.mpr hjson
  · intro object hobject
    obtain ⟨r, -, rfl⟩ := List.mem_map.mp hobject
    exact ⟨_, rfl⟩

end Place

end Blocklist
