import Blocklist.Proofs.RuleFile

/-!
# Reading rule files

The text of a rule file tells its rules. A reader takes it apart as JSON, looks up the parts of each
rule by their keys, and makes the rule of them by the same checks by which every rule is made. What
was left out because it is empty is read as empty, and nothing else is ever left out.

* `Json.field?`, `Json.readField?`, `Json.readFieldOr` — a field of an object, which has to be there
  or may be left out;
* `HeaderEdit.ofJson?`, `Action.ofJson?`, `Condition.ofJson?`, `NetworkRule.ofJson?` — the parts of
  a rule and the rule, each read from its form in a rule file (`NetworkRule.ofJson?_toJson`);
* `readRuleFile` — the rules of a text;
* `readRuleFile_text` — the main statement: reading the text of a rule file gives its rules, so no
  other rules have the same text.
-/

namespace Blocklist

/-! ### Fields -/

namespace Json

def str? : Json → Option String
  | .str s => some s
  | _ => none

def int? : Json → Option Int
  | .int n => some n
  | _ => none

/-- The items of an array, each read in the same way. -/
def readItems {α : Type} (read : Json → Option α) : Json → Option (List α)
  | .arr items => items.mapM read
  | _ => none

/-- The value of a field of an object. -/
def field? (key : String) : Json → Option Json
  | .obj fields => fields.lookup key
  | _ => none

/-- **A field that has to be there.** -/
def readField? {α : Type} (read : Json → Option α) (key : String) (d : Json) : Option α :=
  d.field? key >>= read

/-- **A field that may be left out**, and then stands for a value of its own. -/
def readFieldOr {α : Type} (read : Json → Option α) (default : α) (key : String) (d : Json) :
    Option α :=
  match d.field? key with
  | some value => read value
  | none => some default

@[simp] theorem str?_str (s : String) : (Json.str s).str? = some s := rfl

@[simp] theorem int?_int (n : Int) : (Json.int n).int? = some n := rfl

/-- **What was written item by item is read item by item.** -/
theorem readItems_map {α : Type} {read : Json → Option α} {write : α → Json}
    (h : ∀ a, read (write a) = some a) (items : List α) :
    readItems read (.arr (items.map write)) = some items := by
  show (items.map write).mapM read = some items
  induction items with
  | nil => rfl
  | cons a items ih =>
    rw [List.map_cons, List.mapM_cons, h, ih]
    rfl

theorem readItems_ofStrings (items : List String) : readItems str? (ofStrings items) = some items :=
  readItems_map str?_str items

@[simp] theorem field?_nil (key : String) : field? key (.obj []) = none := rfl

@[simp] theorem field?_cons (key k : String) (value : Json) (fields : List (String × Json)) :
    field? key (.obj ((k, value) :: fields))
      = if key = k then some value else field? key (.obj fields) := by
  show ((k, value) :: fields).lookup key = _
  by_cases hkey : key = k
  · rw [if_pos hkey, hkey]
    exact List.lookup_cons_self
  · rw [if_neg hkey, List.lookup_cons, beq_eq_false_iff_ne.mpr hkey]
    rfl

/-- **What was left out is read as what it was**, if only the value that it then stands for is ever
left out. -/
theorem readFieldOr_of_omitted {α : Type} {read : Json → Option α} {default a : α} {key : String}
    {d value : Json} {omitted : Prop} [Decidable omitted]
    (hfield : d.field? key = if omitted then none else some value) (hvalue : read value = some a)
    (homitted : omitted → a = default) : d.readFieldOr read default key = some a := by
  unfold readFieldOr
  by_cases h : omitted
  · rw [hfield, if_pos h, homitted h]
  · rw [hfield, if_neg h]
    exact hvalue

end Json

/-! ### The parts of a rule -/

namespace HeaderEdit

/-- The edit that an object describes. -/
def ofJson? (d : Json) : Option HeaderEdit := do
  let header ← d.readField? Json.str? "header"
  let operation ← d.readField? Json.str? "operation"
  let value ← d.readField? Json.str? "value"
  (make header operation value).toOption

/-- No check refuses an edit that is there. -/
theorem make_name (e : HeaderEdit) : make e.header e.operation.name e.value = .ok e := by
  unfold make
  rw [HeaderOperation.ofName?_name]

/-- A header edit is read back. -/
theorem ofJson?_toJson (e : HeaderEdit) : ofJson? e.toJson = some e := by
  simp [ofJson?, toJson, Json.readField?, make_name, Except.toOption]

end HeaderEdit

namespace Action

/-- The action that an object describes. Without headers to edit there may be no field for them. -/
def ofJson? (d : Json) : Option Action := do
  let kind ← d.readField? Json.str? "type"
  let edits ← d.readFieldOr (Json.readItems HeaderEdit.ofJson?) [] "requestHeaders"
  (make kind edits).toOption

/-- An action is what its kind and its edits make. -/
theorem make_kind (a : Action) : make a.kind a.edits = .ok a := by
  cases a with
  | block => rfl
  | modifyHeaders edits => rfl

/-- **An action is read back**, whether or not it has edits. -/
theorem ofJson?_toJson (a : Action) : ofJson? a.toJson = some a := by
  have hkind : a.toJson.readField? Json.str? "type" = some a.kind := by
    simp [toJson, Json.readField?]
  -- edits are written only if there are any, and are none if they are left out
  have hfield : a.toJson.field? "requestHeaders"
      = if a.edits = [] then none else some (.arr (a.edits.map HeaderEdit.toJson)) := by
    unfold toJson
    split_ifs <;> simp_all
  have hedits : a.toJson.readFieldOr (Json.readItems HeaderEdit.ofJson?) [] "requestHeaders"
      = some a.edits :=
    Json.readFieldOr_of_omitted hfield (Json.readItems_map HeaderEdit.ofJson?_toJson a.edits) id
  unfold ofJson?
  rw [hkind, hedits]
  show (make a.kind a.edits).toOption = _
  rw [make_kind]
  rfl

end Action

namespace Condition

/-- The condition that an object describes. Both of its parts may be left out. -/
def ofJson? (d : Json) : Option Condition := do
  let urlFilter ← d.readFieldOr Json.str? "" "urlFilter"
  let resourceTypes ← d.readFieldOr (Json.readItems Json.str?) [] "resourceTypes"
  some ⟨urlFilter, resourceTypes⟩

/-- **A condition is read back**, whichever of its fields are left out. -/
theorem ofJson?_toJson (c : Condition) : ofJson? c.toJson = some c := by
  -- the filter does not hide the types, nor do the types stand in for the filter
  have hfilter : c.toJson.field? "urlFilter"
      = if c.urlFilter = "" then none else some (.str c.urlFilter) := by
    unfold toJson
    split_ifs <;> simp
  have htypes : c.toJson.field? "resourceTypes"
      = if c.resourceTypes = [] then none else some (Json.ofStrings c.resourceTypes) := by
    unfold toJson
    split_ifs <;> simp_all
  have hreadFilter : c.toJson.readFieldOr Json.str? "" "urlFilter" = some c.urlFilter :=
    Json.readFieldOr_of_omitted hfilter rfl id
  have hreadTypes : c.toJson.readFieldOr (Json.readItems Json.str?) [] "resourceTypes"
      = some c.resourceTypes :=
    Json.readFieldOr_of_omitted htypes (Json.readItems_ofStrings c.resourceTypes) id
  unfold ofJson?
  rw [hreadFilter, hreadTypes]
  rfl

end Condition

/-! ### Rules -/

namespace NetworkRule

/-- **The rule that an object describes**, if it passes the checks of every rule. -/
def ofJson? (d : Json) : Option NetworkRule := do
  let id ← d.readField? Json.int? "id"
  let priority ← d.readField? Json.int? "priority"
  let action ← d.readField? Action.ofJson? "action"
  let condition ← d.readField? Condition.ofJson? "condition"
  (make id priority action condition).toOption

/-- A rule is what its number, its priority, its action and its condition make. -/
theorem make_id (r : NetworkRule) : make r.id r.priority r.action r.condition = .ok r := by
  have hid : (1 : Int) ≤ r.id := by
    have hpos := r.id_pos
    omega
  rw [make, dif_pos hid]
  rfl

/-- **A rule is read from its form in a rule file.** -/
theorem ofJson?_toJson (r : NetworkRule) : ofJson? r.toJson = some r := by
  have hid : r.toJson.readField? Json.int? "id" = some (r.id : Int) := by
    simp [toJson, Json.readField?]
  have hpriority : r.toJson.readField? Json.int? "priority" = some r.priority := by
    simp [toJson, Json.readField?]
  have haction : r.toJson.readField? Action.ofJson? "action" = some r.action := by
    simp [toJson, Json.readField?, Action.ofJson?_toJson]
  have hcondition : r.toJson.readField? Condition.ofJson? "condition" = some r.condition := by
    simp [toJson, Json.readField?, Condition.ofJson?_toJson]
  -- each of the four fields is read back by the reader of its kind
  unfold ofJson?
  rw [hid, hpriority, haction, hcondition]
  show (make r.id r.priority r.action r.condition).toOption = _
  rw [make_id]
  rfl

end NetworkRule

/-! ### Rule files -/

/-- **The rules of a text.** No part of a rule is a number with a fraction, so what such a number is
taken for does not matter as long as it is no part of a rule either. -/
def readRuleFile (content : String) : Option (List NetworkRule) :=
  Json.decode (fun _ => .null) content.toList >>= Json.readItems NetworkRule.ofJson?

/-- **The text of a rule file determines its rules**: reading it gives them, and no other rules have
the same text. -/
theorem readRuleFile_text {rules : List NetworkRule} {content : String}
    (h : (ruleFile rules).text = .ok content) :
    readRuleFile content = some rules ∧
      ∀ rules', (ruleFile rules').text = .ok content → rules' = rules := by
  -- the text decides the value, and the value decides the rules
  have hread : ∀ given : List NetworkRule, (ruleFile given).text = .ok content →
      readRuleFile content = some given := by
    intro given hgiven
    have hjson := Json.isText_text (fun _ => .null) (Json.distinct_ruleFile given) hgiven
    unfold readRuleFile
    rw [Json.decode_eq_some_iff.mpr hjson]
    exact Json.readItems_map NetworkRule.ofJson?_toJson given
  refine ⟨hread rules h, ?_⟩
  intro rules' h'
  exact Option.some.inj ((hread rules' h').symm.trans (hread rules h))

/-- A rule without headers and types, whose filter has to be escaped. -/
def sparseRules : List NetworkRule := [⟨1, -3, .block, ⟨"\"\n*", []⟩, Nat.one_pos⟩]

def sparseText : String :=
  "[\n  \x7b\n    \"id\": 1,\n    \"priority\": -3,\n" ++
    "    \"action\": \x7b\n      \"type\": \"block\"\n    \x7d,\n" ++
    "    \"condition\": \x7b\n      \"urlFilter\": \"\\\"\\n*\"\n    \x7d\n  \x7d\n]\n"

theorem readRuleFile_text_sparse :
    (ruleFile sparseRules).text = .ok sparseText ∧ readRuleFile sparseText = some sparseRules := by
  have htext : (ruleFile sparseRules).text = .ok sparseText := by decide +kernel
  exact ⟨htext, (readRuleFile_text htext).1⟩

end Blocklist
