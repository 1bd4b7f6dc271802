import Blocklist.Json
import Blocklist.Text.Quoted

/-!
# Network rules

A rule tells the browser what to do with a request: block it, or change its headers. Rules are
checked when they are made, so every rule there is has a positive id and a block carries no headers.

* `NetworkRule` — a rule; `NetworkRule.block` and `NetworkRule.privacySignal` make the two kinds
  that a build needs;
* `HeaderEdit.make`, `Action.make`, `NetworkRule.make` — the same parts from unchecked ones, or the
  `RuleError` that refuses them;
* `NetworkRule.toJson` — the form in which browsers read a rule, where what is empty is left out.
-/

namespace Blocklist

/-- Why a rule is refused. -/
inductive RuleError where
  | unsupportedOperation (operation header : String)
  | unknownAction (kind : String)
  | headersOnBlock
  | idNotPositive (id : Int)
deriving DecidableEq, Repr

def RuleError.message : RuleError → String
  | .unsupportedOperation operation header =>
    s!"Unsupported header operation {Text.quoted operation} for {header}"
  | .unknownAction kind => s!"Unknown rule action: {Text.quoted kind}"
  | .headersOnBlock => "Block actions carry no header operations"
  | .idNotPositive id => s!"Rule id must be positive, got {id}"

/-! ### Header edits -/

/-- What is done to a header. -/
inductive HeaderOperation where
  | set
  | remove
  | append
deriving DecidableEq, Repr

namespace HeaderOperation

def all : List HeaderOperation := [.append, .remove, .set]

def name : HeaderOperation → String
  | .set => "set"
  | .remove => "remove"
  | .append => "append"

def ofName? (name : String) : Option HeaderOperation :=
  all.find? (·.name == name)

@[simp] theorem ofName?_name (op : HeaderOperation) : ofName? op.name = some op := by
  cases op <;> decide

end HeaderOperation

/-- A change to one header of a request. -/
structure HeaderEdit where
  header : String
  operation : HeaderOperation
  value : String
deriving DecidableEq, Repr

namespace HeaderEdit

/-- An edit whose operation is given by name. -/
def make (header operation value : String) : Except RuleError HeaderEdit :=
  match HeaderOperation.ofName? operation with
  | some op => .ok ⟨header, op, value⟩
  | none => .error (.unsupportedOperation operation header)

def toJson (e : HeaderEdit) : Json :=
  .obj [("header", .str e.header), ("operation", .str e.operation.name), ("value", .str e.value)]

end HeaderEdit

/-! ### Actions and conditions -/

/-- What is done to a request that a rule applies to. -/
inductive Action where
  | block
  | modifyHeaders (edits : List HeaderEdit)
deriving DecidableEq, Repr

namespace Action

def kind : Action → String
  | .block => "block"
  | .modifyHeaders _ => "modifyHeaders"

def edits : Action → List HeaderEdit
  | .block => []
  | .modifyHeaders edits => edits

/-- An action whose kind is given by name. -/
def make (kind : String) (edits : List HeaderEdit) : Except RuleError Action :=
  if kind = "block" then
    if edits.isEmpty then .ok .block else .error .headersOnBlock
  else if kind = "modifyHeaders" then .ok (.modifyHeaders edits)
  else .error (.unknownAction kind)

def toJson (a : Action) : Json :=
  .obj (("type", .str a.kind) ::
    if a.edits.isEmpty then [] else [("requestHeaders", .arr (a.edits.map HeaderEdit.toJson))])

end Action

/-- Which requests a rule applies to: an empty filter and an empty list of types ask for nothing. -/
structure Condition where
  urlFilter : String := ""
  resourceTypes : List String := []
deriving DecidableEq, Repr

def Condition.toJson (c : Condition) : Json :=
  .obj <|
    (if c.urlFilter = "" then [] else [("urlFilter", .str c.urlFilter)]) ++
    (if c.resourceTypes.isEmpty then [] else [("resourceTypes", Json.ofStrings c.resourceTypes)])

/-! ### Rules -/

/-- A rule of the browser. -/
structure NetworkRule where
  id : Nat
  priority : Int
  action : Action
  condition : Condition
  id_pos : 0 < id := by omega
deriving DecidableEq, Repr

/-- The cap on the number of blocking rules where none is given. -/
def defaultCap : Int := 5000

/-- The id above every id that a blocking rule can have under a cap. -/
def reservedId (cap : Int) : Int := cap + 1

/-- The types of request that a blocking rule applies to. Pages and frames are not among them, so
that the page itself still loads. -/
def blockedTypes : List String :=
  ["script", "image", "xmlhttprequest", "other", "stylesheet", "font", "media"]

/-- The types of request that carry the privacy signal. -/
def signalTypes : List String := ["main_frame", "sub_frame"]

namespace NetworkRule

def isBlock (r : NetworkRule) : Bool :=
  match r.action with
  | .block => true
  | .modifyHeaders _ => false

/-- The same rule under another id. -/
def withId (r : NetworkRule) (id : Nat) (id_pos : 0 < id) : NetworkRule :=
  { r with id := id, id_pos := id_pos }

/-- A rule whose id is any whole number. -/
def make (id priority : Int) (action : Action) (condition : Condition) :
    Except RuleError NetworkRule :=
  if h : 1 ≤ id then .ok ⟨id.toNat, priority, action, condition, by omega⟩
  else .error (.idNotPositive id)

/-- The pattern that every address of a domain matches. -/
def filterOf (domain : String) : String := "*" ++ domain ++ "*"

/-- What a rule that blocks a domain applies to. -/
def blockCondition (domain : String) : Condition := ⟨filterOf domain, blockedTypes⟩

/-- **The rule that blocks a domain.** -/
def block (id : Nat) (domain : String) (id_pos : 0 < id := by omega) : NetworkRule :=
  ⟨id, 1, .block, blockCondition domain, id_pos⟩

/-- The same with any whole number for an id. -/
def makeBlock (id : Int) (domain : String) : Except RuleError NetworkRule :=
  make id 1 .block (blockCondition domain)

/-- **The privacy signal**: the rule that sends `Sec-GPC: 1` with every page, under the reserved id
of a cap. -/
def privacySignal (cap : Int) : Except RuleError NetworkRule :=
  make (reservedId cap) 1 (.modifyHeaders [⟨"Sec-GPC", .set, "1"⟩]) ⟨"", signalTypes⟩

/-- **The form of a rule in a rule file.** -/
def toJson (r : NetworkRule) : Json :=
  .obj [("id", .int r.id), ("priority", .int r.priority), ("action", r.action.toJson),
    ("condition", r.condition.toJson)]

end NetworkRule

/-- The text of a rule file. -/
def ruleFile (rules : List NetworkRule) : Json :=
  .arr (rules.map NetworkRule.toJson)

end Blocklist
