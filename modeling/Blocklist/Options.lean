import Blocklist.Fetch
import Blocklist.Rule
import Blocklist.Text.Numeral
import Blocklist.Vacancy

/-!
# Options

The command line: how its words are understood, and what is said when they are not.

A word is an option if it begins with a dash, and belongs to no option if it could be a negative
number or holds a blank. Every word is understood before the first one takes effect. An option may
be cut short as long as one spelling alone begins that way, and its value is the next word or stands
behind an equals sign. Words after `--` are no options. Two dashes alone behind an equals sign are
no value either, and leave the setting vacant.

* `Options` — the settings of a run, with what each is where nothing is said;
* `Options.read` — the settings that words ask for, a request for help, or an `OptionError`;
* `Options.Draft` — the settings while words take effect on them one after the other;
* `usage`, `help` — what is shown.
-/

namespace Blocklist

/-- Where the rules are saved if nothing else is said. -/
def defaultRulesOut : String := "../extension/rules/net_rules.json"

/-- Where the signatures are saved if nothing else is said. -/
def defaultSignaturesOut : String := "../extension/rules/signatures.json"

/-- The settings of a run; `none` stands for a vacant one. There is always a cap. -/
structure Options where
  rulesOut : Option String := some defaultRulesOut
  signaturesOut : Option String := some defaultSignaturesOut
  maxRules : Int := defaultCap
  timeout : Option Int := some defaultTimeout
  concurrency : Option Int := some defaultConcurrency
  sourceIds : List (Option String) := []
  verbose : Bool := false
deriving DecidableEq, Repr

/-- What an option sets. -/
inductive Setting where
  | help
  | rulesOut
  | signaturesOut
  | maxRules
  | timeout
  | concurrency
  | source
  | verbose
deriving DecidableEq, Repr

namespace Setting

/-- Every option by its spelling. -/
def spellings : List (String × Setting) :=
  [("-h", .help), ("--help", .help), ("--rules-out", .rulesOut),
    ("--signatures-out", .signaturesOut), ("--max-rules", .maxRules), ("--timeout", .timeout),
    ("--concurrency", .concurrency), ("--source", .source), ("--verbose", .verbose)]

/-- Whether an option has a value. -/
def hasValue : Setting → Bool
  | .help | .verbose => false
  | _ => true

/-- All spellings of an option. -/
def label (s : Setting) : String :=
  "/".intercalate ((spellings.filter (·.2 == s)).map (·.1))

end Setting

/-- Why words are not understood. -/
inductive OptionError where
  | ambiguous (word : String) (spellings : List String)
  | missingValue (setting : Setting)
  | needlessValue (setting : Setting) (value : String)
  | notWhole (setting : Setting) (value : String)
  | unrecognized (words : List String)
  | capNotPositive
deriving DecidableEq, Repr

def OptionError.message : OptionError → String
  | .ambiguous word spellings =>
    "ambiguous option: " ++ word ++ " could match " ++ ", ".intercalate spellings
  | .missingValue s => s!"argument {s.label}: expected one argument"
  | .needlessValue s value =>
    s!"argument {s.label}: ignored explicit argument {Text.quoted value}"
  | .notWhole s value => s!"argument {s.label}: invalid int value: {Text.quoted value}"
  | .unrecognized words => "unrecognized arguments: " ++ " ".intercalate words
  | .capNotPositive => "--max-rules must be positive"

/-- What words come to: settings, or a request for help, or words that are not understood, or words
that are understood but leave vacant what has to be there. -/
inductive Reading where
  | options (o : Options)
  | help
  | refused (e : OptionError)
  | vacant (v : Vacancy)
deriving DecidableEq, Repr

namespace Options

/-! ### Words -/

/-- What a word is taken for. -/
inductive Word where
  | plain
  | separator
  | unknown
  | option (setting : Setting) (spelling : String) (value : Option String)
deriving DecidableEq, Repr

/-- A negative number: digits after the dash, perhaps with a point among them or before them. A line
feed at the end does not count. -/
def isNegativeNumber (cs : List Char) : Bool :=
  let cs := if cs.getLast? = some '\n' then cs.dropLast else cs
  let isDigit (c : Char) := (Text.digitValue? c).isSome
  match cs with
  | '-' :: rest =>
    match Text.cutAt '.' rest with
    | (whole, none) => !whole.isEmpty && whole.all isDigit
    | (whole, some part) => whole.all isDigit && !part.isEmpty && part.all isDigit
  | _ => false

/-- The options that a word which spells none in full may stand for. A word with two dashes is the
start of a spelling, up to an equals sign; one with a single dash is a short option with something
right behind it. -/
def candidates (word : String) : List (Setting × String × Option String) :=
  let cs := word.toList
  if ['-', '-'].isPrefixOf cs then
    let (start, value) := Text.cutAt '=' cs
    (Setting.spellings.filter fun (s, _) => start.isPrefixOf s.toList).map fun (s, setting) =>
      (setting, s, value.map String.ofList)
  else
    Setting.spellings.filterMap fun (s, setting) =>
      if s.toList = cs.take 2 then some (setting, s, some (String.ofList (cs.drop 2)))
      else if cs.isPrefixOf s.toList then some (setting, s, none)
      else none

/-- **One word**, by itself. -/
def classify (word : String) : Except OptionError Word :=
  let cs := word.toList
  if cs.head? ≠ some '-' then .ok .plain
  else match Setting.spellings.lookup word with
    | some setting => .ok (.option setting word none)
    | none =>
      if cs.length = 1 then .ok .plain
      else
        let (start, value) := Text.cutAt '=' cs
        let spelling := String.ofList start
        match value, Setting.spellings.lookup spelling with
        | some value, some setting => .ok (.option setting spelling (some (String.ofList value)))
        | _, _ =>
          match candidates word with
          | [] =>
            if isNegativeNumber cs || cs.contains ' ' then .ok .plain else .ok .unknown
          | [(setting, spelling, value)] => .ok (.option setting spelling value)
          | several => .error (.ambiguous word (several.map fun (_, s, _) => s))

/-- **All words.** After the separator, every word is plain. -/
def classifyAll : List String → Except OptionError (List (String × Word))
  | [] => .ok []
  | word :: rest =>
    if word = "--" then .ok ((word, .separator) :: rest.map fun w => (w, .plain))
    else do
      let kind ← classify word
      let others ← classifyAll rest
      pure ((word, kind) :: others)

/-! ### Effects -/

/-- A whole number as the value of an option. -/
def whole (s : Setting) (value : String) : Except OptionError Int :=
  match Text.readInt? value with
  | some n => .ok n
  | none => .error (.notWhole s value)

/-- The value that stands behind an equals sign. Two dashes alone are none. -/
def given? (value : String) : Option String :=
  if value = "--" then none else some value

/-- **The settings while words take effect.** The cap may still be vacant, and the words that belong
to no option are kept, last first. -/
structure Draft where
  options : Options := {}
  cap : Option Int := some defaultCap
  extra : List String := []

/-- The settings after an option that has a value, or is to have one and leaves it vacant. Of the
options that are given again the last counts; sources add up. -/
def Draft.set (d : Draft) (s : Setting) (value : Option String) : Except OptionError Draft :=
  let o := d.options
  match s with
  | .rulesOut => .ok { d with options := { o with rulesOut := value } }
  | .signaturesOut => .ok { d with options := { o with signaturesOut := value } }
  | .maxRules => (value.mapM (whole s)).map fun n => { d with cap := n }
  | .timeout => (value.mapM (whole s)).map fun n => { d with options := { o with timeout := n } }
  | .concurrency =>
    (value.mapM (whole s)).map fun n => { d with options := { o with concurrency := n } }
  | .source => .ok { d with options := { o with sourceIds := o.sourceIds ++ [value] } }
  | .help | .verbose => .ok d

/-- What stands right behind a short option: more short options, of which the first that is none is
refused. -/
def checkCluster (s : Setting) : List Char → Except OptionError Unit
  | [] => .ok ()
  | c :: cs =>
    match Setting.spellings.lookup (String.ofList ['-', c]) with
    | some next => checkCluster next cs
    | none => .error (.needlessValue s (String.ofList (c :: cs)))

/-- A value for an option that has none: only short options can be written together. -/
def checkNeedless (s : Setting) (spelling value : String) : Except OptionError Unit :=
  if ['-', '-'].isPrefixOf spelling.toList || value = "" then .error (.needlessValue s value)
  else checkCluster s value.toList

/-- What the settings come to when all words have taken effect. Words that belong to no option count
before a bad cap. -/
def Draft.finish (d : Draft) : Reading :=
  if d.extra ≠ [] then .refused (.unrecognized d.extra.reverse)
  else match d.cap with
    | none => .vacant .cap
    | some cap =>
      if cap < 1 then .refused .capNotPositive else .options { d.options with maxRules := cap }

/-- **The effect of all words**, one after the other. -/
def Draft.apply (d : Draft) : List (String × Word) → Reading
  | [] => d.finish
  | (_, .option s spelling value) :: rest =>
    match s.hasValue, value, rest with
    | true, some value, rest =>
      match d.set s (given? value) with
      | .ok d => d.apply rest
      | .error e => .refused e
    | true, none, (value, .plain) :: rest =>
      match d.set s (some value) with
      | .ok d => d.apply rest
      | .error e => .refused e
    | true, none, _ => .refused (.missingValue s)
    | false, value, rest =>
      match value.elim (.ok ()) (checkNeedless s spelling) with
      | .error e => .refused e
      | .ok () =>
        if s = .help then .help
        else Draft.apply { d with options := { d.options with verbose := true } } rest
  | (word, _) :: rest => Draft.apply { d with extra := word :: d.extra } rest

/-- **The settings that words ask for.** -/
def read (words : List String) : Reading :=
  match classifyAll words with
  | .error e => .refused e
  | .ok words => Draft.apply {} words

-- Two dashes alone are no value, and a vacant cap gives way to a later one.
example : read ["--source=--", "--source=a", "--timeout=--"] =
    .options { sourceIds := [none, some "a"], timeout := none } := by
  decide +kernel

example : read ["--max-rules=--"] = .vacant .cap ∧
    read ["--max-rules=--", "--max-rules", "7"] = .options { maxRules := 7 } := by
  decide +kernel

end Options

/-! ### What is shown -/

def programName : String := "ghost-rejector-build"

/-- How the program is used, in short. -/
def usage : List String :=
  ["usage: ghost-rejector-build [-h] [--rules-out RULES_OUT]",
    "                            [--signatures-out SIGNATURES_OUT]",
    "                            [--max-rules MAX_RULES] [--timeout TIMEOUT]",
    "                            [--concurrency CONCURRENCY] [--source ID]",
    "                            [--verbose]"]

/-- How the program is used. -/
def help : List String :=
  usage ++
    ["",
      "Build declarative network rules and CMP signatures",
      "",
      "options:",
      "  -h, --help            show this help message and exit",
      "  --rules-out RULES_OUT",
      "                        Output path for net_rules.json",
      "  --signatures-out SIGNATURES_OUT",
      "                        Output path for signatures.json",
      "  --max-rules MAX_RULES",
      "                        Max blocking rules",
      "  --timeout TIMEOUT     Request timeout in seconds",
      "  --concurrency CONCURRENCY",
      "                        Max concurrent downloads",
      "  --source ID           Only build from this source id (repeatable, enables",
      "                        disabled sources)",
      "  --verbose             Print per-source detail"]

/-- What is shown when words are not understood. -/
def OptionError.lines (e : OptionError) : List String :=
  usage ++ [s!"{programName}: error: {e.message}"]

end Blocklist
