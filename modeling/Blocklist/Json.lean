import Blocklist.Text.Numeral

/-!
# JSON values and their text

A JSON value, and the one text it is written as: two blanks of indent a level, each member on a line
of its own, characters beyond ASCII as they are, a line feed at the end. A value with a number of
too many digits has no text.

* `Json` — the values; the fields of an object keep their order;
* `Json.object` — an object from fields of which some may have the same key;
* `Json.write` — how a value is written; `Json.writable` — whether it can be;
* `Json.text` — the text of a value, or the `JsonError` of one that has none.
-/

namespace Blocklist

/-- A JSON value whose numbers are whole. -/
inductive Json where
  | null
  | bool (b : Bool)
  | int (n : Int)
  | str (s : String)
  | arr (items : List Json)
  | obj (fields : List (String × Json))

/-- Why a value has no text. -/
inductive JsonError where
  | tooManyDigits
deriving DecidableEq, Repr

def JsonError.message : JsonError → String
  | .tooManyDigits =>
    s!"Exceeds the limit ({Text.maxDigits} digits) for integer string conversion; " ++
      "use sys.set_int_max_str_digits() to increase the limit"

namespace Json

/-- Sets a field: a key that is there keeps its place and takes the new value. -/
def setField (key : String) (value : Json) : List (String × Json) → List (String × Json)
  | [] => [(key, value)]
  | (k, v) :: rest => if k = key then (k, value) :: rest else (k, v) :: setField key value rest

/-- The object with the given fields, each set in turn. -/
def object (fields : List (String × Json)) : Json :=
  .obj (fields.foldl (fun fs (k, v) => setField k v fs) [])

def ofStrings (items : List String) : Json :=
  .arr (items.map .str)

/-! ### Text -/

def hexDigit (n : Nat) : Char :=
  Char.ofNat (if n < 10 then 0x30 + n else 0x57 + n)

/-- **A character between quotes.** The quote, the backslash and the controls below U+0020 are
escaped, and nothing else is. -/
def escape (c : Char) : List Char :=
  if c = '"' then ['\\', '"']
  else if c = '\\' then ['\\', '\\']
  else if c = '\x08' then ['\\', 'b']
  else if c = '\x0C' then ['\\', 'f']
  else if c = '\n' then ['\\', 'n']
  else if c = '\r' then ['\\', 'r']
  else if c = '\t' then ['\\', 't']
  else if c.toNat < 0x20 then
    ['\\', 'u', '0', '0', hexDigit (c.toNat / 16), hexDigit (c.toNat % 16)]
  else [c]

/-- A text between quotes, with `rest` behind it. -/
def writeString (s : String) (rest : List Char) : List Char :=
  '"' :: (s.toList.flatMap escape ++ '"' :: rest)

/-- A line feed and the indent of a level, with `rest` behind it. -/
def newline (depth : Nat) (rest : List Char) : List Char :=
  '\n' :: (List.replicate (2 * depth) ' ' ++ rest)

mutual

/-- The text of a value at a level of indent, with `rest` behind it. -/
def write (depth : Nat) : Json → List Char → List Char
  | .null, rest => "null".toList ++ rest
  | .bool true, rest => "true".toList ++ rest
  | .bool false, rest => "false".toList ++ rest
  | .int n, rest => (toString n).toList ++ rest
  | .str s, rest => writeString s rest
  | .arr [], rest => '[' :: ']' :: rest
  | .arr (item :: items), rest =>
    '[' :: newline (depth + 1) (write (depth + 1) item (writeItems depth items rest))
  | .obj [], rest => '\x7b' :: '\x7d' :: rest
  | .obj (field :: fields), rest =>
    '\x7b' :: newline (depth + 1) (writeField depth field (writeFields depth fields rest))

/-- The further items of an array and its closing bracket, with `rest` behind them. -/
def writeItems (depth : Nat) : List Json → List Char → List Char
  | [], rest => newline depth (']' :: rest)
  | item :: items, rest =>
    ',' :: newline (depth + 1) (write (depth + 1) item (writeItems depth items rest))

/-- The further fields of an object and its closing brace, with `rest` behind them. -/
def writeFields (depth : Nat) : List (String × Json) → List Char → List Char
  | [], rest => newline depth ('\x7d' :: rest)
  | field :: fields, rest =>
    ',' :: newline (depth + 1) (writeField depth field (writeFields depth fields rest))

/-- A field of an object, with `rest` behind it. -/
def writeField (depth : Nat) : String × Json → List Char → List Char
  | (key, value), rest => writeString key (':' :: ' ' :: write (depth + 1) value rest)

end

/-- A number without its sign is less than this if it has no more digits than a numeral may have. -/
def numberBound : Nat := Nat.pow 10 Text.maxDigits

mutual

/-- Whether every number in a value can be written. -/
def writable : Json → Bool
  | .null | .bool _ | .str _ => true
  | .int n => n.natAbs < numberBound
  | .arr items => writableItems items
  | .obj fields => writableFields fields

/-- Whether every number in some items can be written. -/
def writableItems : List Json → Bool
  | [] => true
  | item :: items => writable item && writableItems items

/-- Whether every number in some fields can be written. -/
def writableFields : List (String × Json) → Bool
  | [] => true
  | field :: fields => writableField field && writableFields fields

/-- Whether every number in a field can be written. -/
def writableField : String × Json → Bool
  | (_, value) => writable value

end

/-- **The text of a value**, with a line feed at its end. -/
def text (value : Json) : Except JsonError String :=
  if value.writable then .ok (String.ofList (write 0 value ['\n'])) else .error .tooManyDigits

end Json

end Blocklist
