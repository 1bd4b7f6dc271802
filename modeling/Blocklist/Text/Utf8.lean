/-!
# Reading UTF-8

Bytes are read one at a time by a small machine. A byte sequence that no character has is replaced:
each longest start of a character that cannot go on becomes one U+FFFD, and reading resumes with the
byte that did not fit.

* `decodeBody` — the text of a whole body; one byte order mark in front of it is no part of the
  text;
* `decodeFile` — the same for a file, which streams in: of a file that ends within its byte order
  mark nothing is left.
-/

namespace Blocklist.Text.Utf8

/-- What stands in for bytes that are no character. -/
def replacement : Char := '\uFFFD'

/-- **Where a sequence stands.** Either a character may begin, or `need` more bytes of one must
follow: the next lies between `low` and `high`, and `value` is the code point's part so far. -/
inductive State where
  | ready
  | inside (need : Nat) (low high : UInt8) (value : Nat)
deriving DecidableEq, Repr

/-- What a byte means where a character may begin. -/
inductive Lead where
  | single (c : Char)
  | opens (s : State)
  | invalid
deriving DecidableEq, Repr

/-- **First bytes.** The bounds on the second byte leave out overlong forms, surrogates and what
lies above U+10FFFF. -/
def lead (b : UInt8) : Lead :=
  let n := b.toNat
  if n < 0x80 then .single (Char.ofNat n)
  else if n < 0xC2 then .invalid
  else if n < 0xE0 then .opens (.inside 1 0x80 0xBF (n - 0xC0))
  else if n = 0xE0 then .opens (.inside 2 0xA0 0xBF 0)
  else if n = 0xED then .opens (.inside 2 0x80 0x9F (n - 0xE0))
  else if n < 0xF0 then .opens (.inside 2 0x80 0xBF (n - 0xE0))
  else if n = 0xF0 then .opens (.inside 3 0x90 0xBF 0)
  else if n < 0xF4 then .opens (.inside 3 0x80 0xBF (n - 0xF0))
  else if n = 0xF4 then .opens (.inside 3 0x80 0x8F (n - 0xF0))
  else .invalid

/-- Reads a byte where a character may begin. -/
def start (b : UInt8) : List Char × State :=
  match lead b with
  | .single c => ([c], .ready)
  | .opens s => ([], s)
  | .invalid => ([replacement], .ready)

/-- Reads one byte: the characters it completes, and the state after it. -/
def step : State → UInt8 → List Char × State
  | .ready, b => start b
  | .inside need low high value, b =>
    if low ≤ b && b ≤ high then
      let value := value * 64 + (b.toNat - 0x80)
      if need = 1 then ([Char.ofNat value], .ready)
      else ([], .inside (need - 1) 0x80 0xBF value)
    else
      let (cs, s) := start b
      (replacement :: cs, s)

/-- What the end of the bytes adds: a sequence that is not finished is replaced. -/
def finish : State → List Char
  | .ready => []
  | .inside .. => [replacement]

/-- **A reading in progress**: the state, and the characters so far, last first. -/
structure Reader where
  state : State := .ready
  written : List Char := []
deriving DecidableEq, Repr

/-- Reads one more byte. -/
def Reader.push (r : Reader) (b : UInt8) : Reader :=
  let (cs, s) := step r.state b
  ⟨s, cs.reverse ++ r.written⟩

/-- Reads more bytes. -/
def Reader.feed (r : Reader) (bytes : List UInt8) : Reader :=
  bytes.foldl Reader.push r

theorem Reader.feed_append (r : Reader) (a b : List UInt8) :
    r.feed (a ++ b) = (r.feed a).feed b :=
  List.foldl_append

/-- The characters of a reading that has come to the end of the bytes. -/
def Reader.text (r : Reader) : List Char :=
  r.written.reverse ++ finish r.state

/-- The characters of some bytes, with replacement. -/
def decode (bytes : List UInt8) : List Char :=
  (Reader.feed {} bytes).text

/-- The bytes of the byte order mark. -/
def mark : List UInt8 := [0xEF, 0xBB, 0xBF]

/-- The bytes without a byte order mark in front. -/
def dropMark : List UInt8 → List UInt8
  | 0xEF :: 0xBB :: 0xBF :: rest => rest
  | bytes => bytes

/-- **The text of a body**, without its byte order mark. -/
def decodeBody (bytes : ByteArray) : String :=
  String.ofList (decode (dropMark bytes.data.toList))

/-! ### Files that stream in -/

/-- **A file that streams in.** As long as its bytes may turn out to begin a byte order mark they
are held back; from then on they are read. -/
inductive FileReader where
  | opening (held : List UInt8)
  | reading (reader : Reader)
deriving DecidableEq, Repr

/-- Takes in the next portion of a file. -/
def FileReader.take : FileReader → List UInt8 → FileReader
  | .opening held, portion =>
    let bytes := held ++ portion
    if bytes.length < 3 && bytes.isPrefixOf mark then .opening bytes
    else .reading (Reader.feed {} (dropMark bytes))
  | .reading reader, portion => .reading (reader.feed portion)

/-- The characters of a file that has come to its end. Nothing is left of what is still held
back. -/
def FileReader.text : FileReader → List Char
  | .opening _ => []
  | .reading reader => reader.text

/-- **The text of a file that comes in portions.** -/
def decodePortions (portions : List (List UInt8)) : String :=
  String.ofList (portions.foldl FileReader.take (.opening [])).text

/-- How many bytes of a file come at once. -/
def portionSize : Nat := 8192

/-- Some bytes in portions of a size, the last of them perhaps shorter. No portion is empty. -/
def inPortions (size : Nat) : List UInt8 → List (List UInt8)
  | [] => []
  | b :: rest => (b :: rest.take (size - 1)) :: inPortions size (rest.drop (size - 1))
termination_by bytes => bytes.length
decreasing_by
  simp only [List.length_drop, List.length_cons]
  omega

/-- **The text of a file**, as it streams in. -/
def decodeFile (bytes : ByteArray) : String :=
  decodePortions (inPortions portionSize bytes.data.toList)

end Blocklist.Text.Utf8
