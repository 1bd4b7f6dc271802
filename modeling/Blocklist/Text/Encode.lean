import Blocklist.Text.Quoted

/-!
# Writing UTF-8

A text can hold what has no bytes: halves of surrogate pairs that stand alone. It can be worked with
like any other text, and fails only when it is written. No half is a `Char`, so a codec says which
characters of the texts stand for halves.

* `Codec` — the characters that stand for halves;
* `Codec.encode` — the bytes of a text, or the place of the first halves in it.
-/

namespace Blocklist.Text

/-- The halves of surrogate pairs, counted from U+D800. -/
abbrev Half := Fin 0x800

/-- **What stands for halves.** A character may stand for one if the texts have no other use for it.
Those below U+0080, with which everything is laid out, stand for themselves. -/
structure Codec where
  half? : Char → Option Half := fun _ => none
  half?_of_lt : ∀ c, c.toNat < 0x80 → half? c = none := by exact fun _ _ => rfl

/-- **Where encoding stopped**: the halves from the one at `first` to the one at `last`, of which
`half` is the first. -/
structure Unencodable where
  half : Half
  first : Nat
  last : Nat
deriving DecidableEq, Repr

/-- The wording of an encoding error; one half is shown, several are counted. -/
def Unencodable.message (e : Unencodable) : String :=
  let place :=
    if e.last = e.first then
      let hex := String.ofList (hexDigits 4 (0xD800 + e.half))
      "character '\\u" ++ hex ++ s!"' in position {e.first}"
    else s!"characters in position {e.first}-{e.last}"
  s!"'utf-8' codec can't encode {place}: surrogates not allowed"

namespace Codec

/-- The codec of texts in which nothing stands for a half. -/
def plain : Codec := {}

/-- The first halves among some characters, of which the first is at a place. -/
def firstHalves? (codec : Codec) (place : Nat) : List Char → Option Unencodable
  | [] => none
  | c :: cs =>
    match codec.half? c with
    | none => codec.firstHalves? (place + 1) cs
    | some half =>
      let more := cs.takeWhile fun c => (codec.half? c).isSome
      some ⟨half, place, place + more.length⟩

/-- **The bytes of a text**, which a text with halves does not have. -/
def encode (codec : Codec) (content : String) : Except Unencodable ByteArray :=
  match codec.firstHalves? 0 content.toList with
  | none => .ok content.toUTF8
  | some e => .error e

end Codec

end Blocklist.Text
