import Blocklist.Text.Fields

/-!
# Internet addresses

Which texts are addresses of version 4 and of version 6.

* `isVersion4` — four decimal octets between points;
* `isVersion6` — eight groups of up to four hexadecimal digits between colons, of which one run of
  zeros may be left out and the last two may be an address of version 4; a zone may follow a `%`.
-/

namespace Blocklist.Location.Address

/-- A decimal digit of ASCII. -/
def isDigit (c : Char) : Bool := '0' ≤ c && c ≤ '9'

/-- A hexadecimal digit of ASCII. -/
def isHexDigit (c : Char) : Bool :=
  isDigit c || ('a' ≤ c && c ≤ 'f') || ('A' ≤ c && c ≤ 'F')

/-- What decimal digits stand for. -/
def decimal (digits : List Char) : Nat :=
  digits.foldl (fun n c => 10 * n + (c.toNat - 0x30)) 0

/-- An octet: one to three digits, no needless zero in front, at most 255. -/
def isOctet (cs : List Char) : Bool :=
  !cs.isEmpty && cs.all isDigit && cs.length ≤ 3 && (cs == ['0'] || cs.head? != some '0') &&
    decimal cs ≤ 255

/-- An address of version 4. -/
def isVersion4 (cs : List Char) : Bool :=
  let parts := Text.fields '.' cs
  parts.length == 4 && parts.all isOctet

/-- A group: one to four hexadecimal digits. -/
def isGroup (cs : List Char) : Bool :=
  !cs.isEmpty && cs.all isHexDigit && cs.length ≤ 4

/-- The groups of an address, where an address of version 4 at the end is worth two. -/
def groups? (parts : List (List Char)) : Option (List (List Char)) :=
  match parts.getLast? with
  | none => some parts
  | some last =>
    if last.contains '.' then
      if isVersion4 last then some (parts.dropLast ++ [['0'], ['0']]) else none
    else some parts

/-- The side of a left out run that stands alone: an empty part belongs to the run if it is all of
its side. -/
def side (parts : List (List Char)) : List (List Char) :=
  if parts == [[]] then [] else parts

/-- Whether the groups make up an address: eight of them, or at most seven around one empty part
that stands for the rest. -/
def areComplete (groups : List (List Char)) : Bool :=
  let inner := (groups.drop 1).dropLast
  match inner.count [] with
  | 0 => groups.length == 8 && groups.all isGroup
  | 1 =>
    let before := (groups.drop 1).takeWhile fun g => !g.isEmpty
    let high := side (groups.take (1 + before.length))
    let low := side (groups.drop (2 + before.length))
    high.length + low.length ≤ 7 && high.all isGroup && low.all isGroup
  | _ => false

/-- The text of an address without its zone. -/
def withoutZone? (cs : List Char) : Option (List Char) :=
  match Text.cutAt '%' cs with
  | (address, none) => some address
  | (address, some zone) => if zone.isEmpty || zone.contains '%' then none else some address

/-- An address of version 6. -/
def isVersion6 (cs : List Char) : Bool :=
  match withoutZone? cs with
  | none => false
  | some address =>
    let parts := Text.fields ':' address
    3 ≤ parts.length &&
      match groups? parts with
      | none => false
      | some groups => groups.length ≤ 9 && areComplete groups

end Blocklist.Location.Address
