import Blocklist.Location.Address
import Blocklist.Text.Quoted

/-!
# Where a list is found

A location is the address of a page or the path of a file. It is the address of a page if its scheme
says so; a location whose host has stray brackets, or delimiters in disguise, is neither.

* `Location.isHttp` — whether a location is fetched over the network, or what is wrong with it;
* `Location.scheme` — the scheme of a location and what follows it;
* `Location.checkAuthority` — the rules for brackets;
* `Location.checkDisguises` — the characters that no authority may have.
-/

namespace Blocklist

/-- What is wrong with a location. -/
inductive LocationError where
  | brackets
  | notAnAddress (host : String)
  | version4InBrackets
  | futureAddress
  | disguised (authority : String)
deriving DecidableEq, Repr

def LocationError.message : LocationError → String
  | .brackets => "Invalid IPv6 URL"
  | .notAnAddress host => s!"{Text.quoted host} does not appear to be an IPv4 or IPv6 address"
  | .version4InBrackets => "An IPv4 address cannot be in brackets"
  | .futureAddress => "IPvFuture address is invalid"
  | .disguised authority =>
    s!"netloc '{authority}' contains invalid characters under NFKC normalization"

namespace Location

def httpSchemes : List String := ["http", "https"]

def isLetter (c : Char) : Bool := ('a' ≤ c && c ≤ 'z') || ('A' ≤ c && c ≤ 'Z')

def isSchemeChar (c : Char) : Bool :=
  isLetter c || Address.isDigit c || c == '+' || c == '-' || c == '.'

/-- **What is looked at** of a location: leading controls and blanks, and tabs and line breaks
anywhere, do not count. -/
def clean (location : List Char) : List Char :=
  (location.dropWhile (·.toNat ≤ 0x20)).filter fun c => c != '\t' && c != '\n' && c != '\r'

/-- **The scheme**, in lower case, and what follows its colon. A scheme starts with a letter; a
location that has none is left whole. -/
def scheme (location : List Char) : String × List Char :=
  match Text.cutAt ':' location with
  | (name, some rest) =>
    match name with
    | first :: _ =>
      if isLetter first && name.all isSchemeChar then
        (String.ofList (name.map Char.toLower), rest)
      else ("", location)
    | [] => ("", location)
  | (_, none) => ("", location)

/-- The authority: what stands between `//` and the next `/`, `?` or `#`. -/
def authority? : List Char → Option (List Char)
  | '/' :: '/' :: rest => some (rest.takeWhile fun c => c != '/' && c != '?' && c != '#')
  | _ => none

/-- An address of a version to come: `v`, a hexadecimal version, a point, and something more. -/
def isFutureAddress : List Char → Bool
  | 'v' :: rest =>
    let version := rest.takeWhile Address.isHexDigit
    !version.isEmpty &&
      match rest.dropWhile Address.isHexDigit with
      | '.' :: address => !address.isEmpty && !address.contains '\n'
      | _ => false
  | _ => false

/-- A host between brackets must be an address, and not one of version 4. -/
def checkHost (host : List Char) : Except LocationError Unit :=
  if host.head? = some 'v' then
    if isFutureAddress host then .ok () else .error .futureAddress
  else if Address.isVersion4 host then .error .version4InBrackets
  else if Address.isVersion6 host then .ok ()
  else .error (.notAnAddress (String.ofList host))

/-- The host that brackets somewhere in an authority ask to be checked. -/
def bracketedHost (authority : List Char) : Except LocationError (List Char) :=
  let hostAndPort := Text.afterLast '@' authority
  match Text.cutAt '[' hostAndPort with
  | (before, some rest) =>
    if !before.isEmpty then .error .brackets
    else match Text.cutAt ']' rest with
      | (host, none) => .ok host
      | (host, some port) =>
        if port.isEmpty || port.head? == some ':' then .ok host else .error .brackets
  | (_, none) => .ok (Text.cutAt ':' hostAndPort).1

/-- **Brackets in an authority** come in pairs, hold an address, and hold all of the host. -/
def checkAuthority (authority : List Char) : Except LocationError Unit :=
  match authority.contains '[', authority.contains ']' with
  | false, false => .ok ()
  | true, true => bracketedHost authority >>= checkHost
  | _, _ => .error .brackets

/-- The characters that compatibility folding turns into texts with one of `/`, `?`, `#`, `@` and
`:` in them. -/
def disguises : List Char :=
  ['⁇', '⁈', '⁉', '℀', '℁', '℅', '℆', '⩴', '︓', '︖', '﹕', '﹖', '﹟', '﹫', '＃', '／', '：', '？', '＠']

/-- No character in an authority is a delimiter in disguise. -/
def checkDisguises (authority : List Char) : Except LocationError Unit :=
  if authority.any disguises.contains then .error (.disguised (String.ofList authority)) else .ok ()

/-- **Whether a location is that of a page.** -/
def isHttp (location : String) : Except LocationError Bool :=
  let (name, rest) := scheme (clean location.toList)
  match authority? rest with
  | none => .ok (httpSchemes.contains name)
  | some authority => do
    checkAuthority authority
    checkDisguises authority
    pure (httpSchemes.contains name)

end Location

end Blocklist
