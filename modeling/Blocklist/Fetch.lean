import Blocklist.FileTree
import Blocklist.Location
import Blocklist.Web

/-!
# Fetching lists

Texts are fetched from many locations at once, a bounded number at a time, and come back in the
order of the locations. One that fails is reported and leaves the others alone; only a cancellation
ends the whole.

* `fetchLocation` — the text at one location, a page or a file;
* `settle` — what many fetches come to, one by one or as a whole;
* `fetchAll` — the texts at many locations, by any fetcher;
* `fetchEverything` — the same by the fetcher for pages and files, which asks first whether any page
  is among the locations.
-/

namespace Blocklist

/-- How long a request may take where nothing else is said, in seconds. -/
def defaultTimeout : Int := 30

/-- How many fetches run at once where nothing else is said. -/
def defaultConcurrency : Int := 4

/-- What can be fetched from: pages, and files as they are named from a working directory. -/
structure Reach where
  web : Web := []
  place : Place := {}

/-- A fault of a location itself. -/
def Fault.ofLocation (e : LocationError) : Fault := .failure .value e.message

/-- The text of a file. -/
def readList (place : Place) (path : String) : Except Fault String :=
  if Path.holdsNul path then .error (.failure .value "embedded null byte")
  else match place.readFile path with
    | .ok content => .ok (Text.Utf8.decodeBody content)
    | .error fault => .error (.refusal path fault.message)

/-- **The text at a location.** Without a session no page can be asked for. -/
def fetchLocation (reach : Reach) (session : Bool) (location : String) : Except Fault String :=
  match Location.isHttp location with
  | .error e => .error (.ofLocation e)
  | .ok true =>
    if session then (reach.web.exchange location).text location
    else .error (.refusal location "no HTTP session available")
  | .ok false => readList reach.place location

/-! ### Many locations -/

/-- **What came of one location**: its text, or what is told of its failure. -/
structure FetchResult where
  location : String
  outcome : Except String String

/-- A fetcher: the text at a location, or a fault. -/
abbrev Fetcher := String → Except Fault String

/-- What is told of one fetch, unless it is the cancellation of all. -/
def FetchResult.of (location : String) : Except Fault String → Except Fault FetchResult
  | .ok text => .ok ⟨location, .ok text⟩
  | .error fault =>
    match fault.report? with
    | some told => .ok ⟨location, .error told⟩
    | none => .error fault

/-- **What came of some locations**, in their order, or the first cancellation among them. -/
def settle (fetched : List (String × Except Fault String)) : Except Fault (List FetchResult) :=
  fetched.mapM fun (location, outcome) => FetchResult.of location outcome

/-- **The texts at some locations.** Each is fetched once. -/
def fetchAll (fetch : Fetcher) (locations : List String) : Except Fault (List FetchResult) :=
  settle (locations.map fun location => (location, fetch location))

/-- How many fetches may run at once: at least one. -/
def permits (concurrency : Int) : Nat := (max concurrency 1).toNat

/-- Whether a page is among the locations. They are looked at in order up to the first page. -/
def anyHttp : List String → Except LocationError Bool
  | [] => .ok false
  | location :: rest =>
    match Location.isHttp location with
    | .error e => .error e
    | .ok true => .ok true
    | .ok false => anyHttp rest

/-- **The texts at some pages and files.** A session is opened if a page is among them; a location
before the first page that is neither page nor file ends the whole. -/
def fetchEverything (reach : Reach) (locations : List String) : Except Fault (List FetchResult) :=
  match anyHttp locations with
  | .error e => .error (.ofLocation e)
  | .ok session => fetchAll (fetchLocation reach session) locations

/-! ### Traffic -/

/-- The limits of the connections of a session. -/
structure Connector where
  limit : Nat
  perHost : Nat
deriving DecidableEq, Repr

/-- The connections that the session for some locations may have, if there is a session. -/
def connector? (concurrency : Int) (locations : List String) : Option Connector :=
  match anyHttp locations with
  | .ok true => some ⟨permits concurrency, 2⟩
  | _ => none

/-- A request for a page, with the seconds it may take, if their number is not vacant. -/
structure Request where
  url : String
  timeout : Option Int
  followsRedirects : Bool := true
deriving DecidableEq, Repr

/-- The request that is made when one location is fetched, if it is a page and there is a
session. -/
def requestsOf (session : Bool) (timeout : Option Int) (location : String) : List Request :=
  match Location.isHttp location with
  | .ok true => if session then [{ url := location, timeout }] else []
  | _ => []

/-- **The requests**, in order, that are made when some locations are fetched. -/
def requests (timeout : Option Int) (locations : List String) : List Request :=
  match anyHttp locations with
  | .ok session => locations.flatMap (requestsOf session timeout)
  | .error _ => []

end Blocklist
