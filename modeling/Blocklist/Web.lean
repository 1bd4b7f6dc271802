import Blocklist.Fault
import Blocklist.Text.Utf8

/-!
# The web

Pages by their addresses, and what a request for one meets.

* `Web` — the pages; `Web.exchange` — what a request meets;
* `Exchange.text` — the text that a request gives, or the refusal: a status from 400 up, a timeout
  and a failure of the connection are refusals that name the address, and any other failure stays
  as it is.
-/

namespace Blocklist

/-- A page. With a fault, either the request for it or the reading of it fails. -/
structure Page where
  status : Int := 200
  body : ByteArray := .empty
  fault : Option Fault := none
  failsInReading : Bool := false

/-- **Pages by address.** Of two with one address the first is served. -/
abbrev Web := List (String × Page)

/-- What a request meets: it fails to open, or it opens with a status, and then its body can be read
or reading it fails. -/
inductive Exchange where
  | unopened (fault : Fault)
  | opened (status : Int) (body : Except Fault ByteArray)

/-- The exchange that a page makes. -/
def Page.exchange (page : Page) : Exchange :=
  match page.fault with
  | none => .opened page.status (.ok page.body)
  | some fault =>
    if page.failsInReading then .opened page.status (.error fault) else .unopened fault

/-- What is met where no page is. -/
def Web.noRoute : Fault := .failure .clientConnection "no route"

/-- What a request for an address meets. -/
def Web.exchange (web : Web) (url : String) : Exchange :=
  match web.lookup url with
  | some page => page.exchange
  | none => .unopened noRoute

/-- How a failed request for an address is told. -/
def Fault.ofRequest (url : String) : Fault → Fault
  | .failure kind text =>
    if kind.isTimeout then .refusal url "Timeout"
    else if kind.isClient then .refusal url (if text = "" then kind.name else text)
    else .failure kind text
  | fault => fault

/-- **The text that a request for an address gives.** The status counts before the body is read. -/
def Exchange.text (url : String) : Exchange → Except Fault String
  | .unopened fault => .error (fault.ofRequest url)
  | .opened status body =>
    if 400 ≤ status then .error (.refusal url s!"HTTP {status}")
    else match body with
      | .ok bytes => .ok (Text.Utf8.decodeBody bytes)
      | .error fault => .error (fault.ofRequest url)

end Blocklist
