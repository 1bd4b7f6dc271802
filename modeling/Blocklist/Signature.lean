import Blocklist.Json
import Blocklist.Moment

/-!
# Consent signatures

A consent manager asks visitors of a page for consent, and remembers the answer in a cookie. A
signature holds what is needed to recognise one, the cookie that a visitor gets who refused
everything optional, and what to hide of its banner.

* `oneTrustCookie`, `cookiebotCookie` — the two cookie values; the managers read them as they are,
  so every sign in them counts;
* `oneTrust`, `cookiebot` — the signatures;
* `signatures` — all of them, stamped with one instant.
-/

namespace Blocklist

structure Cookie where
  name : String
  value : String
deriving DecidableEq, Repr

/-- What is known of a consent manager. -/
structure Signature where
  id : String
  name : String
  detectors : List String
  cookie : Cookie
  hideSelectors : List String
deriving DecidableEq, Repr

/-- The form of a signature in a signature file. -/
def Signature.toJson (s : Signature) : Json :=
  .obj [("id", .str s.id), ("name", .str s.name), ("detectors", Json.ofStrings s.detectors),
    ("cookie", .obj [("name", .str s.cookie.name), ("value", .str s.cookie.value)]),
    ("hideSelectors", Json.ofStrings s.hideSelectors)]

/-- The text of a signature file. -/
def signatureFile (signatures : List Signature) : Json :=
  .arr (signatures.map Signature.toJson)

/-- The mark of consents that no visitor gave by hand. -/
def consentStamp : String := "ghost-rejector"

/-- The version of the manager that the cookie belongs to. -/
def oneTrustVersion : String := "202501.1.0"

/-- The groups of cookies: the strictly necessary are on; performance, functional and targeting are
off. -/
def oneTrustGroups : String := "1:1,2:0,3:0,4:0"

/-- The fields of the OneTrust cookie for a moment and its instant in seconds. -/
def oneTrustFields (now : Moment) (seconds : Int) : List (String × String) :=
  [("isGpcEnabled", "0"), ("datestamp", now.datestamp), ("version", oneTrustVersion),
    ("browserGpcFlag", "0"), ("isIABGlobal", "false"), ("hosts", ""),
    ("consentId", consentStamp ++ "-" ++ toString seconds), ("interactionCount", "1"),
    ("landingPath", "NotLandingPage"), ("groups", oneTrustGroups)]

/-- **The OneTrust cookie** of a moment: its fields as in the parameters of an address. -/
def oneTrustCookie (now : Moment) : Except MomentError String := do
  let now ← now.inUtc
  let seconds ← now.unixSeconds
  pure ("&".intercalate ((oneTrustFields now seconds).map fun (key, value) => key ++ "=" ++ value))

/-- The fields of the Cookiebot cookie for an instant in milliseconds. -/
def cookiebotFields (millis : Int) : List (String × String) :=
  [("stamp", "'" ++ consentStamp ++ "'"), ("necessary", "true"), ("preferences", "false"),
    ("statistics", "false"), ("marketing", "false"), ("method", "'explicit'"), ("ver", "1"),
    ("utc", toString millis), ("region", "'eu'")]

/-- **The Cookiebot cookie** of a moment: fields between braces, which is not quite JSON, as the
keys have no quotes and the texts have single ones. -/
def cookiebotCookie (now : Moment) : Except MomentError String := do
  let now ← now.inUtc
  let millis ← now.unixMillis
  pure ("\x7b" ++
    ",".intercalate ((cookiebotFields millis).map fun (key, value) => key ++ ":" ++ value) ++ "\x7d")

def oneTrust (now : Moment) : Except MomentError Signature :=
  (oneTrustCookie now).map fun value =>
    { id := "onetrust"
      name := "OneTrust"
      detectors :=
        ["window.OneTrust", "window.OptanonWrapper", "#onetrust-banner-sdk",
          "#onetrust-consent-sdk", ".optanon-alert-box-wrapper"]
      cookie := ⟨"OptanonConsent", value⟩
      hideSelectors :=
        ["#onetrust-banner-sdk", "#onetrust-consent-sdk", ".onetrust-pc-dark-filter",
          "#onetrust-pc-sdk", ".optanon-alert-box-wrapper", ".optanon-alert-box-bg",
          "div[class*='onetrust']", "div[id*='onetrust']", ".ot-sdk-container", ".ot-sdk-row"] }

def cookiebot (now : Moment) : Except MomentError Signature :=
  (cookiebotCookie now).map fun value =>
    { id := "cookiebot"
      name := "Cookiebot"
      detectors := ["window.Cookiebot", "#CybotCookiebotDialog", "#CookiebotWidget"]
      cookie := ⟨"CookieConsent", value⟩
      hideSelectors :=
        ["#CybotCookiebotDialog", "#CookiebotWidget", ".CybotCookiebotDialogBodyButton"] }

/-- **Every signature**, stamped with one moment. -/
def signatures (now : Moment) : Except MomentError (List Signature) := do
  let now ← now.inUtc
  let first ← oneTrust now
  let second ← cookiebot now
  pure [first, second]

end Blocklist
