import Blocklist.Proofs.Isolation

/-!
# What becomes of a page

The fetch of a page is to give its text, or a refusal that names the page and gives a reason. A page
that opens with a status below 400 and can be read has a text. A status from 400 up is a refusal,
before the body is looked at. What else can go wrong with a request are failures of three kinds,
which overlap: time runs out, the connection fails, or the system reports an error.

The first two kinds are told as refusals. A failure of the system that is of neither of them is not:
it is the only one that comes out of the fetch as it went in, without the name of the page.

* `FaultKind.FailsRequests` — the kinds of failure that a request may meet;
  `FaultKind.isSystemOnly` — those of the system alone;
* `Exchange.Promises` — what the fetch of a page is to come to, by the exchange it makes;
* `Exchange.EndsWith` — the failure that ends an exchange;
* `fetchLocation_promised_iff` — the main statement: a fetch comes to what was promised, unless a
  failure of the system alone ends the exchange.
-/

namespace Blocklist

/-! ### Kinds of failure -/

namespace FaultKind

/-- Whether a failure is one of the system. That time ran out is one, too. -/
def isSystem : FaultKind → Bool
  | .timeout | .serverTimeout | .system => true
  | .derived base _ _ => base.isSystem
  | _ => false

/-- **Whether a request may fail in this way**: time runs out, the connection fails, or the system
reports an error. -/
def FailsRequests (kind : FaultKind) : Prop :=
  kind.isTimeout = true ∨ kind.isClient = true ∨ kind.isSystem = true

/-- Whether a failure is one of the system and of nothing else. -/
def isSystemOnly (kind : FaultKind) : Bool :=
  kind.isSystem && !kind.isTimeout && !kind.isClient

/-- The name of a failure of the connection can stand in for its text. -/
theorem name_ne_empty_of_isClient {kind : FaultKind} (h : kind.isClient = true) :
    kind.name ≠ "" := by
  cases kind with
  | serverTimeout => decide
  | client => decide
  | clientConnection => decide
  | serverDisconnected => decide
  | clientPayload => decide
  -- a kind below another has a name of its own, which is never empty
  | derived base name name_ne => exact name_ne
  | _ => cases h

end FaultKind

/-! ### Failures of requests -/

namespace Fault

/-- **A failure of the system alone stays as it is.** -/
theorem ofRequest_of_isSystemOnly {kind : FaultKind} (h : kind.isSystemOnly = true)
    (url text : String) : ofRequest url (.failure kind text) = .failure kind text := by
  simp only [FaultKind.isSystemOnly, Bool.and_eq_true, Bool.not_eq_true'] at h
  obtain ⟨⟨-, htimeout⟩, hclient⟩ := h
  simp only [ofRequest, htimeout, hclient, Bool.false_eq_true, if_false]

/-- **Every other failure of a request is refused**, and there is a reason even if it has no
text. -/
theorem exists_ofRequest_eq_refusal {kind : FaultKind} (hkind : kind.FailsRequests)
    (h : kind.isSystemOnly = false) (url text : String) :
    ∃ reason, reason ≠ "" ∧ ofRequest url (.failure kind text) = .refusal url reason := by
  by_cases htimeout : kind.isTimeout = true
  · -- that time ran out counts before everything else
    refine ⟨"Timeout", by decide, ?_⟩
    simp only [ofRequest, htimeout, if_true]
  · have hclient : kind.isClient = true := by
      rcases hkind with htime | hclient | hsystem
      · exact absurd htime htimeout
      · exact hclient
      · -- a failure of the system is of another kind as well, or it would be of the system alone
        by_contra hclient
        simp [FaultKind.isSystemOnly, hsystem, htimeout, hclient] at h
    -- a failure of the connection gives its text as the reason, or else its name
    refine ⟨if text = "" then kind.name else text, ?_, ?_⟩
    · split
      · exact FaultKind.name_ne_empty_of_isClient hclient
      · assumption
    · simp only [ofRequest, htimeout, hclient, Bool.false_eq_true, if_false, if_true]

end Fault

/-! ### Exchanges -/

namespace Exchange

/-- **What the fetch of a page is to come to**: the text, where the page opens with a status below
400 and can be read, and else a refusal that names the page, with a reason. A status from 400 up is
the reason, whatever becomes of the body. -/
inductive Promises (url : String) : Exchange → Except Fault String → Prop where
  | text {status : Int} {bytes : ByteArray} (hstatus : status < 400) :
    Promises url (.opened status (.ok bytes)) (.ok (Text.Utf8.decodeBody bytes))
  | status {status : Int} {body : Except Fault ByteArray} (hstatus : 400 ≤ status) :
    Promises url (.opened status body) (.error (.refusal url s!"HTTP {status}"))
  | unread {status : Int} {fault : Fault} {reason : String} (hstatus : status < 400)
      (hreason : reason ≠ "") :
    Promises url (.opened status (.error fault)) (.error (.refusal url reason))
  | unopened {fault : Fault} {reason : String} (hreason : reason ≠ "") :
    Promises url (.unopened fault) (.error (.refusal url reason))

/-- **The failure that ends an exchange.** Behind a status from 400 up nothing is read, so that
nothing fails. -/
inductive EndsWith : Exchange → Fault → Prop where
  | unopened (fault : Fault) : EndsWith (.unopened fault) fault
  | unread {status : Int} (fault : Fault) (hstatus : status < 400) :
    EndsWith (.opened status (.error fault)) fault

/-- Whether an exchange meets no other failures than requests do. -/
def Ordinary (exchange : Exchange) : Prop :=
  ∀ fault ∈ exchange.fault?, ∃ kind text, fault = .failure kind text ∧ kind.FailsRequests

/-- Whether a failure of the system alone ends an exchange. -/
def EndsInSystem (exchange : Exchange) : Prop :=
  ∃ kind text, exchange.EndsWith (.failure kind text) ∧ kind.isSystemOnly = true

variable {exchange : Exchange}

/-- What ends an exchange is told as failures of requests are. -/
theorem text_of_endsWith {fault : Fault} (h : exchange.EndsWith fault) (url : String) :
    exchange.text url = .error (fault.ofRequest url) := by
  cases h with
  | unopened => rfl
  | unread _ hstatus =>
    show (if _ then _ else _) = _
    -- a status below 400 does not end it
    rw [if_neg (Int.not_le.mpr hstatus)]

/-- **A failure of the system alone comes out as it is.** -/
theorem text_of_isSystemOnly {kind : FaultKind} {text : String}
    (h : exchange.EndsWith (.failure kind text)) (hkind : kind.isSystemOnly = true) (url : String) :
    exchange.text url = .error (.failure kind text) := by
  rw [text_of_endsWith h, Fault.ofRequest_of_isSystemOnly hkind]

/-- A failure that is not of the system alone is refused. -/
theorem exists_text_eq_refusal {fault : Fault} (h : exchange.EndsWith fault)
    (hfault : ∃ kind text, fault = .failure kind text ∧ kind.FailsRequests)
    (hsystem : ¬ exchange.EndsInSystem) (url : String) :
    ∃ reason, reason ≠ "" ∧ exchange.text url = .error (.refusal url reason) := by
  obtain ⟨kind, text, rfl, hkind⟩ := hfault
  -- it would end the exchange in the system otherwise
  have hother : kind.isSystemOnly = false := by
    rw [← Bool.not_eq_true]
    intro honly
    exact hsystem ⟨kind, text, h, honly⟩
  obtain ⟨reason, hreason, hrefusal⟩ := Fault.exists_ofRequest_eq_refusal hkind hother url text
  refine ⟨reason, hreason, ?_⟩
  rw [text_of_endsWith h, hrefusal]

/-- **The promise is kept** where no failure of the system alone ends the exchange. -/
theorem promises_text (hordinary : exchange.Ordinary) (hsystem : ¬ exchange.EndsInSystem)
    (url : String) : exchange.Promises url (exchange.text url) := by
  cases exchange with
  | unopened fault =>
    obtain ⟨reason, hreason, htext⟩ :=
      exists_text_eq_refusal (.unopened fault) (hordinary fault rfl) hsystem url
    rw [htext]
    exact .unopened hreason
  | opened status body =>
    by_cases hstatus : 400 ≤ status
    · -- the status counts before the body
      have htext : (opened status body).text url = .error (.refusal url s!"HTTP {status}") :=
        if_pos hstatus
      rw [htext]
      exact .status hstatus
    · -- the page is read, and only reading it can fail
      have hbelow : status < 400 := Int.not_le.mp hstatus
      cases body with
      | ok bytes =>
        have htext : (opened status (.ok bytes)).text url = .ok (Text.Utf8.decodeBody bytes) :=
          if_neg hstatus
        rw [htext]
        exact .text hbelow
      | error fault =>
        obtain ⟨reason, hreason, htext⟩ :=
          exists_text_eq_refusal (.unread fault hbelow) (hordinary fault rfl) hsystem url
        rw [htext]
        exact .unread hbelow hreason

/-- Nobody is promised a failure as it is. -/
theorem not_promises_failure (url : String) (kind : FaultKind) (text : String) :
    ¬ exchange.Promises url (.error (.failure kind text)) := by
  intro h
  cases h

end Exchange

/-! ### The main statement -/

/-- With a session, the fetch of a page is its exchange. -/
theorem fetchLocation_of_page {reach : Reach} {location : String}
    (hpage : Location.isHttp location = .ok true) :
    fetchLocation reach true location = (reach.web.exchange location).text location := by
  unfold fetchLocation
  rw [hpage]
  rfl

/-- Without a session, every page is refused. -/
theorem fetchLocation_of_page_of_no_session {reach : Reach} {location : String}
    (hpage : Location.isHttp location = .ok true) :
    fetchLocation reach false location
      = .error (.refusal location "no HTTP session available") := by
  unfold fetchLocation
  rw [hpage]
  rfl

/-- **When the fetch of a page comes to what was promised.** Let a request for it fail in no other
way than requests do. Without a session the page is refused. With one, it comes to what was promised
exactly if no failure of the system alone ends the exchange. Such a failure, whether it comes up
before the page has opened or while it is read, comes out as it went in: it is not refused, and does
not name the page. -/
theorem fetchLocation_promised_iff {reach : Reach} {location : String}
    (hpage : Location.isHttp location = .ok true)
    (hordinary : (reach.web.exchange location).Ordinary) :
    (∃ reason, reason ≠ "" ∧
      fetchLocation reach false location = .error (.refusal location reason)) ∧
    ((reach.web.exchange location).Promises location (fetchLocation reach true location) ↔
      ¬ (reach.web.exchange location).EndsInSystem) ∧
    (∀ kind text, (reach.web.exchange location).EndsWith (.failure kind text) →
      kind.isSystemOnly = true →
        fetchLocation reach true location = .error (.failure kind text)) := by
  rw [fetchLocation_of_page hpage]
  refine ⟨⟨_, by decide, fetchLocation_of_page_of_no_session hpage⟩, ⟨?_, ?_⟩, ?_⟩
  · -- what comes out as it went in is no refusal
    rintro hpromised ⟨kind, text, hends, hkind⟩
    rw [Exchange.text_of_isSystemOnly hends hkind] at hpromised
    exact Exchange.not_promises_failure location kind text hpromised
  · intro hsystem
    exact Exchange.promises_text hordinary hsystem location
  · intro kind text hends hkind
    exact Exchange.text_of_isSystemOnly hends hkind location

/-- A page that answers with 503 and could not be read either, and one that cannot be reached. -/
def unreachableReach : Reach :=
  { web := [
      ("http://a.test/",
        { status := 503, fault := some (.failure .system "reset"), failsInReading := true }),
      ("http://b.test/", { fault := some (.failure .system "Network is unreachable") })] }

/-- The first is refused by its status. The second is not refused. -/
theorem fetchLocation_promised_iff_unreachable :
    Location.isHttp "http://a.test/" = .ok true ∧ Location.isHttp "http://b.test/" = .ok true ∧
    (unreachableReach.web.exchange "http://a.test/").Ordinary ∧
    (unreachableReach.web.exchange "http://b.test/").Ordinary ∧
    (unreachableReach.web.exchange "http://a.test/").Promises "http://a.test/"
      (fetchLocation unreachableReach true "http://a.test/") ∧
    ¬ (unreachableReach.web.exchange "http://b.test/").Promises "http://b.test/"
      (fetchLocation unreachableReach true "http://b.test/") ∧
    fetchLocation unreachableReach true "http://b.test/"
      = .error (.failure .system "Network is unreachable") := by
  have hpage : Location.isHttp "http://a.test/" = .ok true := by decide
  have hpage' : Location.isHttp "http://b.test/" = .ok true := by decide
  -- both failures are of the system alone, but the first comes up behind the status
  have hexchange : unreachableReach.web.exchange "http://a.test/"
      = .opened 503 (.error (.failure .system "reset")) := rfl
  have hexchange' : unreachableReach.web.exchange "http://b.test/"
      = .unopened (.failure .system "Network is unreachable") := rfl
  have hordinary : (unreachableReach.web.exchange "http://a.test/").Ordinary := by
    rw [hexchange]
    rintro fault ⟨⟩
    exact ⟨.system, "reset", rfl, .inr (.inr rfl)⟩
  have hordinary' : (unreachableReach.web.exchange "http://b.test/").Ordinary := by
    rw [hexchange']
    rintro fault ⟨⟩
    exact ⟨.system, "Network is unreachable", rfl, .inr (.inr rfl)⟩
  have hends : (unreachableReach.web.exchange "http://b.test/").EndsWith
      (.failure .system "Network is unreachable") := by
    rw [hexchange']
    exact .unopened _
  obtain ⟨-, hkept, -⟩ := fetchLocation_promised_iff hpage hordinary
  obtain ⟨-, hbroken, hfailure⟩ := fetchLocation_promised_iff hpage' hordinary'
  refine ⟨hpage, hpage', hordinary, hordinary', hkept.mpr ?_, ?_, hfailure _ _ hends rfl⟩
  · -- behind the status nothing is read
    rintro ⟨kind, text, hends, -⟩
    rw [hexchange] at hends
    cases hends with
    | unread _ hstatus => exact absurd hstatus (by decide)
  · intro hpromised
    exact hbroken.mp hpromised ⟨.system, _, hends, rfl⟩

end Blocklist
