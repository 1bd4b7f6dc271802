/-!
# Faults of fetching

What can go wrong while a list is fetched, as far as it makes a difference to what is reported.

* `Fault` — a refusal, which already names its location; another failure, of some kind; or the
  cancellation of all the work;
* `Fault.message` — the wording; `Fault.report?` — what is told of a location that failed.
-/

namespace Blocklist

/-- The kinds of failure that something else than fetching itself reports. -/
inductive FaultKind where
  | timeout
  | serverTimeout
  | client
  | clientConnection
  | serverDisconnected
  | clientPayload
  | system
  | runtime
  | value
  | decoding
  | mismatch
  | other (name : String)
  /-- A kind below another one: it counts as that one, under a name of its own. -/
  | derived (base : FaultKind) (name : String) (name_ne : name ≠ "")
deriving DecidableEq, Repr

namespace FaultKind

/-- The name of a kind, which stands in for a failure without a text. -/
def name : FaultKind → String
  | .timeout => "TimeoutError"
  | .serverTimeout => "ServerTimeoutError"
  | .client => "ClientError"
  | .clientConnection => "ClientConnectionError"
  | .serverDisconnected => "ServerDisconnectedError"
  | .clientPayload => "ClientPayloadError"
  | .system => "OSError"
  | .runtime => "RuntimeError"
  | .value => "ValueError"
  | .decoding => "UnicodeDecodeError"
  | .mismatch => "TypeError"
  | .other name => name
  | .derived _ name _ => name

/-- Whether a failure means that time ran out. -/
def isTimeout : FaultKind → Bool
  | .timeout | .serverTimeout => true
  | .derived base _ _ => base.isTimeout
  | _ => false

/-- Whether a failure is one of the connection. -/
def isClient : FaultKind → Bool
  | .serverTimeout | .client | .clientConnection | .serverDisconnected | .clientPayload => true
  | .derived base _ _ => base.isClient
  | _ => false

end FaultKind

/-- **What went wrong.** -/
inductive Fault where
  | refusal (location reason : String)
  | failure (kind : FaultKind) (text : String)
  | cancelled
deriving DecidableEq, Repr

namespace Fault

/-- A failure with its text; a server that hangs up without a word has a wording of its own. -/
def raised (kind : FaultKind) (text : String) : Fault :=
  if kind = .serverDisconnected ∧ text = "" then .failure kind "Server disconnected"
  else .failure kind text

def message : Fault → String
  | .refusal location reason => s!"{location}: {reason}"
  | .failure _ text => text
  | .cancelled => ""

/-- What is told of a location that failed: the reason of a refusal, the text of another failure or
else the name of its kind, and nothing where all the work is cancelled. -/
def report? : Fault → Option String
  | .refusal _ reason => some reason
  | .failure kind text => some (if text = "" then kind.name else text)
  | .cancelled => none

end Fault

end Blocklist
