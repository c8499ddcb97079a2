import Flowgraph.Json.Access
import Flowgraph.Text.Case
import Flowgraph.Text.Occurrence

/-!
# Failures of a provider

A failure is classified by its status and its error code, class by class: failed
authentication, then exceeded rates, then timeouts, then malformed output. Only exceeded
rates and timeouts are worth another try.
-/
namespace Flowgraph

inductive FailureClass where
  | auth
  | rateLimit
  | timeout
  | malformedOutput
  | unknown
deriving DecidableEq, Repr

namespace FailureClass

def name : FailureClass → String
  | auth => "auth"
  | rateLimit => "rate_limit"
  | timeout => "timeout"
  | malformedOutput => "malformed_output"
  | unknown => "unknown"

def retryable : FailureClass → Bool
  | rateLimit | timeout => true
  | _ => false

end FailureClass

inductive Provider where
  | openai
  | anthropic
  | unknown
deriving DecidableEq, Repr

def Provider.name : Provider → String
  | openai => "openai"
  | anthropic => "anthropic"
  | unknown => "unknown"

structure ProviderFailure where
  code : FailureClass
  provider : Provider
  status : Option Int
deriving DecidableEq, Repr

namespace ProviderFailure

def retryable (f : ProviderFailure) : Bool :=
  f.code.retryable

def toJson (f : ProviderFailure) : Json :=
  .obj ([("code", .str f.code.name), ("provider", .str f.provider.name),
    ("retryable", .bool f.retryable)] ++
    match f.status with
    | some n => [("statusCode", .int n)]
    | none => [])

/-- A status given as an integer or as a text of digits. -/
def statusOf : Json → Except Fault (Option Int)
  | .int n => .ok (some n)
  | .str s =>
    let digits := Text.trimBy Text.isBlank s.toList
    if !digits.isEmpty && digits.all Text.isDigit then
      (Json.readInteger (String.ofList digits)).map some
    else .ok none
  | _ => .ok none

/-- The provider that a name tells of; the name must be a text unless it counts as absent. -/
def providerOf (v : Json) : Except Fault Provider :=
  let ofText (s : List Char) : Provider :=
    if Text.occursIn "openai".toList s then .openai
    else if Text.occursIn "anthropic".toList s || Text.occursIn "claude".toList s then .anthropic
    else .unknown
  match v with
  | .str s => .ok (ofText (Text.lower s.toList))
  | v => if v.truthy then .error (.noAttribute v.kind "lower") else .ok .unknown

/-- The small letters of an error code; empty where it is no text. -/
def codeOf : Json → String
  | .str s => String.ofList (Text.lower s.toList)
  | _ => ""

def authCodes : List String :=
  ["auth", "unauthorized", "invalid_api_key", "authentication_error", "permission_denied"]

def rateLimitCodes : List String :=
  ["rate_limit", "rate_limit_exceeded", "rate_limit_error"]

def malformedCodes : List String :=
  ["malformed_output", "invalid_response", "malformed"]

def classOf (status : Option Int) (code : String) : FailureClass :=
  if status = some 401 || status = some 403 || authCodes.contains code then .auth
  else if status = some 429 || rateLimitCodes.contains code then .rateLimit
  else if status = some 408 || status = some 504 ||
      Text.occursIn "timeout".toList code.toList || code == "etimedout" then .timeout
  else if malformedCodes.contains code then .malformedOutput
  else .unknown

def classify (status code provider : Json) : Except Fault ProviderFailure := do
  let status ← statusOf status
  let provider ← providerOf provider
  return ⟨classOf status (codeOf code), provider, status⟩

end ProviderFailure
end Flowgraph
