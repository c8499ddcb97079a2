import Flowgraph.Json.Basic
import Flowgraph.Workflow.Issue

/-!
# Replies

What the service answers: a value, a refusal with its reason, the issues of a body, or
that it failed. A value is sent by an encoder, which may refuse it; the encoder is a
parameter.
-/
namespace Flowgraph

namespace Json

mutual

/-- Whether every number of a value is finite. -/
def isFinite : Json → Bool
  | .float x => x.isFinite
  | .arr items => itemsFinite items
  | .obj fields => fieldsFinite fields
  | _ => true

def itemsFinite : List Json → Bool
  | [] => true
  | v :: rest => isFinite v && itemsFinite rest

def fieldsFinite : List (String × Json) → Bool
  | [] => true
  | (_, v) :: rest => isFinite v && fieldsFinite rest

end

end Json

inductive Reply where
  | value (v : Json)
  | refused (status : Nat) (detail : Json)
  | invalid (issues : List Issue)
  | failed
deriving Repr

namespace Reply

def status : Reply → Nat
  | value _ => 200
  | refused status _ => status
  | invalid _ => 422
  | failed => 500

def refusedText (status : Nat) (detail : String) : Reply :=
  refused status (.str detail)

def notFound : Reply := refusedText 404 "Not Found"

def notAllowed : Reply := refusedText 405 "Method Not Allowed"

/-- Whether a value can be sent. -/
abbrev Encoder := Json → Bool

/-- A value, or a failure where it cannot be sent. -/
def ofValue (encoder : Encoder) (v : Json) : Reply :=
  if encoder v then value v else failed

end Reply
end Flowgraph
