import Flowgraph.Json.Access
import Flowgraph.Redaction.SensitiveKey

/-!
# Redaction

What of a value may be shown in an event. A value is either hidden as a whole, or its
sensitive entries are hidden, credentials in its texts are scrubbed, and the rest is
summarised: arrays and objects by their shape, texts by their beginning. Scrubbing comes
before cutting. The level and the reason are reported when something was hidden.
-/
namespace Flowgraph

inductive RedactionLevel where
  | none
  | partly
  | fully
deriving DecidableEq, Repr

namespace RedactionLevel

def all : List RedactionLevel := [none, partly, fully]

def name : RedactionLevel → String
  | none => "none"
  | partly => "partial"
  | fully => "full"

def ofName? (s : String) : Option RedactionLevel :=
  all.find? (·.name == s)

def read (v : Json) : Except Fault RedactionLevel :=
  v.choose "RedactionLevel" ofName?

end RedactionLevel

structure Redacted where
  value : Json
  level : RedactionLevel := .none
  isRedacted : Bool := false
  reason : Option String := none

def Redacted.toJson (r : Redacted) : Json :=
  .obj ([("value", r.value), ("redactionLevel", .str r.level.name),
    ("isRedacted", .bool r.isRedacted)] ++
    match r.reason with
    | some reason => [("redactionReason", .str reason)]
    | none => [])

namespace Redaction

def hidden : Json := .str "[REDACTED]"

def defaultReason : String := "sensitive-by-default"

def shownKeys : Nat := 8

/-- The characters before a position, which counts from the end where it is negative. -/
def before (s : List Char) (stop : Int) : List Char :=
  s.take (if stop < 0 then stop + Int.ofNat s.length else stop).toNat

/-- A text of at most `limit` characters, or its beginning and an ellipsis. -/
def shorten (limit : Int) (s : String) : String :=
  if limit < Int.ofNat s.length then String.ofList (before s.toList (limit - 3) ++ "...".toList)
  else s

/-- The shape of an array or an object, the beginning of a text, any other value itself. -/
def summarize (limit : Int) : Json → Json
  | .arr items => .obj [("kind", .str "array"), ("length", .nat items.length)]
  | .obj fields =>
    .obj [("kind", .str "object"), ("keys", .texts ((fields.map (·.1)).take shownKeys)),
      ("keyCount", .nat fields.length)]
  | .str s => .str (shorten limit s)
  | v => v

def hasCredential : Json → Bool
  | .str s => Credential.occurs s
  | _ => false

/-- The summary of a value whose credentials are scrubbed. -/
def summarizeScrubbed (limit : Int) : Json → Json
  | .str s => summarize limit (.str (Credential.scrub s))
  | v => summarize limit v

/-- What is shown of an object's field. -/
def redactField (limit : Int) (key : String) (v : Json) : Json :=
  if SensitiveKey.isSensitive key then hidden else summarizeScrubbed limit v

/-- Whether something of a field is hidden. -/
def hidesField (key : String) (v : Json) : Bool :=
  SensitiveKey.isSensitive key || hasCredential v

def givenReason (reason : Option String) : String :=
  match reason with
  | some s => if s.isEmpty then defaultReason else s
  | none => defaultReason

/-- A redacted value with the report of whether something was hidden. -/
def report (level : RedactionLevel) (reason : Option String) (hit : Bool) (v : Json) : Redacted :=
  if hit then ⟨v, level, true, some (givenReason reason)⟩ else ⟨v, .none, false, none⟩

/-- Hides a value as a whole. -/
def hide (reason : Option String) : Redacted :=
  ⟨hidden, .fully, true, some (givenReason reason)⟩

/-- Hides what is sensitive in a value and summarises the rest. -/
def redact (limit : Int) (level : RedactionLevel) (reason : Option String) : Json → Redacted
  | .obj fields =>
    report level reason (fields.any fun (k, v) => hidesField k v)
      (.obj (fields.map fun (k, v) => (k, redactField limit k v)))
  | v => report level reason (hasCredential v) (summarizeScrubbed limit v)

/-- Whether the limit on texts is asked for: not for an object whose keys are all sensitive. -/
def needsLimit : Json → Bool
  | .obj fields => fields.any fun (k, _) => !SensitiveKey.isSensitive k
  | _ => true

end Redaction
end Flowgraph
