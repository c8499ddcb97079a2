import Flowgraph.Catalog.Model
import Flowgraph.Json.Reader
import Flowgraph.Workflow.Reader

/-!
# Requests

A request has a method, a path and the text of its body. A body is read first and
checked field by field then; what is wrong with it is told with its place in the body.
What a body comes to in whose texts half a surrogate pair stands is not told.
-/
namespace Flowgraph

structure Request where
  method : String
  path : String
  body : String
deriving DecidableEq, Repr

/-- What is asked for a compilation. -/
structure CompileOrder where
  workflow : Workflow
  modelId : String
  target : String

/-- The events of a run that are to be mapped. -/
structure MapOrder where
  runId : String
  events : List Json

namespace Request

open Checked

def bodyPlace : Place := .field "body"

/-- Checks a value that is the body. -/
def inBody {α : Type} (x : Checked α) : Checked α :=
  under bodyPlace x

inductive BodyError where
  | invalid (issues : List Issue)
  | unreadable
  | halfPair
deriving DecidableEq, Repr

def dropMark (s : String) : String :=
  match s.toList with
  | c :: rest => if c.toNat = 65279 then String.ofList rest else s
  | [] => s

/-- The value that a body holds. -/
def readBody (body : String) : Except BodyError Json :=
  if body.isEmpty then .error (.invalid [⟨.missing, [bodyPlace]⟩])
  else
    let text := dropMark body
    match Json.read text with
    | .ok v => .ok v
    | .error .tooDeep => .error .unreadable
    | .error .halfPair => .error .halfPair
    | .error (.malformed remaining) =>
      .error (.invalid [⟨.brokenJson, [bodyPlace, .index (text.length - remaining)]⟩])

def checkWorkflow (now : String) (v : Json) : Checked Workflow :=
  inBody (Workflow.check .body now v)

def checkObject (v : Json) : Checked Fields :=
  inBody (object v)

def workflowField (now : String) (fields : Fields) : Checked Workflow :=
  field fields "workflow" none (Workflow.check .body now)

def checkLower (now : String) (v : Json) : Checked Workflow :=
  inBody (record .body "LowerRequest" (workflowField now) v)

def checkCompile (now : String) (v : Json) : Checked CompileOrder :=
  inBody (record .body "CompileRequest" (fun fields =>
    ap (ap (ap (.ok CompileOrder.mk)
      (workflowField now fields))
      (fieldOr fields "modelId" "model_id" none text))
      (field fields "target" none text)) v)

def checkEvents : Json → Checked (List Json)
  | .arr items => itemsFrom (fun v => (object v).map .obj) 0 items
  | _ => issue .notArray

def checkMapping (v : Json) : Checked MapOrder :=
  inBody (record .body "MapEventsRequest" (fun fields =>
    ap (ap (.ok MapOrder.mk)
      (fieldOr fields "runId" "run_id" none nonemptyText))
      (field fields "events" (some []) checkEvents)) v)

end Request
end Flowgraph
