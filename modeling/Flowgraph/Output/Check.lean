import Flowgraph.Output.Membership
import Flowgraph.Program.Basic
import Flowgraph.Schema.Metaschema
import Flowgraph.State.Store

/-!
# Checking outputs

The output of a step is accepted when all checks of the step accept it. A schema stands
in the check or is named by it; every violation of a schema is told with its place. What
is neither an object nor a truth value is no schema, and a schema that is not well formed
is told of by the first thing that is wrong with it.
-/
namespace Flowgraph

inductive OutputError where
  | unknownSchema (id : String)
  | notSchema
  | malformedSchema (message : String)
  | violation (v : Violation)
  | invariant (expr : Json)
deriving Repr

namespace OutputError

def type : OutputError → String
  | invariant _ => "invariant"
  | _ => "schema"

def message : OutputError → String
  | unknownSchema id => "Unknown schema: " ++ id
  | notSchema => "Invalid schema: expected an object"
  | malformedSchema message => "Invalid schema: " ++ message
  | violation v => v.message
  | invariant expr => "Invariant failed: " ++ expr.display

/-- A path with a slash before every part. -/
def slashed (path : List String) : String :=
  String.join (path.map ("/" ++ ·))

def path? : OutputError → Option String
  | violation v => some (slashed v.path)
  | _ => none

def toJson (e : OutputError) : Json :=
  .obj ([("type", .str e.type), ("message", .str e.message)] ++
    match e.path? with
    | some path => [("path", .str path)]
    | none => [])

end OutputError

def Step.outputChecks (s : Step) : List OutputCheck :=
  match s.action with
  | .llmWrite call => call.validators.getD []
  | _ => []

namespace OutputCheck

/-- What is wrong with an output under a schema that may not be one. -/
def schemaErrors (schema output : Json) : Except Fault (List OutputError) :=
  match schema with
  | .obj _ | .bool _ => do
    let draft ← Draft.ofSchema .latest schema
    match ← Schema.firstError draft schema with
    | some message => return [.malformedSchema message]
    | none => return (← Schema.violations draft schema output).map .violation
  | _ => .ok [.notSchema]

/-- What a check finds wrong with an output; schemas that are named are looked up. -/
def errors (schemas : Fields) (output input : Json) : OutputCheck → Except Fault (List OutputError)
  | .jsonSchema (.str id) =>
    match schemas.get? id with
    | some schema => schemaErrors schema output
    | none => .ok [.unknownSchema id]
  | .jsonSchema schema => schemaErrors schema output
  | .invariant expr => do
    if !expr.truthy then return []
    else if ← invariantHolds expr output input then return []
    else return [.invariant expr]

end OutputCheck

/-- What the checks of a step find wrong with its output, check by check. -/
def Step.outputErrors (s : Step) (schemas : Fields) (output input : Json) :
    Except Fault (List OutputError) := do
  let input := Store.objectIfAbsent input
  let found ← s.outputChecks.mapM (OutputCheck.errors schemas output input)
  return found.flatten

def outputReport (errors : List OutputError) : Json :=
  .obj [("valid", .bool errors.isEmpty), ("errors", .arr (errors.map OutputError.toJson))]

end Flowgraph
