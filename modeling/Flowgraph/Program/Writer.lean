import Flowgraph.Json.Access
import Flowgraph.Json.Writer
import Flowgraph.Program.Basic

/-!
# Writing programs

Optional slots that are not set are left out. The inputs, outputs and arguments are
written as objects; where one of them is not an object, nor lists the fields of one,
the program cannot be written.
-/
namespace Flowgraph

/-- A field that is left out where the value is null. -/
def presentField (name : String) : Json → Fields
  | .null => []
  | v => [(name, v)]

/-- A field that holds an object, left out where the value is null. -/
def objectField (name : String) : Json → Except Fault Fields
  | .null => .ok []
  | v => v.fields?.map fun fields => [(name, .obj fields)]

def RetryPolicy.toJson (p : RetryPolicy) : Json :=
  .obj [("strategy", .str p.strategy.name), ("max_attempts", .int p.maxAttempts)]

def EscalationPolicy.toJson (p : EscalationPolicy) : Json :=
  .obj [("on", .arr p.on), ("to_model_class", .str p.toModelClass.name)]

def OutputCheck.toJson : OutputCheck → Json
  | jsonSchema schema => .obj [("type", .str "json_schema"), ("schema", schema)]
  | invariant expr => .obj [("type", .str "invariant"), ("expr", expr)]

/-- A field that is left out where nothing is set. -/
def setField {α : Type} (name : String) (write : α → Json) : Option α → Fields
  | none => []
  | some a => [(name, write a)]

def ModelCall.fields (c : ModelCall) : Fields :=
  [("model_class", .str c.modelClass.name), ("prompt_template", c.promptTemplate),
    ("output_schema", c.outputSchema)] ++
  setField "validators" (fun checks => .arr (checks.map OutputCheck.toJson)) c.validators ++
  setField "retry_policy" RetryPolicy.toJson c.retryPolicy ++
  setField "escalation" EscalationPolicy.toJson c.escalation

def Action.fields : Action → Except Fault Fields
  | start | stop | switch => .ok []
  | llmWrite call => .ok call.fields
  | toolCall tool args => (objectField "args" args).map (("tool", tool) :: ·)
  | varSet target value => .ok [("target", target), ("value", value)]
  | varGet source => .ok [("source", source)]
  | transform kind expression =>
    .ok [("transformation", .str kind.name), ("expression", expression)]

def Step.toJson (s : Step) : Except Fault Json := do
  let inputs ← objectField "inputs" s.inputs
  let outputs ← objectField "outputs" s.outputs
  let fields ← s.action.fields
  return .obj ([("id", s.id), ("op", .str s.action.op.name)] ++ inputs ++ outputs ++ fields)

def Condition.toJson (c : Condition) : Json :=
  .obj (("op", .str c.op.name) :: (presentField "left" c.left ++ presentField "right" c.right))

def ProgramEdge.toJson (e : ProgramEdge) : Json :=
  .obj [("from", e.source), ("to", e.target), ("when", e.condition.toJson)]

namespace Program

def toJson (p : Program) : Except Fault Json := do
  let steps ← p.steps.mapM Step.toJson
  return .obj [("execir_version", p.version), ("entry_node", p.entry), ("nodes", .arr steps),
    ("edges", .arr (p.edges.map ProgramEdge.toJson))]

def toText (style : Json.Style) (p : Program) : Except Fault String :=
  p.toJson.map (Json.write style)

end Program
end Flowgraph
