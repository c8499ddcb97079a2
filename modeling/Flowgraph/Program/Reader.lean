import Flowgraph.Json.Access
import Flowgraph.Json.Reader
import Flowgraph.Program.Basic

/-!
# Reading programs

Fields are looked up one after the other and the first one that cannot be read ends the
reading. Only what decides the shape of a program is checked: its operations, classes,
strategies, kinds, attempts and conditions.
-/
namespace Flowgraph

def RetryPolicy.ofJson (v : Json) : Except Fault RetryPolicy := do
  let strategy ← (← v.item "strategy").choose "RetryStrategy" RetryStrategy.ofName?
  let attempts ← (← v.item "max_attempts").toInteger
  if h : 1 ≤ attempts then return ⟨strategy, attempts, h⟩ else throw .attempts

def ModelClass.read (v : Json) : Except Fault ModelClass :=
  v.choose "ModelClass" ofName?

def EscalationPolicy.ofJson (v : Json) : Except Fault EscalationPolicy := do
  let on ← (← v.item "on").members
  let target ← ModelClass.read (← v.item "to_model_class")
  return ⟨on, target⟩

def OutputCheck.typeOf? (s : String) : Option Bool :=
  if s == "json_schema" then some true
  else if s == "invariant" then some false
  else none

def OutputCheck.ofJson (v : Json) : Except Fault OutputCheck := do
  let schematic ← (← v.item "type").choose "ValidatorType" OutputCheck.typeOf?
  if schematic then return .jsonSchema (← v.item "schema")
  else return .invariant (← v.item "expr")

/-- Reads a value unless it is null. -/
def unlessNull {α : Type} (read : Json → Except Fault α) : Json → Except Fault (Option α)
  | .null => .ok none
  | v => (read v).map some

def readMembers {α : Type} (read : Json → Except Fault α) (v : Json) : Except Fault (List α) := do
  (← v.members).mapM read

def ModelCall.ofJson (v : Json) : Except Fault ModelCall := do
  let modelClass ← ModelClass.read (← v.item "model_class")
  let promptTemplate ← v.item "prompt_template"
  let outputSchema ← v.item "output_schema"
  let validators ← unlessNull (readMembers OutputCheck.ofJson) (← v.findD "validators")
  let retryPolicy ← unlessNull RetryPolicy.ofJson (← v.findD "retry_policy")
  let escalation ← unlessNull EscalationPolicy.ofJson (← v.findD "escalation")
  return { modelClass, promptTemplate, outputSchema, validators, retryPolicy, escalation }

def Action.ofJson (v : Json) : Op → Except Fault Action
  | .start => return .start
  | .stop => return .stop
  | .llmWrite => return .llmWrite (← ModelCall.ofJson v)
  | .switch => return .switch
  | .toolCall => return .toolCall (← v.item "tool") (← v.findD "args")
  | .varSet => return .varSet (← v.item "target") (← v.findD "value")
  | .varGet => return .varGet (← v.item "source")
  | .transform => do
    let kind ← (← v.item "transformation").choose "TransformKind" TransformKind.ofName?
    return .transform kind (← v.item "expression")

def Step.ofJson (v : Json) : Except Fault Step := do
  let op ← (← v.item "op").choose "ExecOp" Op.ofName?
  let id ← v.item "id"
  let inputs ← v.findD "inputs"
  let outputs ← v.findD "outputs"
  let action ← Action.ofJson v op
  return { id, inputs, outputs, action }

def Condition.ofJson (v : Json) : Except Fault Condition := do
  let op ← (← v.item "op").choose "ConditionOp" ConditionOp.ofName?
  return ⟨op, ← v.findD "left", ← v.findD "right"⟩

def ProgramEdge.ofJson (v : Json) : Except Fault ProgramEdge := do
  let source ← v.item "from"
  let target ← v.item "to"
  match ← v.find "when" with
  | some condition => return ⟨source, target, ← Condition.ofJson condition⟩
  | none => return ⟨source, target, .always⟩

namespace Program

/-- The members of a field, none where the field is missing. -/
def membersOf (v : Json) (key : String) : Except Fault (List Json) := do
  match ← v.find key with
  | some items => items.members
  | none => return []

def ofJson (v : Json) : Except Fault Program := do
  let version ← v.item "execir_version"
  let entry ← v.item "entry_node"
  let steps ← (← membersOf v "nodes").mapM Step.ofJson
  let edges ← (← membersOf v "edges").mapM ProgramEdge.ofJson
  return ⟨version, entry, steps, edges⟩

/-- A program from its text, whose values are nested at most to a limit. -/
def ofTextWithin (limit : Nat) (s : String) : Except Fault Program :=
  match Json.readWithin limit s with
  | .ok v => ofJson v
  | .error .tooDeep => .error .tooDeep
  | .error .halfPair => .error .halfPair
  | .error (.malformed _) => .error .badJson

def ofText (s : String) : Except Fault Program :=
  ofTextWithin Json.nestingLimit s

end Program
end Flowgraph
