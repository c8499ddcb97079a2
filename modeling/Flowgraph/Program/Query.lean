import Flowgraph.Program.Basic
import Flowgraph.State.Ref

/-!
# Asking about programs

Steps and edges by id, equality of programs by value, and the slots that must hold state
references: every output, the target of an assignment, the source of a read, what a
switch and a transformation look at, and an assigned text that begins with a dollar sign.
-/
namespace Flowgraph

def OutputCheck.alike : OutputCheck → OutputCheck → Bool
  | jsonSchema a, jsonSchema b => a.alike b
  | invariant a, invariant b => a.alike b
  | _, _ => false

def allPairs {α : Type} (same : α → α → Bool) : List α → List α → Bool
  | [], [] => true
  | a :: as, b :: bs => same a b && allPairs same as bs
  | _, _ => false

def bothOrNone {α : Type} (same : α → α → Bool) : Option α → Option α → Bool
  | none, none => true
  | some a, some b => same a b
  | _, _ => false

def EscalationPolicy.alike (p q : EscalationPolicy) : Bool :=
  Json.allAlike p.on q.on && p.toModelClass == q.toModelClass

def ModelCall.alike (c d : ModelCall) : Bool :=
  c.modelClass == d.modelClass && c.promptTemplate.alike d.promptTemplate &&
    c.outputSchema.alike d.outputSchema &&
    bothOrNone (allPairs OutputCheck.alike) c.validators d.validators &&
    c.retryPolicy == d.retryPolicy && bothOrNone EscalationPolicy.alike c.escalation d.escalation

def Action.alike : Action → Action → Bool
  | start, start | stop, stop | switch, switch => true
  | llmWrite c, llmWrite d => c.alike d
  | toolCall t a, toolCall u b => t.alike u && a.alike b
  | varSet t v, varSet u w => t.alike u && v.alike w
  | varGet s, varGet t => s.alike t
  | transform k e, transform l f => k == l && e.alike f
  | _, _ => false

def Step.alike (s t : Step) : Bool :=
  s.id.alike t.id && s.inputs.alike t.inputs && s.outputs.alike t.outputs &&
    s.action.alike t.action

def Condition.alike (c d : Condition) : Bool :=
  c.op == d.op && c.left.alike d.left && c.right.alike d.right

def ProgramEdge.alike (e f : ProgramEdge) : Bool :=
  e.source.alike f.source && e.target.alike f.target && e.condition.alike f.condition

/-- The values of an object's fields, none where the value counts as absent. -/
def valuesOf (v : Json) : Except Fault (List Json) :=
  match v with
  | .obj fields => .ok (fields.map (·.2))
  | v => if v.truthy then .error (.noAttribute v.kind "values") else .ok []

/-- What an object has under a key, as a list; null and an absent object give none. -/
def slotOf (v : Json) (key : String) : Except Fault (List Json) := do
  if v.truthy then
    match ← v.findD key with
    | .null => return []
    | w => return [w]
  else return []

def startsWithDollar : Json → Bool
  | .str s => s.toList.head? == some '$'
  | _ => false

/-- The values of a step that must be state references. -/
def Step.stateRefs (s : Step) : Except Fault (List Json) := do
  let outputs ← valuesOf s.outputs
  match s.action with
  | .switch => return outputs ++ (← slotOf s.inputs "evaluationTarget")
  | .varSet target value =>
    return outputs ++ target :: (if startsWithDollar value then [value] else [])
  | .varGet source => return outputs ++ [source]
  | .transform .. => return outputs ++ (← slotOf s.inputs "source")
  | _ => return outputs

namespace Program

def alike (p q : Program) : Bool :=
  p.version.alike q.version && p.entry.alike q.entry && allPairs Step.alike p.steps q.steps &&
    allPairs ProgramEdge.alike p.edges q.edges

def step? (p : Program) (id : Json) : Option Step :=
  p.steps.find? (·.id.alike id)

/-- The edges that leave a step, in the order of the program. -/
def outgoing (p : Program) (id : Json) : List ProgramEdge :=
  p.edges.filter (·.source.alike id)

def invalidRefs (p : Program) : Except Fault (List Json) := do
  let refs ← p.steps.mapM Step.stateRefs
  return refs.flatten.filter (!StateRef.isRef ·)

end Program
end Flowgraph
