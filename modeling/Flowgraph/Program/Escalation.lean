import Flowgraph.Program.Basic

/-!
# Escalation

A failed step is tried again on a larger class of models when its policy lists the
category of the failure.
-/
namespace Flowgraph

def Step.escalationPolicy? (s : Step) : Option EscalationPolicy :=
  match s.action with
  | .llmWrite call => call.escalation
  | _ => none

/-- The class of models on which a failed step is tried again. -/
def Step.escalate (s : Step) (category : Json) : Option ModelClass :=
  match s.escalationPolicy? with
  | some policy => if policy.on.any (·.alike category) then some policy.toModelClass else none
  | none => none

end Flowgraph
