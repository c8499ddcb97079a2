import Flowgraph.Event.ProviderFailure
import Flowgraph.Json.Access

/-!
# Events of a provider

What a provider reports while a run goes on. A field with two spellings is taken from the
first one that is there, even if it is null.
-/
namespace Flowgraph

inductive ProviderEvent where
  | stepStart (stageId modelClass prompt : Json)
  | toolCall (stageId toolName args : Json)
  | toolResult (stageId toolName result : Json)
  | stepComplete (stageId modelUsed usage response : Json)
  | stepFail (stageId error status code provider : Json)

namespace ProviderEvent

/-- The value under the first of some keys that is there. -/
def pick (fields : Fields) (keys : List String) (default : Json) : Json :=
  (keys.findSome? fields.get?).getD default

def objectOrEmpty : Json → Fields
  | .obj fields => fields
  | _ => []

def ofFields (fields : Fields) : Except Fault ProviderEvent :=
  let empty := Json.str ""
  let stageId := pick fields ["stageId", "stage_id"] empty
  let type := fields.getD "type"
  let named (name : String) : Bool := type.alike (.str name)
  if named "step-start" then
    .ok (.stepStart stageId (pick fields ["modelClass", "model_class"] empty)
      (fields.getD "prompt"))
  else if named "tool-call" then
    .ok (.toolCall stageId (pick fields ["toolName", "tool_name"] empty) (fields.getD "args"))
  else if named "tool-result" then
    .ok (.toolResult stageId (pick fields ["toolName", "tool_name"] empty) (fields.getD "result"))
  else if named "step-complete" then
    .ok (.stepComplete stageId (pick fields ["modelUsed", "model_used"] empty)
      (.obj (objectOrEmpty (fields.getD "usage"))) (fields.getD "response"))
  else if named "step-fail" then do
    let status ← ProviderFailure.statusOf
      (pick fields ["statusCode", "status_code", "status"] .null)
    return .stepFail stageId (.str ((fields.get? "error").getD empty).display)
      (.ofOption (status.map .int)) (fields.getD "code") (fields.getD "provider")
  else .error (.unknownProviderEvent type.display)

def ofJson : Json → Except Fault ProviderEvent
  | .obj fields => ofFields fields
  | v => .error (.noAttribute v.kind "get")

def stageId : ProviderEvent → Json
  | stepStart s _ _ | toolCall s _ _ | toolResult s _ _ | stepComplete s _ _ _
  | stepFail s _ _ _ _ => s

end ProviderEvent
end Flowgraph
