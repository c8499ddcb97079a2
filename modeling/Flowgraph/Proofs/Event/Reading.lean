import Flowgraph.Event.ProviderEvent

/-!
# Reading provider events

The type of a provider event that is written as an object says which of its fields are read.
-/
namespace Flowgraph

namespace ProviderEvent

open ProviderFailure

variable {fields : Fields}

/-- The types of provider events that are known. -/
def knownTypes : List String :=
  ["step-start", "tool-call", "tool-result", "step-complete", "step-fail"]

def stageField (fields : Fields) : Json :=
  pick fields ["stageId", "stage_id"] (.str "")

def toolField (fields : Fields) : Json :=
  pick fields ["toolName", "tool_name"] (.str "")

/-- The status that a failed step gives, in one of three spellings. -/
def statusField (fields : Fields) : Json :=
  pick fields ["statusCode", "status_code", "status"] .null

def errorField (fields : Fields) : Json :=
  .str ((fields.get? "error").getD (.str "")).display

theorem named_of_typed {type : String} (typed : fields.get? "type" = some (.str type))
    (name : String) : (fields.getD "type").alike (.str name) = (type == name) := by
  rw [Fields.getD, typed, Option.getD_some, Json.alike_str]

theorem ofFields_stepStart (typed : fields.get? "type" = some (.str "step-start")) :
    ofFields fields = .ok (.stepStart (stageField fields)
      (pick fields ["modelClass", "model_class"] (.str "")) (fields.getD "prompt")) := by
  unfold ofFields
  simp only [named_of_typed typed]
  rfl

theorem ofFields_toolCall (typed : fields.get? "type" = some (.str "tool-call")) :
    ofFields fields =
      .ok (.toolCall (stageField fields) (toolField fields) (fields.getD "args")) := by
  unfold ofFields
  simp only [named_of_typed typed]
  rfl

theorem ofFields_toolResult (typed : fields.get? "type" = some (.str "tool-result")) :
    ofFields fields =
      .ok (.toolResult (stageField fields) (toolField fields) (fields.getD "result")) := by
  unfold ofFields
  simp only [named_of_typed typed]
  rfl

theorem ofFields_stepComplete (typed : fields.get? "type" = some (.str "step-complete")) :
    ofFields fields = .ok (.stepComplete (stageField fields)
      (pick fields ["modelUsed", "model_used"] (.str ""))
      (.obj (objectOrEmpty (fields.getD "usage"))) (fields.getD "response")) := by
  unfold ofFields
  simp only [named_of_typed typed]
  rfl

/-- A failed step is the one event for which more than its type can be refused. -/
theorem ofFields_stepFail (typed : fields.get? "type" = some (.str "step-fail")) :
    ofFields fields = (statusOf (statusField fields)).map fun status =>
      .stepFail (stageField fields) (errorField fields) (.ofOption (status.map .int))
        (fields.getD "code") (fields.getD "provider") := by
  unfold ofFields
  simp only [named_of_typed typed]
  rfl

end ProviderEvent
end Flowgraph
