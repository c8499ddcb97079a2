import Flowgraph.Fault
import Flowgraph.Json.Basic

/-!
# The prompt catalog

The templates that model calls name. The compiler only asks whether a template is
registered; an id can be registered once.
-/
namespace Flowgraph

structure PromptTemplate where
  id : String
  version : String
  systemPrompt : String
  userPrompt : String
  outputSchema : Json := .null
deriving Repr

abbrev PromptCatalog := List PromptTemplate

namespace PromptCatalog

def has (catalog : PromptCatalog) (id : String) : Bool :=
  List.any catalog (·.id == id)

def register (catalog : PromptCatalog) (t : PromptTemplate) : Except Fault PromptCatalog :=
  if catalog.has t.id then .error (.templateTaken t.id) else .ok (catalog ++ [t])

def find (catalog : PromptCatalog) (id : String) : Except Fault PromptTemplate :=
  match List.find? (·.id == id) catalog with
  | some t => .ok t
  | none => .error (.noTemplate id)

def openBraces : String := "\x7b\x7b"

def closeBraces : String := "\x7d\x7d"

/-- The place of a value in a template. -/
def slot (name : String) : String :=
  openBraces ++ name ++ closeBraces

def llmWrite : PromptTemplate where
  id := "llm-write-v1"
  version := "1"
  systemPrompt := "You are a task executor. Follow the instruction precisely. Respond in JSON."
  userPrompt := "Instruction:\n" ++ slot "instruction" ++ "\n\nInput:\n" ++ slot "input_json" ++
    "\n\nReturn only valid JSON."

def subAgent : PromptTemplate where
  id := "node-sub-agent-v1"
  version := "1"
  systemPrompt := "You are a delegated sub-agent in a workflow. Complete the assigned objective " ++
    "and return only valid JSON conforming to the schema."
  userPrompt := "<delegated_task>\n" ++ slot "instruction" ++ "\n</delegated_task>\n\n" ++
    "<input_json>\n" ++ slot "input_json" ++ "\n</input_json>\n\nOutput JSON only."

def repair : PromptTemplate where
  id := "repair-v1"
  version := "1"
  systemPrompt := "Fix the JSON output based on validation errors. Return JSON only."
  userPrompt := "Errors:\n" ++ slot "error" ++ "\n\nPrevious output:\n" ++ slot "previous_output" ++
    "\n\nExpected schema:\n" ++ slot "expected_schema"

def builtIn : PromptCatalog := [llmWrite, subAgent, repair]

end PromptCatalog
end Flowgraph
