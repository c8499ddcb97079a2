import Flowgraph.Fault
import Flowgraph.Workflow.Field

/-!
# The model catalog

What a language model that a workflow is compiled for can do, and the catalog in which
models are looked up by id. A model that is listed again takes the earlier one's place.
-/
namespace Flowgraph

inductive PromptFormat where
  | xml
  | functionCalling
  | chat
deriving DecidableEq, Repr

namespace PromptFormat

def all : List PromptFormat := [xml, functionCalling, chat]

def name : PromptFormat → String
  | xml => "xml"
  | functionCalling => "function-calling"
  | chat => "chat"

def ofName? (s : String) : Option PromptFormat :=
  all.find? (·.name == s)

end PromptFormat

structure Capabilities where
  toolUse : Bool := false
  structuredOutput : Bool := false
  vision : Bool := false
  contextWindow : Int
  promptFormat : PromptFormat := .chat
deriving DecidableEq, Repr

structure Model where
  id : String
  displayName : String
  provider : String
  preview : String := ""
  capabilities : Capabilities
deriving DecidableEq, Repr

open Checked

def Capabilities.check (intake : Intake) : Json → Checked Capabilities :=
  record intake "ModelCapabilities" fun fields =>
    ap (ap (ap (ap (ap (.ok Capabilities.mk)
      (fieldOr fields "toolUse" "tool_use" (some false) truth))
      (fieldOr fields "structuredOutput" "structured_output" (some false) truth))
      (field fields "vision" (some false) truth))
      (fieldOr fields "contextWindow" "context_window" none positive))
      (fieldOr fields "promptFormat" "prompt_format" (some .chat)
        (choice PromptFormat.ofName? (PromptFormat.all.map PromptFormat.name)))

namespace Model

def check (intake : Intake) : Json → Checked Model :=
  record intake "ModelDefinition" fun fields =>
    ap (ap (ap (ap (ap (.ok Model.mk)
      (field fields "id" none nonemptyText))
      (fieldOr fields "displayName" "display_name" none nonemptyText))
      (field fields "provider" none nonemptyText))
      (field fields "preview" (some "") text))
      (field fields "capabilities" none (Capabilities.check intake))

def toJson (m : Model) : Json :=
  let c := m.capabilities
  .obj [("id", .str m.id), ("displayName", .str m.displayName), ("provider", .str m.provider),
    ("preview", .str m.preview),
    ("capabilities", .obj [("toolUse", .bool c.toolUse),
      ("structuredOutput", .bool c.structuredOutput), ("vision", .bool c.vision),
      ("contextWindow", .int c.contextWindow), ("promptFormat", .str c.promptFormat.name)])]

end Model

/-- Models in the order in which their ids first came. -/
abbrev ModelCatalog := List Model

namespace ModelCatalog

def insert (catalog : ModelCatalog) (m : Model) : ModelCatalog :=
  if catalog.any (·.id == m.id) then catalog.map fun n => if n.id == m.id then m else n
  else catalog ++ [m]

def ofList (models : List Model) : ModelCatalog :=
  models.foldl insert []

def find (catalog : ModelCatalog) (id : String) : Except Fault Model :=
  match List.find? (·.id == id) catalog with
  | some m => .ok m
  | none => .error (.unknownModel id)

/-- The models that are known without further configuration. -/
def builtIn : ModelCatalog :=
  [{ id := "claude-sonnet", displayName := "Claude Sonnet", provider := "Anthropic",
     preview := "Balanced reasoning with strong tool and long-context support.",
     capabilities := ⟨true, true, true, 200000, .xml⟩ },
   { id := "gpt-4o", displayName := "GPT-4o", provider := "OpenAI",
     preview := "Fast multimodal responses with strong function-calling ergonomics.",
     capabilities := ⟨true, true, true, 128000, .functionCalling⟩ }]

end ModelCatalog
end Flowgraph
