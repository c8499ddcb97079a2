import Flowgraph.Emit.Basic
import Flowgraph.Json.Literal
import Flowgraph.Json.Writer

/-!
# Assistant configurations

A workflow as the configuration of an assistant with function tools, one for every
distinct name among the tools that its nodes call. A name has one to 64 characters:
ASCII letters, digits, underscores and hyphens.
-/
namespace Flowgraph.Assistant

def isNameChar (c : Char) : Bool :=
  c.isAlphanum || c == '_' || c == '-'

def nameLimit : Nat := 64

/-- A tool name from its parts; runs of other characters become one underscore. -/
def functionName (parts : List String) : String :=
  let joined := "_".intercalate (parts.filter (!·.isEmpty))
  match Text.trimBy (· == '_') (Text.replaceRuns isNameChar '_' joined.toList) with
  | [] => "tool"
  | name => String.ofList (name.take nameLimit)

def shown (n : Node) (key : String) : String :=
  match n.config.get? key with
  | some v => v.display
  | none => ""

def callsTool (n : Node) : Bool :=
  n.type == .mcp || n.type == .httpRequest

/-- The name of the tool that a node calls. -/
def toolName (n : Node) : String :=
  if n.type == .mcp then functionName ["mcp", shown n "serverId", shown n "toolName"]
  else functionName ["http_request", n.id]

def functionTool (name description : String) (parameters : Fields) : Json :=
  .obj [("type", .str "function"),
    ("function", .obj [("name", .str name), ("description", .str description),
      ("parameters", .obj (("type", .str "object") :: parameters))])]

def typed (name type : String) : String × Json :=
  (name, .obj [("type", .str type)])

def toolFor (n : Node) : Json :=
  if n.type == .mcp then
    functionTool (toolName n)
      ("MCP tool " ++ shown n "toolName" ++ " on server " ++ shown n "serverId" ++
        " (" ++ n.title ++ ")")
      [("properties", .obj []), ("additionalProperties", .bool true)]
  else
    functionTool (toolName n) ("HTTP request for step " ++ n.title)
      [("properties", .obj [typed "url" "string", typed "method" "string", typed "body" "object"]),
       ("required", .arr [.str "url"])]

/-- The nodes whose tool no earlier node calls by the same name. -/
def toolNodes (seen : List String) : List Node → List Node
  | [] => []
  | n :: rest =>
    if callsTool n && !seen.contains (toolName n) then n :: toolNodes (toolName n :: seen) rest
    else toolNodes seen rest

def functionTools (w : Workflow) : List Json :=
  (toolNodes [] w.nodes).map toolFor

def payload (i : EmitInput) : Json :=
  let w := i.workflow
  let count {α : Type} (l : List α) := toString l.length
  .obj [("name", .str w.name), ("description", .str (w.description.getD "")),
    ("model", .str i.model.id),
    ("instructions",
      .str ("Execute workflow " ++ w.name ++ " with " ++ count w.nodes ++ " steps.")),
    ("tools", .arr (functionTools w)),
    ("metadata", .obj [("workflowId", .str w.id), ("nodeCount", .str (count w.nodes)),
      ("edgeCount", .str (count w.edges))])]

def file (i : EmitInput) : OutputFile where
  path := "out/" ++ i.workflow.fileStem ++ ".assistant.json"
  content := (payload i).write (.indented 2)

end Flowgraph.Assistant
