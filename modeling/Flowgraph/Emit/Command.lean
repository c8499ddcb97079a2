import Flowgraph.Compiler.Lowerer
import Flowgraph.Emit.Basic
import Flowgraph.Graph.Analysis
import Flowgraph.Json.Literal

/-!
# Command files

A workflow as a Markdown command: front matter with the allowed tools, the steps in
execution order, and the connections. Steps that have no place in the execution order
follow in declared order.
-/
namespace Flowgraph.Command

def quotedDetail (n : Node) (name key : String) : List String :=
  let s := n.configText key
  if s.isEmpty then [] else [name ++ "=\"" ++ s ++ "\""]

def plainDetail (n : Node) (key : String) : List String :=
  let s := n.configText key
  if s.isEmpty then [] else [key ++ "=" ++ s]

def toolDetail (n : Node) : List String :=
  let server := n.configText "serverId"
  let tool := n.configText "toolName"
  if server.isEmpty && tool.isEmpty then [] else ["tool=mcp:" ++ server ++ ":" ++ tool]

def details (n : Node) : List String :=
  match n.type with
  | .prompt => quotedDetail n "prompt" "prompt"
  | .subAgent => quotedDetail n "description" "description" ++ quotedDetail n "prompt" "prompt"
  | .ifElse | .switch => quotedDetail n "evaluationTarget" "evaluationTarget"
  | .askUserQuestion => quotedDetail n "question" "questionText"
  | .httpRequest => plainDetail n "method" ++ plainDetail n "url"
  | .mcp => toolDetail n
  | .dataTransform => quotedDetail n "expression" "expression"
  | _ => []

/-- What a step line adds about its node. -/
def describe (n : Node) : String :=
  match details n with
  | [] => ""
  | parts => " - " ++ ", ".intercalate parts

/-- The text of a configured value, or a default where it counts as absent. -/
def shownOr (n : Node) (key default : String) : String :=
  let v := n.config.getD key
  if v.truthy then v.display else default

/-- The tool that a node needs. -/
def toolOf? (n : Node) : Option String :=
  match n.type with
  | .askUserQuestion => some "AskUserQuestion"
  | .httpRequest => some "WebFetch"
  | .mcp => some ("mcp__" ++ shownOr n "serverId" "server" ++ "__" ++ shownOr n "toolName" "tool")
  | _ => none

def allowedTools (w : Workflow) : List String :=
  ("Task" :: w.nodes.filterMap toolOf?).eraseDups

/-- All nodes, first those in execution order, then the others in declared order. -/
def orderedNodes (w : Workflow) : List Node :=
  let placed := w.graph.executionOrder
  placed.filterMap w.node? ++ w.nodes.filter (!placed.contains ·.id)

def stepLine (index : Nat) (n : Node) : String :=
  toString index ++ ". " ++ n.title ++ " (" ++ n.type.name ++ ")" ++ describe n

def stepLines : Nat → List Node → List String
  | _, [] => []
  | index, n :: rest => stepLine index n :: stepLines (index + 1) rest

def lines (i : EmitInput) : List String :=
  let w := i.workflow
  ["---", "description: Execute workflow " ++ w.name,
    "allowed-tools: " ++ ",".intercalate (allowedTools w), "---", "",
    "Model: " ++ i.model.displayName, "", "Workflow steps:"] ++
  stepLines 1 (orderedNodes w) ++ ["", "Connections:"] ++
  w.edges.map fun e => "- " ++ e.source ++ " -> " ++ e.target

def file (i : EmitInput) : OutputFile where
  path := ".claude/commands/" ++ i.workflow.fileStem ++ ".md"
  content := "\n".intercalate (lines i)

end Flowgraph.Command
