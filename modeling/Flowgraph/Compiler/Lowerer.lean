import Flowgraph.Json.Writer
import Flowgraph.Program.Basic
import Flowgraph.Program.Reader
import Flowgraph.State.Ref
import Flowgraph.Workflow.Basic

/-!
# Lowering a node

A lowerer turns a node of one type into one step. A branching lowerer also turns the
edges that leave the node into guarded ones: all but the last compare what is evaluated
with the value of the branch at the same position, and the last one is the fallback.
For other nodes every edge is followed always. What cannot be used of a node's
configuration is dropped with a notice.
-/
namespace Flowgraph

inductive Lowerer where
  | start | stop | prompt | subAgent | ifElse | switch | askUserQuestion | mcp | httpRequest
  | variableStore | dataTransform
deriving DecidableEq, Repr

/-- What a node contributes to a program. -/
structure Fragment where
  step : Step
  edges : List ProgramEdge
  templates : List String := []
  notices : List Notice := []

namespace Node

/-- A text of the configuration, or a default where it is missing or no text. -/
def configText (n : Node) (key : String) (default : String := "") : String :=
  match n.config.getD key with
  | .str s => s
  | _ => default

def configList (n : Node) (key : String) : List Json :=
  match n.config.getD key with
  | .arr items => items
  | _ => []

def varRef (n : Node) (segment : String) : String :=
  StateRef.write ⟨.vars, [n.id, segment]⟩

/-- Where the result of a node is kept. -/
def resultRef (n : Node) : String :=
  n.varRef "result"

def resultOutputs (n : Node) : Json :=
  .obj [("result", .str n.resultRef)]

end Node

namespace Lowerer

def all : List Lowerer :=
  [start, stop, prompt, subAgent, ifElse, switch, askUserQuestion, mcp, httpRequest,
   variableStore, dataTransform]

def type : Lowerer → NodeType
  | start => .start
  | stop => .stop
  | prompt => .prompt
  | subAgent => .subAgent
  | ifElse => .ifElse
  | switch => .switch
  | askUserQuestion => .askUserQuestion
  | mcp => .mcp
  | httpRequest => .httpRequest
  | variableStore => .variableStore
  | dataTransform => .dataTransform

def ofType? (t : NodeType) : Option Lowerer :=
  all.find? (·.type == t)

/-- Whether a lowerer guards the edges that leave its node. -/
def ownsEdges : Lowerer → Bool
  | ifElse | switch | askUserQuestion => true
  | _ => false

/-! ## Model calls -/

def isText : Json → Bool
  | .str _ => true
  | _ => false

/-- The escalation policy in a configuration; an error says why it is ignored. -/
def escalation (config : Fields) : Except String (Option EscalationPolicy) :=
  match config.getD "escalation" with
  | .null => .ok none
  | .obj fields =>
    match Fields.getD fields "on" with
    | .arr (tag :: tags) =>
      if (tag :: tags).all isText then
        let target := (Fields.get? fields "toModelClass").getD (Fields.getD fields "to_model_class")
        match ModelClass.read target with
        | .ok c => .ok (some ⟨tag :: tags, c⟩)
        | .error _ => .error ("unknown model class " ++ target.literal)
      else .error "'on' must list failure categories"
    | _ => .error "'on' must list failure categories"
  | _ => .error "expected an object"

def escalationNotices (n : Node) : List Notice :=
  match escalation n.config with
  | .ok _ => []
  | .error reason =>
    [.warning ("Ignoring escalation config on node " ++ n.id ++ ": " ++ reason)]

def objectSchema : Json := .obj [("type", .str "object")]

def modelCall (n : Node) (template instruction : String) : Fragment where
  step :=
    { id := .str n.id
      inputs := .obj [("instruction", .str instruction)]
      outputs := n.resultOutputs
      action := .llmWrite
        { modelClass := .smallExec
          promptTemplate := .str template
          outputSchema := objectSchema
          validators := some [.jsonSchema objectSchema]
          retryPolicy := some ⟨.patchJsonFromError, 3, by omega⟩
          escalation := (escalation n.config).toOption.join } }
  edges := []
  templates := [template]
  notices := escalationNotices n

def promptTemplate : String := "llm-write-v1"

def subAgentTemplate : String := "node-sub-agent-v1"

def instruction (n : Node) : String :=
  let description := n.configText "description"
  let prompt := n.configText "prompt"
  if description.isEmpty then prompt else description ++ "\n\n" ++ prompt

/-! ## Branches -/

def branchesKey : Lowerer → String
  | askUserQuestion => "options"
  | _ => "branches"

/-- Under which keys the value of a branch is looked for, the first one first. -/
def valueKeys : Lowerer → List String
  | askUserQuestion => ["value", "label"]
  | _ => ["value", "condition", "label"]

def notNull? : Json → Option Json
  | .null => none
  | v => some v

/-- The text that selects the branch at a position: its own value or else the position. -/
def branchValue (keys : List String) (branches : List Json) (index : Nat) : String :=
  let found := match branches[index]? with
    | some (.obj fields) => keys.findSome? fun key => notNull? (Fields.getD fields key)
    | _ => none
  match found with
  | some v => v.display
  | none => toString index

def defaultTarget (l : Lowerer) (n : Node) : String :=
  match l with
  | askUserQuestion => StateRef.write ⟨.input, ["askUserQuestion", n.id]⟩
  | _ => n.varRef "input"

/-- The reference to what a branching node evaluates. -/
def evaluationTarget (l : Lowerer) (n : Node) : String :=
  let configured := n.configText "evaluationTarget"
  if configured.isEmpty then l.defaultTarget n else configured

def questionText : String := "Please choose an option"

def switchInputs (l : Lowerer) (n : Node) : Fields :=
  ("evaluationTarget", .str (l.evaluationTarget n)) ::
  match l with
  | askUserQuestion =>
    [("questionText", .str (n.configText "questionText" questionText)),
     ("options", .arr (n.configList "options"))]
  | _ => []

def edgeWith (condition : Condition) (e : Edge) : ProgramEdge :=
  ⟨.str e.source, .str e.target, condition⟩

/-- Guards edges, the first of which has a given position among the branches. -/
def branchEdges (target : String) (value : Nat → String) : Nat → List Edge → List ProgramEdge
  | _, [] => []
  | _, [e] => [edgeWith .always e]
  | index, e :: rest =>
    edgeWith ⟨.eq, .str target, .str (value index)⟩ e ::
      branchEdges target value (index + 1) rest

def branching (l : Lowerer) (n : Node) (outgoing : List Edge) : Fragment where
  step := { id := .str n.id, inputs := .obj (l.switchInputs n), action := .switch }
  edges := branchEdges (l.evaluationTarget n)
    (branchValue l.valueKeys (n.configList l.branchesKey)) 0 outgoing

/-! ## Tools and variables -/

def mcpStep (n : Node) : Step where
  id := .str n.id
  outputs := n.resultOutputs
  action := .toolCall (.str ("mcp:" ++ n.configText "serverId" ++ ":" ++ n.configText "toolName"))
    (.obj [("config", .str ((Json.obj n.config).write .compact))])

def httpStep (n : Node) : Step where
  id := .str n.id
  outputs := n.resultOutputs
  action := .toolCall (.str "http.request")
    (.obj [("method", .str (n.configText "method" "GET")), ("url", .str (n.configText "url")),
      ("responseFormat", .str (n.configText "responseFormat" "json"))])

def variableTarget (n : Node) : String :=
  let key := n.configText "key"
  Namespace.vars.name ++ "." ++ (if key.isEmpty then n.id ++ ".value" else key)

/-- A value to assign: a text that begins with a dollar sign as it is, others as JSON text. -/
def assigned (v : Json) : Json :=
  match v with
  | .str s => if s.toList.head? == some '$' then v else .str (v.write .compact)
  | v => .str (v.write .compact)

def variableStep (n : Node) : Step where
  id := .str n.id
  outputs := n.resultOutputs
  action :=
    if n.configText "operation" "set" == "get" then .varGet (.str (variableTarget n))
    else .varSet (.str (variableTarget n)) (assigned (n.config.getD "value"))

def requestedKind (n : Node) : Json :=
  (n.config.get? "transformationType").getD (n.config.getD "transformation")

/-- The transformation that is asked for; none where it is not known. -/
def transformKind? (n : Node) : Option TransformKind :=
  match requestedKind n with
  | .null => some .jmespath
  | .str s => TransformKind.ofName? s
  | _ => none

def transformNotices (n : Node) : List Notice :=
  match transformKind? n with
  | some _ => []
  | none =>
    [.warning ("Node " ++ n.id ++ ": unknown transformation " ++ (requestedKind n).literal ++
      ", falling back to jmespath")]

def transformStep (n : Node) : Step where
  id := .str n.id
  inputs := .obj [("source", .str (n.varRef "input"))]
  outputs := n.resultOutputs
  action := .transform ((transformKind? n).getD .jmespath) (.str (n.configText "expression"))

/-- What a node contributes, given the edges that leave it. -/
def fragment (l : Lowerer) (n : Node) (outgoing : List Edge) : Fragment :=
  let always := outgoing.map (edgeWith .always)
  match l with
  | start => { step := { id := .str n.id, action := .start }, edges := always }
  | stop => { step := { id := .str n.id, action := .stop }, edges := always }
  | prompt => { modelCall n promptTemplate (n.configText "prompt") with edges := always }
  | subAgent => { modelCall n subAgentTemplate (instruction n) with edges := always }
  | ifElse | switch | askUserQuestion => l.branching n outgoing
  | mcp => { step := mcpStep n, edges := always }
  | httpRequest => { step := httpStep n, edges := always }
  | variableStore => { step := variableStep n, edges := always }
  | dataTransform =>
    { step := transformStep n, edges := always, notices := transformNotices n }

end Lowerer

/-- Lowerers in the order of their registration, one a node type. -/
abbrev LowererTable := List Lowerer

namespace LowererTable

def find? (table : LowererTable) (t : NodeType) : Option Lowerer :=
  List.find? (·.type == t) table

def register (table : LowererTable) (l : Lowerer) : Except Fault LowererTable :=
  if (table.find? l.type).isSome then .error (.lowererTaken l.type.name) else .ok (table ++ [l])

def standard : LowererTable := Lowerer.all

end LowererTable
end Flowgraph
