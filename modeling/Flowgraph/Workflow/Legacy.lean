import Flowgraph.Failure
import Flowgraph.Json.Access
import Flowgraph.Workflow.Reader

/-!
# Documents of the previous format

The previous format has nodes with `data` instead of a configuration and `connections`
instead of edges. Its node types are mapped to current ones; a type that is not known
becomes a sub-agent, with a notice. Nodes are made first, then edges, then the document,
and the first part that is invalid ends the migration.
-/
namespace Flowgraph.Legacy

def typeMap : List (String × NodeType) :=
  [("llmCall", .subAgent), ("promptTemplate", .prompt), ("systemInstruction", .prompt),
   ("fewShotBank", .prompt), ("conditionalBranch", .ifElse), ("switchCase", .switch),
   ("humanInTheLoopGate", .askUserQuestion), ("inputForm", .askUserQuestion),
   ("apiCall", .httpRequest), ("fileReader", .prompt), ("fileWriter", .prompt),
   ("jsonCsvParse", .dataTransform), ("textResponse", .prompt), ("webhookPush", .webhookTrigger),
   ("loop", .batchIterator), ("errorHandler", .ifElse), ("subAgentFlow", .flow)]

def defaultType : NodeType := .subAgent

/-- Whether a value names a current node type. -/
def isCurrentType : Json → Except Fault Bool
  | .str s => .ok (NodeType.ofName? s).isSome
  | .arr _ => .error (.unhashable "list")
  | .obj _ => .error (.unhashable "dict")
  | _ => .ok false

def unknownType (v : Json) : Notice :=
  .warning ("Unknown legacy node type " ++ v.literal ++ ", migrating as " ++ defaultType.name)

/-- The current type for a node type of either format. -/
def normalizeType (v : Json) : Remarked NodeType :=
  if !v.truthy then pure defaultType
  else
    match v with
    | .str s =>
      match NodeType.ofName? s with
      | some t => pure t
      | none =>
        match typeMap.lookup s with
        | some t => pure t
        | none => ⟨.ok defaultType, [unknownType v]⟩
    | .arr _ | .obj _ => ⟨.error (.fault (.unhashable v.kind)), []⟩
    | v => ⟨.ok defaultType, [unknownType v]⟩

def labelOf (config : Fields) (id : Json) : Json :=
  match config.getD "label" with
  | .null => id
  | label => .str label.display

def objectOrEmpty : Json → Fields
  | .obj fields => fields
  | _ => []

/-- The value, or another one where it counts as absent. -/
def orElse (v default : Json) : Json :=
  if v.truthy then v else default

def migrateNode (raw : Json) : Remarked Node := do
  let config := objectOrEmpty (← raw.findD "data")
  let id ← raw.item "id"
  let type ← normalizeType (← raw.findD "type")
  let position ← raw.findD "position"
  let origin : Json := .obj [("x", .int 0), ("y", .int 0)]
  let fields : Fields :=
    [("id", id), ("type", .str type.name), ("label", labelOf config id),
     ("position", orElse position origin), ("config", .obj config)]
  ofChecked (Node.check .value (.obj fields))

def migrateEdge (raw : Json) : Attempt Edge := do
  let id ← ofFault (raw.item "id")
  let source ← ofFault (raw.item "from")
  let target ← ofFault (raw.item "to")
  let sourceHandle ← ofFault (raw.findD "fromPort")
  let targetHandle ← ofFault (raw.findD "toPort")
  ofChecked (Edge.check .value (.obj
    [("id", id), ("source", source), ("target", target),
     ("source_handle", sourceHandle), ("target_handle", targetHandle)]))

/-- The members of a field, none where the field counts as absent. -/
def membersOf (data : Json) (key : String) : Except Fault (List Json) := do
  (orElse (← data.findD key) (.arr [])).members

def migrateNodes : List Json → Remarked (List Node)
  | [] => pure []
  | raw :: rest => do
    let n ← migrateNode raw
    let ns ← migrateNodes rest
    return n :: ns

/-- The workflow with given nodes and edges and the other fields of a legacy document. -/
def assemble (clock : Clock) (id name description : Json) (nodes : List Node)
    (edges : List Edge) : Checked Workflow :=
  open Checked in
  ap (ap (ap (ap (.ok fun id name description nodes =>
      { id, name, description, version := Workflow.formatVersion, createdAt := clock.now,
        updatedAt := clock.now, nodes, edges, metadata := none })
    (under (.field "id") (nonemptyText id)))
    (under (.field "name") (Workflow.checkName name)))
    (under (.field "description") (optional text description)))
    (under (.field "nodes") do
      Workflow.checkCount nodes
      Workflow.checkDistinct nodes)

def migrate (clock : Clock) (data : Json) : Remarked Workflow := do
  let nodes ← migrateNodes (← membersOf data "nodes")
  let connections ← membersOf data "connections"
  let edges ← (connections.mapM migrateEdge : Attempt (List Edge))
  let id := orElse (← data.findD "id") (.str ("workflow_" ++ toString clock.milliseconds))
  let name := orElse (← data.findD "name") (.str "Untitled Workflow")
  ofChecked (assemble clock id name (← data.findD "description") nodes edges)

end Flowgraph.Legacy
