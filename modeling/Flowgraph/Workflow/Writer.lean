import Flowgraph.Workflow.Basic

/-!
# Writing workflow documents

The document form leaves out what is not set; a null inside the configuration of a node
or the metadata stays. The full form writes every field.
-/
namespace Flowgraph

/-- A field whose value may be left out. -/
def optionalField (full : Bool) (name : String) (v : Option Json) : Fields :=
  match v with
  | some v => [(name, v)]
  | none => if full then [(name, .null)] else []

def Position.toJson (p : Position) : Json :=
  .obj [("x", .float p.x), ("y", .float p.y)]

def Node.toJson (n : Node) : Json :=
  .obj [("id", .str n.id), ("type", .str n.type.name), ("label", .str n.label),
    ("position", n.position.toJson), ("config", .obj n.config)]

def Edge.write (full : Bool) (e : Edge) : Json :=
  .obj ([("id", .str e.id), ("source", .str e.source), ("target", .str e.target)] ++
    optionalField full "sourceHandle" (e.sourceHandle.map .str) ++
    optionalField full "targetHandle" (e.targetHandle.map .str))

namespace Workflow

def write (full : Bool) (w : Workflow) : Json :=
  .obj ([("id", .str w.id), ("name", .str w.name)] ++
    optionalField full "description" (w.description.map .str) ++
    [("version", .str w.version), ("createdAt", .str w.createdAt),
      ("updatedAt", .str w.updatedAt), ("nodes", .arr (w.nodes.map Node.toJson)),
      ("edges", .arr (w.edges.map (Edge.write full)))] ++
    optionalField full "metadata" (w.metadata.map .obj))

/-- The document of a workflow, without the fields that are not set. -/
def toJson (w : Workflow) : Json :=
  w.write false

/-- The document of a workflow with every field. -/
def toFullJson (w : Workflow) : Json :=
  w.write true

end Workflow
end Flowgraph
