import Flowgraph.Emit.Basic
import Flowgraph.Program.Writer
import Flowgraph.Workflow.Writer

/-!
# Portable bundles

One JSON document with a workflow, the id of the model that it was compiled for and, if
there is one, the program. The nodes of the workflow are sorted by id.
-/
namespace Flowgraph.Bundle

def formatVersion : String := "1.0.0"

def sortedNodes (w : Workflow) : List Node :=
  w.nodes.mergeSort fun m n => m.id ≤ n.id

def sorted (w : Workflow) : Workflow :=
  { w with nodes := sortedNodes w }

def programField : Option Program → Except Fault Fields
  | none => .ok []
  | some p => p.toJson.map fun v => [("execir", v)]

def payload (i : EmitInput) : Except Fault Json := do
  let program ← programField i.program
  return .obj ([("schemaVersion", .str formatVersion), ("compiledFor", .str i.model.id),
    ("workflow", (sorted i.workflow).toJson)] ++ program)

def file (i : EmitInput) : Except Fault OutputFile := do
  let v ← payload i
  return ⟨"out/" ++ i.workflow.fileStem ++ ".portable.json", v.write (.indented 2)⟩

end Flowgraph.Bundle
