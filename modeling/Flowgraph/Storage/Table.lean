import Flowgraph.Failure
import Flowgraph.Json.Reader
import Flowgraph.Json.Writer
import Flowgraph.Workflow.Reader
import Flowgraph.Workflow.Writer

/-!
# Workflows in a table

A row for each workflow, with its document as text. A workflow that is saved again gets a
new row in place of the old one. What is read is checked again, like any document. Lists
begin with the latest update, and among equal dates with the latest row.
-/
namespace Flowgraph

structure Row where
  id : String
  document : String
  updatedAt : String
deriving DecidableEq, Repr

namespace Row

def ofWorkflow (w : Workflow) : Row :=
  ⟨w.id, w.toJson.write .spaced, w.updatedAt⟩

/-- The workflow whose document a row holds, where arrays and objects may stand in each other
`depth` times. -/
def workflow (depth : Nat) (r : Row) : Attempt Workflow :=
  match Json.readWithin depth r.document with
  | .ok v => ofChecked (Workflow.check .value r.updatedAt v)
  | .error .tooDeep => .error (.fault .tooDeep)
  | .error .halfPair => .error (.fault .halfPair)
  | .error (.malformed _) => .error (.fault .badJson)

end Row

structure Table where
  rows : List Row := []
  /-- How often arrays and objects may stand in each other in a document that is read. -/
  depth : Nat := Json.nestingLimit

namespace Table

def has (t : Table) (id : String) : Bool :=
  t.rows.any (·.id == id)

def get? (t : Table) (id : String) : Attempt (Option Workflow) :=
  match t.rows.find? (·.id == id) with
  | some r => (r.workflow t.depth).map some
  | none => .ok none

def delete (t : Table) (id : String) : Table :=
  { t with rows := t.rows.filter (·.id != id) }

def save (t : Table) (w : Workflow) : Table :=
  { t with rows := (t.delete w.id).rows ++ [Row.ofWorkflow w] }

/-- All workflows, the last updated first. -/
def list (t : Table) : Attempt (List Workflow) :=
  (t.rows.reverse.mergeSort fun r s => s.updatedAt ≤ r.updatedAt).mapM (Row.workflow t.depth)

end Table
end Flowgraph
