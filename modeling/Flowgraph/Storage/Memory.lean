import Flowgraph.Workflow.Basic

/-!
# Workflows in memory

Workflows are kept as they are, one for each id. A workflow that is saved again takes the
place of the earlier one; one that was deleted and saved again comes last. Lists begin
with the latest update, and among equal dates with the first place.
-/
namespace Flowgraph

structure Memory where
  workflows : List Workflow := []

namespace Memory

def has (m : Memory) (id : String) : Bool :=
  m.workflows.any (·.id == id)

def get? (m : Memory) (id : String) : Option Workflow :=
  m.workflows.find? (·.id == id)

def save (m : Memory) (w : Workflow) : Memory :=
  if m.has w.id then ⟨m.workflows.map fun old => if old.id = w.id then w else old⟩
  else ⟨m.workflows ++ [w]⟩

def delete (m : Memory) (id : String) : Memory :=
  ⟨m.workflows.filter (·.id != id)⟩

/-- All workflows, the last updated first. -/
def list (m : Memory) : List Workflow :=
  m.workflows.mergeSort fun v w => w.updatedAt ≤ v.updatedAt

end Memory
end Flowgraph
