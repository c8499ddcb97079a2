import Flowgraph.Session
import Flowgraph.Storage.Memory
import Flowgraph.Storage.Table

/-!
# Repositories

Where workflows are kept: in memory or in a table. Only memory can be cleared.
-/
namespace Flowgraph

inductive Repository where
  | memory (m : Memory)
  | table (t : Table)

namespace Repository

def empty : Backend → Repository
  | .memory => memory {}
  | .sqlite => table {}

/-- An empty repository of the kind in the settings. -/
def configured : SessionM Repository := do
  return empty (← SessionM.settings).backend

def save : Repository → Workflow → Repository
  | memory m, w => memory (m.save w)
  | table t, w => table (t.save w)

def get? : Repository → String → Attempt (Option Workflow)
  | memory m, id => .ok (m.get? id)
  | table t, id => t.get? id

/-- Whether there is a workflow that can be read. -/
def has (r : Repository) (id : String) : Attempt Bool :=
  (r.get? id).map (·.isSome)

/-- Deletes a workflow and tells whether there was one. -/
def delete : Repository → String → Bool × Repository
  | memory m, id => (m.has id, memory (m.delete id))
  | table t, id => (t.has id, table (t.delete id))

def list : Repository → Attempt (List Workflow)
  | memory m => .ok m.list
  | table t => t.list

/-- The repository without its workflows; none where it cannot be cleared. -/
def clear? : Repository → Option Repository
  | memory _ => some (memory {})
  | table _ => none

end Repository
end Flowgraph
