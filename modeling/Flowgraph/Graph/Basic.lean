/-!
# Graphs

Declared ids in order, some of them start ids, and arcs in order. An id may be declared
more than once, two arcs may join the same ids, and the ends of an arc need not be
declared.
-/
namespace Flowgraph

structure Graph (α : Type) where
  ids : List α
  starts : List α
  arcs : List (α × α)

namespace Graph

variable {α : Type} [DecidableEq α]

/-- The targets of the arcs that leave a declared id, in the order of the arcs. -/
def successors (g : Graph α) (v : α) : List α :=
  if v ∈ g.ids then (g.arcs.filter (·.1 = v)).map (·.2) else []

theorem mem_successors (g : Graph α) (v w : α) :
    w ∈ g.successors v ↔ v ∈ g.ids ∧ (v, w) ∈ g.arcs := by
  unfold successors
  split <;> simp_all

end Graph
end Flowgraph
