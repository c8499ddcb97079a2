import Flowgraph.Graph.Basic

/-!
# Reachability

A breadth-first search from the start ids or, where there is none, from the declared ids
that no arc enters. Without roots nothing counts as unreachable.
-/
namespace Flowgraph.Graph

variable {α : Type} [DecidableEq α]

def roots (g : Graph α) : List α :=
  if g.starts.isEmpty then g.ids.filter fun v => g.arcs.all (·.2 ≠ v) else g.starts

/-- Adds what can be reached from a queue to the ids reached so far. -/
def search (g : Graph α) : Nat → List α → List α → List α
  | 0, _, reached => reached
  | _, [], reached => reached
  | fuel + 1, v :: queue, reached =>
    if v ∈ reached then search g fuel queue reached
    else
      let reached := v :: reached
      search g fuel (queue ++ (g.successors v).filter (· ∉ reached)) reached

def reachable (g : Graph α) : List α :=
  search g (g.roots.length + g.arcs.length) g.roots []

/-- The declared ids that the search does not reach. -/
def unreachable (g : Graph α) : List α :=
  let reached := g.reachable
  if g.roots.isEmpty then [] else g.ids.filter (· ∉ reached)

end Flowgraph.Graph
