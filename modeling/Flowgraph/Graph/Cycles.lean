import Flowgraph.Graph.Basic

/-!
# Cycles

A depth-first walk with an explicit stack. The stack holds the ids of the path from the
root, each with the successors that have not been looked at; an arc back to the path
closes a cycle. Ids that were visited before are not entered again.
-/
namespace Flowgraph.Graph

variable {α : Type} [DecidableEq α]

structure Walk (α : Type) where
  visited : List α
  /-- The path, its end first, and what is left to look at from each of its ids. -/
  stack : List (α × List α)
  /-- The cycles found, the last one first. -/
  cycles : List (List α)

namespace Walk

def path (w : Walk α) : List α :=
  w.stack.map (·.1)

/-- The part of a path, its end first, from an id on; the id comes first. -/
def cycleFrom (path : List α) (v : α) : List α :=
  v :: (path.takeWhile (· ≠ v)).reverse

/-- Looks at one successor of the path's end, or leaves the end. -/
def step (g : Graph α) (w : Walk α) : Walk α :=
  match w.stack with
  | [] => w
  | (_, []) :: rest => { w with stack := rest }
  | (u, v :: later) :: rest =>
    let stack := (u, later) :: rest
    if v ∈ w.path then { w with stack, cycles := cycleFrom w.path v :: w.cycles }
    else if v ∈ w.visited then { w with stack }
    else { w with visited := v :: w.visited, stack := (v, g.successors v) :: stack }

def run (g : Graph α) : Nat → Walk α → Walk α
  | 0, w => w
  | fuel + 1, w => if w.stack.isEmpty then w else run g fuel (w.step g)

def enter (g : Graph α) (w : Walk α) (root : α) : Walk α :=
  { w with visited := root :: w.visited, stack := [(root, g.successors root)] }

/-- Walks from a root, unless it was visited before. -/
def visit (g : Graph α) (w : Walk α) (root : α) : Walk α :=
  if root ∈ w.visited then w
  else run g (2 * g.arcs.length + g.ids.length + 1) (w.enter g root)

end Walk

/-- The cycles that a walk from every declared id closes, in order. -/
def cycles (g : Graph α) : List (List α) :=
  (g.ids.foldl (Walk.visit g) ⟨[], [], []⟩).cycles.reverse

def isAcyclic (g : Graph α) : Bool :=
  g.cycles.isEmpty

end Flowgraph.Graph
