import Flowgraph.Graph.Cycles
import Flowgraph.Graph.Order
import Flowgraph.Graph.Reach
import Mathlib.Data.List.Perm.Basic

/-!
# The order of the arcs

An analysis looks at arcs in two ways: at those of one id in their order, and at all of them
in ways that no order changes. So two graphs with the same ids and starts are analysed alike
where every id has the same arcs in the same order, however the arcs of different ids are mixed.
-/
namespace Flowgraph.Graph

variable {α : Type} [DecidableEq α] {g g' : Graph α}

/-- Two graphs have the same ids and starts, and every id has the same arcs in the same order. -/
structure SameAtEach (g' g : Graph α) : Prop where
  ids : g'.ids = g.ids
  starts : g'.starts = g.starts
  arcs : ∀ v, g'.arcs.filter (·.1 = v) = g.arcs.filter (·.1 = v)

/-! ## What follows arcs from one id -/

section

variable (successors : g'.successors = g.successors)
include successors

theorem place_congr (fuel : Nat) (p : Pending α) (queue : List α) :
    g'.place fuel p queue = g.place fuel p queue := by
  induction fuel generalizing p queue with
  | zero => rfl
  | succ fuel ih =>
    cases queue with
    | nil => rfl
    | cons v queue => simp only [place, successors, ih]

theorem search_congr (fuel : Nat) (queue reached : List α) :
    g'.search fuel queue reached = g.search fuel queue reached := by
  induction fuel generalizing queue reached with
  | zero => rfl
  | succ fuel ih =>
    cases queue with
    | nil => rfl
    | cons v queue => simp only [search, successors, ih]

theorem run_congr (fuel : Nat) (w : Walk α) : w.run g' fuel = w.run g fuel := by
  induction fuel generalizing w with
  | zero => rfl
  | succ fuel ih =>
    have step : w.step g' = w.step g := by simp only [Walk.step, successors]
    simp only [Walk.run, step, ih]

end

namespace SameAtEach

variable (same : g'.SameAtEach g)
include same

theorem successors : g'.successors = g.successors := by
  funext v
  rw [Graph.successors, Graph.successors, same.ids, same.arcs]

/-- An arc occurs as often among all arcs as among those of its source. -/
theorem perm : g'.arcs.Perm g.arcs := by
  rw [List.perm_iff_count]
  intro a
  have own := congrArg (List.count a) (same.arcs a.1)
  rwa [List.count_filter (by simp), List.count_filter (by simp)] at own

theorem indegree : g'.indegree = g.indegree := by
  funext v
  exact same.perm.countP_eq _

theorem executionOrder : g'.executionOrder = g.executionOrder := by
  have pending : g'.pending = g.pending := by
    rw [Graph.pending, Graph.pending, same.ids, same.indegree]
  rw [Graph.executionOrder, Graph.executionOrder, same.ids, same.indegree, pending]
  exact place_congr same.successors _ _ _

theorem cycles : g'.cycles = g.cycles := by
  have visit : Walk.visit g' = Walk.visit g := by
    funext w root
    simp only [Walk.visit, Walk.enter, same.successors, same.ids, same.perm.length_eq,
      run_congr same.successors]
  rw [Graph.cycles, Graph.cycles, same.ids, visit]

theorem roots : g'.roots = g.roots := by
  have entered : ∀ v, g'.arcs.all (·.2 ≠ v) = g.arcs.all (·.2 ≠ v) :=
    fun v => same.perm.all_eq
  simp only [Graph.roots, same.starts, same.ids, entered]

theorem unreachable : g'.unreachable = g.unreachable := by
  have reachable : g'.reachable = g.reachable := by
    rw [reachable, reachable, same.roots, same.perm.length_eq, search_congr same.successors]
  simp only [Graph.unreachable, reachable, same.roots, same.ids]

end SameAtEach

end Flowgraph.Graph
