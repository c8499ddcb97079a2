import Flowgraph.Compiler.Lowering
import Flowgraph.Proofs.Graph.EdgeIndex
import Flowgraph.Proofs.Graph.Reachability

/-!
# The edges of a workflow

A workflow's edges as a relation between ids, beside the two structures that the compiler
builds from them: the graph that is analysed and the index of the edges that leave a node.
-/
namespace Flowgraph

namespace Workflow

def Declares (w : Workflow) (id : String) : Prop :=
  ∃ n ∈ w.nodes, n.id = id

/-- An edge leads from one id to another; neither need be declared. -/
def Leads (w : Workflow) (a b : String) : Prop :=
  ∃ e ∈ w.edges, e.source = a ∧ e.target = b

/-- The ids from which reachability is measured: the start nodes or, where there is none,
the nodes that no edge enters. -/
def IsRoot (w : Workflow) (id : String) : Prop :=
  id ∈ w.startIds ∨ w.startIds = [] ∧ w.Declares id ∧ ∀ e ∈ w.edges, e.target ≠ id

def leaving (w : Workflow) (id : String) : List Edge :=
  w.edges.filter (·.source = id)

theorem entry_outgoing (w : Workflow) (id : String) : w.outgoing.entry id = w.leaving id :=
  (EdgeIndex.collects_build _ _ _).entry_eq id

theorem mem_leaving_iff (w : Workflow) (id : String) (e : Edge) :
    e ∈ w.leaving id ↔ e ∈ w.edges ∧ e.source = id := by
  simp [leaving]

theorem hasNode_iff (w : Workflow) (id : String) : w.hasNode id = true ↔ w.Declares id := by
  simp [hasNode, Declares]

theorem mem_graph_ids_iff (w : Workflow) (id : String) : id ∈ w.graph.ids ↔ w.Declares id := by
  simp [graph, graphOf, Declares]

theorem declares_of_mem_startIds {w : Workflow} {id : String} (h : id ∈ w.startIds) :
    w.Declares id := by
  obtain ⟨n, hn, rfl⟩ := List.mem_map.mp h
  exact ⟨n, (List.mem_filter.mp hn).1, rfl⟩

theorem graph_arc_iff (w : Workflow) (a b : String) :
    w.graph.Arc a b ↔ w.Declares a ∧ w.Leads a b := by
  rw [Graph.Arc, mem_graph_ids_iff]
  refine and_congr_right fun _ => ?_
  simp [graph, graphOf, Leads]

theorem mem_graph_roots_iff (w : Workflow) (id : String) : id ∈ w.graph.roots ↔ w.IsRoot id := by
  have starts : w.graph.starts = w.startIds := rfl
  by_cases none : w.startIds = []
  · simp only [Graph.roots, starts, none, List.isEmpty_nil, if_true, List.mem_filter,
      mem_graph_ids_iff, IsRoot, List.not_mem_nil, false_or, true_and]
    simp [graph, graphOf]
  · simp [Graph.roots, starts, none, IsRoot]

/-- From a declared id the graph leads where the edges that leave it lead. -/
theorem successors_of_declares {w : Workflow} {id : String} (declared : w.Declares id) :
    w.graph.successors id = (w.leaving id).map (·.target) := by
  rw [Graph.successors, if_pos ((w.mem_graph_ids_iff id).mpr declared)]
  simp only [graph, graphOf, leaving, List.filter_map, List.map_map]
  rfl

/-- Where every end is declared, the graph that is analysed has the workflow's edges. -/
theorem graph_arc_eq_leads {w : Workflow}
    (ends : ∀ e ∈ w.edges, w.Declares e.source ∧ w.Declares e.target) :
    w.graph.Arc = w.Leads := by
  funext a b
  refine propext ⟨fun h => ((w.graph_arc_iff a b).mp h).2, fun h => ?_⟩
  obtain ⟨e, he, rfl, rfl⟩ := h
  exact (w.graph_arc_iff _ _).mpr ⟨(ends e he).1, e, he, rfl, rfl⟩

end Workflow
end Flowgraph
