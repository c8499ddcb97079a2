import Flowgraph.Proofs.Graph.ArcOrder
import Flowgraph.Proofs.Lowering.ProgramGraph

/-!
# What lowering sees of a workflow

Lowering sees the ids, types and configurations of the nodes in their order and, at every id,
the targets of the edges that leave it in theirs. Workflows that agree in these are analysed
and lowered alike, whatever their names, labels, positions, edge ids and handles are, and
however the edges of different nodes are mixed. Rejections are compared by their codes: one
for edges without a node at an end names the edges.
-/
namespace Flowgraph

/-- Two attempts have the same result, or both are rejected with the same code. -/
inductive AlikeOutcomes {α : Type} : Except Rejection α → Except Rejection α → Prop
  | ok (a : α) : AlikeOutcomes (.ok a) (.ok a)
  | error {r q : Rejection} (code : r.code = q.code) : AlikeOutcomes (.error r) (.error q)

namespace AlikeOutcomes

variable {α β : Type}

theorem refl (x : Except Rejection α) : AlikeOutcomes x x := by
  cases x with
  | ok a => exact .ok a
  | error r => exact .error rfl

theorem bind {x y : Except Rejection α} (alike : AlikeOutcomes x y)
    (f : α → Except Rejection β) : AlikeOutcomes (x >>= f) (y >>= f) := by
  cases alike with
  | ok a => exact refl _
  | error code => exact .error code

end AlikeOutcomes

/-- Two nodes differ at most in their labels and positions. -/
structure Node.Redraws (m n : Node) : Prop where
  id : m.id = n.id
  type : m.type = n.type
  config : m.config = n.config

namespace Lowerer

theorem fragment_redrawn {m n : Node} (redraws : m.Redraws n) (l : Lowerer) (es : List Edge) :
    l.fragment m es = l.fragment n es := by
  obtain ⟨id, type, label, position, config⟩ := m
  obtain ⟨rfl, rfl, rfl⟩ := redraws
  cases l <;> rfl

/-- Only the edges of a fragment come from the edges that leave the node. -/
theorem fragment_eq (l : Lowerer) (n : Node) (es : List Edge) :
    l.fragment n es = { l.fragment n [] with edges := (l.fragment n es).edges } := by
  cases l <;> rfl

variable {es es' : List Edge}

theorem branchEdges_congr
    (ends : es'.map (fun e => (e.source, e.target)) = es.map fun e => (e.source, e.target))
    (target : String) (value : Nat → String) (index : Nat) :
    branchEdges target value index es' = branchEdges target value index es := by
  have count : es'.length = es.length := by simpa using congrArg List.length ends
  refine List.ext_getElem? fun k => ?_
  have here := congrArg (·[k]?) ends
  simp only [List.getElem?_map] at here
  have written (c : Condition) (o : Option Edge) : o.map (edgeWith c) =
      (o.map fun e => (e.source, e.target)).map fun p => ⟨.str p.1, .str p.2, c⟩ := by
    cases o <;> rfl
  rw [getElem?_branchEdges, getElem?_branchEdges, count, written, written, here]

/-- Of an edge that leaves a node only its ends are read. -/
theorem fragment_congr
    (ends : es'.map (fun e => (e.source, e.target)) = es.map fun e => (e.source, e.target))
    (l : Lowerer) (n : Node) : l.fragment n es' = l.fragment n es := by
  have edges : (l.fragment n es').edges = (l.fragment n es).edges := by
    cases owns : l.ownsEdges with
    | true => rw [fragment_edges_of_owns owns, fragment_edges_of_owns owns, branchEdges_congr ends]
    | false =>
      have always (list : List Edge) : list.map (edgeWith .always) =
          (list.map fun e => (e.source, e.target)).map fun p => ⟨.str p.1, .str p.2, .always⟩ := by
        rw [List.map_map]
        rfl
      rw [fragment_edges_of_not_owns owns, fragment_edges_of_not_owns owns, always, always, ends]
  rw [fragment_eq, edges, ← fragment_eq]

end Lowerer

namespace Workflow

/-- Two workflows have the same nodes up to labels and positions, and every id, declared or
not, has edges to the same targets in the same order. -/
structure Redraws (w' w : Workflow) : Prop where
  nodes : List.Forall₂ Node.Redraws w'.nodes w.nodes
  targets : ∀ id, (w'.leaving id).map (·.target) = (w.leaving id).map (·.target)

variable {w w' : Workflow}

theorem danglingEdges_eq_nil_iff : w.danglingEdges = [] ↔
    ∀ a ∈ w.graph.arcs, a.1 ∈ w.graph.ids ∧ a.2 ∈ w.graph.ids := by
  have arcs : w.graph.arcs = w.edges.map fun e => (e.source, e.target) := rfl
  rw [danglingEdges, List.filter_eq_nil_iff, arcs, List.forall_mem_map]
  refine forall₂_congr fun e _ => ?_
  rw [mem_graph_ids_iff, mem_graph_ids_iff, ← hasNode_iff, ← hasNode_iff]
  simp

theorem ends_leaving (w : Workflow) (id : String) :
    (w.leaving id).map (fun e => (e.source, e.target)) =
      ((w.leaving id).map (·.target)).map fun v => (id, v) := by
  rw [List.map_map]
  refine List.map_congr_left fun e member => ?_
  rw [((w.mem_leaving_iff id e).mp member).2]
  rfl

namespace Redraws

variable (redraws : w'.Redraws w)
include redraws

theorem ends (id : String) : (w'.leaving id).map (fun e => (e.source, e.target)) =
    (w.leaving id).map fun e => (e.source, e.target) := by
  rw [ends_leaving, ends_leaving, redraws.targets]

theorem ids : w'.nodes.map (·.id) = w.nodes.map (·.id) :=
  (forall₂_map_eq redraws.nodes fun _ _ h => h.id.symm).symm

theorem startIds : w'.startIds = w.startIds := by
  have starts {ms ns : List Node} (nodes : List.Forall₂ Node.Redraws ms ns) :
      (ms.filter (·.type = .start)).map (·.id) = (ns.filter (·.type = .start)).map (·.id) := by
    induction nodes with
    | nil => rfl
    | cons h _ ih =>
      rw [List.filter_cons, List.filter_cons, h.type]
      split
      · rw [List.map_cons, List.map_cons, h.id, ih]
      · exact ih
  exact starts redraws.nodes

theorem sameAtEach : w'.graph.SameAtEach w.graph where
  ids := redraws.ids
  starts := redraws.startIds
  arcs := by
    intro id
    have leaving (w : Workflow) : w.graph.arcs.filter (·.1 = id) =
        (w.leaving id).map fun e => (e.source, e.target) := List.filter_map
    rw [leaving, leaving, redraws.ends]

theorem checkGraph (rejectCycles : Bool) :
    AlikeOutcomes (w'.checkGraph rejectCycles) (w.checkGraph rejectCycles) := by
  have same := redraws.sameAtEach
  have dangling : w'.danglingEdges = [] ↔ w.danglingEdges = [] := by
    rw [danglingEdges_eq_nil_iff, danglingEdges_eq_nil_iff, same.ids]
    simp only [same.perm.mem_iff]
  simp only [Workflow.checkGraph, same.unreachable, same.cycles, redraws.startIds,
    List.isEmpty_iff, Bool.not_eq_true', ← Bool.not_eq_true, dangling]
  by_cases ends : w.danglingEdges = []
  · rw [if_neg (not_not.mpr ends), if_neg (not_not.mpr ends)]
    exact .refl _
  · rw [if_pos ends, if_pos ends]
    exact .error rfl

theorem lowerNodes (table : LowererTable) : w'.nodes.mapM (lowerNode table w'.outgoing) =
    w.nodes.mapM (lowerNode table w.outgoing) := by
  refine mapM_forall₂_congr redraws.nodes fun m n h => ?_
  simp only [lowerNode, entry_outgoing, h.id, h.type, Lowerer.fragment_redrawn h,
    Lowerer.fragment_congr (redraws.ends n.id)]

end Redraws

/-- Workflows that differ only in how they are drawn are analysed alike, and they are lowered to
the same program with the same templates or rejected with the same code. -/
theorem redrawn_lowered_alike (table : LowererTable) (version : String) (rejectCycles : Bool)
    (redraws : w'.Redraws w) :
    AlikeOutcomes (w'.lower table version rejectCycles) (w.lower table version rejectCycles) ∧
    w'.graph.executionOrder = w.graph.executionOrder ∧ w'.graph.cycles = w.graph.cycles ∧
    w'.graph.unreachable = w.graph.unreachable := by
  have same := redraws.sameAtEach
  refine ⟨?_, same.executionOrder, same.cycles, same.unreachable⟩
  simp only [lower, redraws.lowerNodes]
  exact (redraws.checkGraph rejectCycles).bind _

/-- The `triage` of another author, with the edges in the opposite order where no two of them
leave one node. -/
def redrawnTriage : Workflow where
  id := "redrawn"
  name := "Triage, drawn again"
  version := formatVersion
  createdAt := ""
  updatedAt := ""
  nodes :=
    [{ id := "begin", type := .start, label := "Begin" },
     { id := "ask", type := .askUserQuestion, position := ⟨.ofInt 4, .ofInt 2⟩,
       config := [("options", .arr [.obj [("value", .str "yes")], .obj [("label", .str "no")]])] },
     { id := "write", type := .prompt, label := "Write" },
     { id := "done", type := .stop }]
  edges :=
    [{ id := "d", source := "write", target := "done" },
     { id := "b", source := "ask", target := "write", sourceHandle := some "yes" },
     { id := "a", source := "begin", target := "ask" },
     { id := "c", source := "ask", target := "done", sourceHandle := some "no" }]

theorem redrawnTriage_redraws : redrawnTriage.Redraws triage where
  nodes := by
    refine .cons ⟨rfl, rfl, rfl⟩ (.cons ⟨rfl, rfl, rfl⟩ (.cons ⟨rfl, rfl, rfl⟩
      (.cons ⟨rfl, rfl, rfl⟩ .nil)))
  targets := by
    intro id
    simp only [leaving, redrawnTriage, triage, List.filter_cons, List.filter_nil]
    by_cases begin : "begin" = id
    · subst begin
      rfl
    · by_cases ask : "ask" = id
      · subst ask
        rfl
      · by_cases write : "write" = id
        · subst write
          rfl
        · simp only [begin, ask, write, decide_false, Bool.false_eq_true, if_false]

theorem redrawnTriage_lowered_alike : redrawnTriage.Redraws triage ∧
    AlikeOutcomes (redrawnTriage.lower .standard "0.1" true) (triage.lower .standard "0.1" true) :=
  ⟨redrawnTriage_redraws,
    (redrawn_lowered_alike .standard "0.1" true redrawnTriage_redraws).1⟩

end Workflow
end Flowgraph
