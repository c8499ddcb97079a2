import Flowgraph.Proofs.Lowering.ProgramGraph

/-!
# The graph that is lowered

The compiler looks at the edges of a workflow in two ways: it analyses adjacency lists, and it
lowers the edges that an index has for each node. The two are collected apart and disagree on
edges that do not begin at a node, since only the index has an entry for these. At the nodes they
agree, edge by edge and in order, so that a lowered program leads where the analysis went. This
holds of all nodes and edges: ids may be declared again, edges may be drawn twice, and their ends
need not be nodes. How an edge is guarded is not said here.
-/
namespace Flowgraph

/-- The adjacency lists of a graph. -/
def Graph.adjacency (g : Graph String) : EdgeIndex String :=
  .ofArcs g.ids g.arcs

/-- What is looked up in the adjacency lists is what the analyses follow. -/
theorem Graph.entry_adjacency (g : Graph String) (id : String) :
    g.adjacency.entry id = g.successors id := by
  rw [adjacency, EdgeIndex.entry, EdgeIndex.lookup_ofArcs, successors]
  split <;> rfl

namespace Workflow

/-- The graph of a workflow that is lowered is the one that is analysed. -/
structure LowersAnalysed (w : Workflow) : Prop where
  outgoing : w.outgoing.Collects (w.nodes.map (·.id)) (·.source) w.edges
  incoming : w.incoming.Collects (w.nodes.map (·.id)) (·.target) w.edges
  /-- At a declared id both have an entry, with the same targets in the same order. -/
  targets : ∀ id, w.Declares id → ∃ es, w.outgoing.lookup id = some es ∧
    w.graph.adjacency.lookup id = some (es.map (·.target))
  /-- There are no adjacency lists for other ids. -/
  undeclared : ∀ id, ¬w.Declares id → w.graph.adjacency.lookup id = none
  /-- The analyses follow the adjacency lists. -/
  followed : ∀ id, w.graph.successors id = w.graph.adjacency.entry id
  /-- The edges of a lowered program join each node to where the analyses went from it. -/
  lowered : ∀ (table : LowererTable) (version : String) (rejectCycles : Bool)
    (lowered : Lowered), w.lower table version rejectCycles = .ok lowered →
    lowered.program.edges.map (fun e => (e.source, e.target)) =
      w.nodes.flatMap fun n => (w.graph.successors n.id).map fun t => (Json.str n.id, Json.str t)

theorem lookup_outgoing {w : Workflow} {id : String} (declared : w.Declares id) :
    w.outgoing.lookup id = some (w.leaving id) := by
  have collects := EdgeIndex.collects_build (w.nodes.map (·.id)) Edge.source w.edges
  have member : id ∈ w.nodes.map (·.id) := (w.mem_graph_ids_iff id).mpr declared
  obtain ⟨es, found⟩ := (collects.entries id).mpr (.inl member)
  rw [outgoing, found, collects.own id es found]
  rfl

theorem lookup_adjacency_of_declares {w : Workflow} {id : String} (declared : w.Declares id) :
    w.graph.adjacency.lookup id = some ((w.leaving id).map (·.target)) := by
  have member := (w.mem_graph_ids_iff id).mpr declared
  rw [Graph.adjacency, EdgeIndex.lookup_ofArcs, if_pos member, ← successors_of_declares declared,
    Graph.successors, if_pos member]

/-- The edges of a lowered program, by what the analyses follow. -/
theorem edges_of_lower {table : LowererTable} {version : String} {rejectCycles : Bool}
    {w : Workflow} {lowered : Lowered} (h : w.lower table version rejectCycles = .ok lowered) :
    lowered.program.edges.map (fun e => (e.source, e.target)) =
      w.nodes.flatMap fun n =>
        (w.graph.successors n.id).map fun t => (Json.str n.id, Json.str t) := by
  obtain ⟨entry, fragments, _, made, _, rfl⟩ := lower_eq_ok h
  refine (fragments_edges_ends made).trans (List.flatMap_congr fun n hn => ?_)
  rw [successors_of_declares ⟨n, hn, rfl⟩, List.map_map]
  refine List.map_congr_left fun e he => ?_
  rw [((w.mem_leaving_iff n.id e).mp he).2]
  rfl

/-- Whatever the nodes and edges of a workflow are, the index of its edges has each of them once
under either end, and agrees with the adjacency lists at every declared id. -/
theorem index_agrees_with_analysis (w : Workflow) : w.LowersAnalysed where
  outgoing := EdgeIndex.collects_build _ _ _
  incoming := EdgeIndex.collects_build _ _ _
  targets id declared :=
    ⟨w.leaving id, lookup_outgoing declared, lookup_adjacency_of_declares declared⟩
  undeclared id other := by
    rw [Graph.adjacency, EdgeIndex.lookup_ofArcs, if_neg (mt (w.mem_graph_ids_iff id).mp other)]
  followed id := (w.graph.entry_adjacency id).symm
  lowered _ _ _ _ h := edges_of_lower h

/-- A draft that is declared twice, entered by an edge that is drawn twice, and revised. -/
def doubled : Workflow where
  id := "doubled"
  name := "Doubled"
  version := formatVersion
  createdAt := ""
  updatedAt := ""
  nodes :=
    [{ id := "begin", type := .start }, { id := "draft", type := .prompt },
     { id := "draft", type := .stop }]
  edges :=
    [{ id := "1", source := "begin", target := "draft" },
     { id := "2", source := "draft", target := "draft" },
     { id := "1", source := "begin", target := "draft" }]

/-- The same with edges of which one end is not declared. -/
def frayed : Workflow :=
  { doubled with edges := doubled.edges ++
      [{ id := "3", source := "gone", target := "draft" },
       { id := "4", source := "draft", target := "nowhere" }] }

/-- The index has an entry for an id that is not declared, and the adjacency lists have none; both
edges that join the same nodes are followed and lowered. -/
theorem frayed_index_agrees :
    frayed.Declares "draft" ∧ frayed.graph.adjacency.lookup "draft" = some ["draft", "nowhere"] ∧
    (∃ es, frayed.outgoing.lookup "draft" = some es ∧ es.map (·.target) = ["draft", "nowhere"]) ∧
    ¬frayed.Declares "gone" ∧ frayed.graph.adjacency.lookup "gone" = none ∧
    (∃ es, frayed.outgoing.lookup "gone" = some es) ∧
    ∃ lowered, doubled.lower .standard "0.1" false = .ok lowered ∧
      lowered.program.edges.map (fun e => (e.source, e.target)) =
        [(.str "begin", .str "draft"), (.str "begin", .str "draft"),
         (.str "draft", .str "draft"), (.str "draft", .str "draft")] := by
  have agrees := index_agrees_with_analysis frayed
  have draft : frayed.Declares "draft" := (frayed.hasNode_iff "draft").mp (by decide)
  have gone : ¬frayed.Declares "gone" := mt (frayed.hasNode_iff "gone").mpr (by decide)
  have listed : frayed.graph.adjacency.lookup "draft" = some ["draft", "nowhere"] := by decide
  obtain ⟨es, found, same⟩ := agrees.targets "draft" draft
  rw [listed] at same
  have leaves : ∃ e ∈ frayed.edges, e.source = "gone" := by decide
  have indexed := (agrees.outgoing.entries "gone").mpr (.inr leaves)
  refine ⟨draft, listed, ⟨es, found, (Option.some.inj same).symm⟩, gone,
    agrees.undeclared "gone" gone, indexed, _, rfl, ?_⟩
  exact ((index_agrees_with_analysis doubled).lowered .standard "0.1" false _ rfl).trans rfl

end Workflow
end Flowgraph
