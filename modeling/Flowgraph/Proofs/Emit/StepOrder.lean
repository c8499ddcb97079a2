import Flowgraph.Emit.Emitter
import Flowgraph.Proofs.Graph.ExecutionOrder

/-!
# The steps of a command

A command lists every node of its workflow once, whatever the edges are: first the nodes that have
a place in the execution order, each of which is found by its id, then the others as they were
declared. What leads to a node that has a place stands before it. Nothing is said of what leads
to the others, since some of them may lie on a cycle.
-/
namespace Flowgraph

namespace Workflow

variable {w : Workflow}

theorem node?_of_mem (distinct : (w.nodes.map (·.id)).Nodup) {n : Node} (member : n ∈ w.nodes) :
    w.node? n.id = some n := by
  unfold node?
  cases found : w.nodes.find? (·.id == n.id) with
  | none =>
    have absent := List.find?_eq_none.mp found n member
    exact absurd (beq_self_eq_true n.id) absent
  | some m =>
    have same : m.id = n.id := by simpa using List.find?_some found
    rw [List.inj_on_of_nodup_map distinct (List.mem_of_find?_eq_some found) member same]

/-- The nodes of declared ids are all found. -/
theorem exists_nodes (distinct : (w.nodes.map (·.id)).Nodup) {ids : List String}
    (declared : ∀ id ∈ ids, id ∈ w.graph.ids) :
    ∃ found, ids.mapM w.node? = some found ∧ ids.filterMap w.node? = found ∧
      found.map (·.id) = ids ∧ ∀ n ∈ found, n ∈ w.nodes := by
  induction ids with
  | nil => exact ⟨[], List.mapM_nil, rfl, rfl, List.forall_mem_nil _⟩
  | cons id ids ih =>
    obtain ⟨own, others⟩ := List.forall_mem_cons.mp declared
    obtain ⟨n, member, rfl⟩ := List.mem_map.mp own
    obtain ⟨found, all, kept, back, inside⟩ := ih others
    have here := node?_of_mem distinct member
    refine ⟨n :: found, ?_, ?_, ?_, List.forall_mem_cons.mpr ⟨member, inside⟩⟩
    · rw [List.mapM_cons, here, all]
      rfl
    · rw [List.filterMap_cons_some here, kept]
    · rw [List.map_cons, back]

end Workflow

namespace Command

variable {w : Workflow}

/-- An order of nodes has those of the execution order in front, each found by its id, and behind
them the others as they were declared. All nodes are in it, and where an edge leads to a node that
has a place in the execution order, its source stands further in front. -/
structure ListsNodes (w : Workflow) (order : List Node) : Prop where
  parts : ∃ placed, w.graph.executionOrder.mapM w.node? = some placed ∧
    order = placed ++ w.nodes.filter (·.id ∉ w.graph.executionOrder)
  permuted : order.Perm w.nodes
  arranged : ∀ e ∈ w.edges, e.target ∈ w.graph.executionOrder →
    ∀ (j : Nat) (n : Node), order[j]? = some n → n.id = e.target →
      ∃ i < j, ∃ m, order[i]? = some m ∧ m.id = e.source

section

variable {placed : List Node} (ids : placed.map (·.id) = w.graph.executionOrder)
include ids

/-- The nodes that were found are those whose ids have a place. -/
theorem perm_placed (distinct : (w.nodes.map (·.id)).Nodup) (inside : ∀ n ∈ placed, n ∈ w.nodes) :
    placed.Perm (w.nodes.filter (·.id ∈ w.graph.executionOrder)) := by
  have once : (placed.map (·.id)).Nodup := by
    rw [ids]
    exact Graph.nodup_executionOrder distinct
  rw [List.perm_ext_iff_of_nodup once.of_map (distinct.of_map.filter _)]
  intro n
  rw [List.mem_filter, decide_eq_true_eq, ← ids]
  constructor
  · exact fun member => ⟨inside n member, List.mem_map_of_mem member⟩
  · rintro ⟨member, listed⟩
    obtain ⟨m, found, same⟩ := List.mem_map.mp listed
    rwa [← List.inj_on_of_nodup_map distinct (inside m found) member same]

/-- What the execution order says of ids holds of the nodes that were found for them. -/
theorem arranged_placed (distinct : (w.nodes.map (·.id)).Nodup) {e : Edge} (edge : e ∈ w.edges)
    {j : Nat} {n : Node} (here : placed[j]? = some n) (target : n.id = e.target) :
    ∃ i < j, ∃ m, placed[i]? = some m ∧ m.id = e.source := by
  have place : w.graph.executionOrder[j]? = some e.target := by
    rw [← ids, List.getElem?_map, here, Option.map_some, target]
  have joins : w.graph.Joins e.source e.target := List.mem_map.mpr ⟨e, edge, rfl⟩
  obtain ⟨i, less, before⟩ := Graph.arranged_executionOrder distinct j e.target place _ joins
  rw [← ids, List.getElem?_map, Option.map_eq_some_iff] at before
  obtain ⟨m, found, source⟩ := before
  exact ⟨i, less, m, found, source⟩

end

theorem listsNodes_orderedNodes (distinct : (w.nodes.map (·.id)).Nodup) :
    ListsNodes w (orderedNodes w) := by
  have declared : ∀ id ∈ w.graph.executionOrder, id ∈ w.graph.ids := fun id member =>
    ((Graph.mem_executionOrder_iff distinct id).mp member).1
  obtain ⟨placed, all, kept, ids, inside⟩ := Workflow.exists_nodes distinct declared
  have split : orderedNodes w = placed ++ w.nodes.filter (·.id ∉ w.graph.executionOrder) := by
    simp [orderedNodes, kept]
  refine ⟨⟨placed, all, split⟩, ?_, ?_⟩
  · have whole := List.filter_append_perm (·.id ∈ w.graph.executionOrder) w.nodes
    simp only [← decide_not] at whole
    rw [split]
    exact ((perm_placed ids distinct inside).append_right _).trans whole
  · intro e edge has j n here target
    rw [split] at here ⊢
    have front : j < placed.length := by
      by_contra behind
      rw [List.getElem?_append_right (by omega)] at here
      have other := (List.mem_filter.mp (List.mem_of_getElem? here)).2
      rw [decide_eq_true_eq, target] at other
      exact other has
    rw [List.getElem?_append_left front] at here
    obtain ⟨i, less, m, found, source⟩ := arranged_placed ids distinct edge here target
    refine ⟨i, less, m, ?_, source⟩
    rw [List.getElem?_append_left (by omega), found]

/-- Step lines are numbered one by one. -/
theorem getElem?_stepLines (first : Nat) (nodes : List Node) (k : Nat) :
    (stepLines first nodes)[k]? = nodes[k]?.map (stepLine (first + k)) := by
  induction nodes generalizing first k with
  | nil => rfl
  | cons n nodes ih =>
    cases k with
    | zero => rfl
    | succ k =>
      rw [stepLines, List.getElem?_cons_succ, ih, List.getElem?_cons_succ]
      congr 2
      omega

theorem length_stepLines (first : Nat) (nodes : List Node) :
    (stepLines first nodes).length = nodes.length := by
  induction nodes generalizing first with
  | nil => rfl
  | cons n nodes ih => rw [stepLines, List.length_cons, ih, List.length_cons]

/-- The step lines stand between a heading of their own and that of the connections. -/
theorem exists_lines (i : EmitInput) : ∃ before after, lines i = before ++
    "Workflow steps:" :: (stepLines 1 (orderedNodes i.workflow) ++
      "" :: "Connections:" :: after) := by
  refine ⟨["---", "description: Execute workflow " ++ i.workflow.name,
    "allowed-tools: " ++ ",".intercalate (allowedTools i.workflow), "---", "",
    "Model: " ++ i.model.displayName, ""],
    i.workflow.edges.map fun e => "- " ++ e.source ++ " -> " ++ e.target, ?_⟩
  simp [lines]

/-- For every workflow with distinct ids, cyclic or with edges that lead to or from nowhere, the
nodes are put in an order that lists all of them, and the command has one line for each in this
order, numbered from one on. -/
theorem steps_list_every_node (i : EmitInput) (distinct : (i.workflow.nodes.map (·.id)).Nodup) :
    ListsNodes i.workflow (orderedNodes i.workflow) ∧
    ∃ (o : Output) (f : OutputFile) (before steps after : List String),
      Emitter.command.emit i = .ok o ∧ o.files = [f] ∧
      f.content = "\n".intercalate
        (before ++ "Workflow steps:" :: (steps ++ "" :: "Connections:" :: after)) ∧
      steps.length = i.workflow.nodes.length ∧
      ∀ (k : Nat) (n : Node), (orderedNodes i.workflow)[k]? = some n → steps[k]? =
        some (toString (k + 1) ++ ". " ++ n.title ++ " (" ++ n.type.name ++ ")" ++ describe n) := by
  have lists := listsNodes_orderedNodes distinct
  obtain ⟨before, after, split⟩ := exists_lines i
  refine ⟨lists, Emitter.command.single i (file i), file i, before,
    stepLines 1 (orderedNodes i.workflow), after, rfl, rfl, ?_, ?_, ?_⟩
  · unfold file
    rw [split]
  · rw [length_stepLines]
    exact lists.permuted.length_eq
  · intro k n here
    rw [getElem?_stepLines, here, Option.map_some, stepLine, Nat.add_comm]

/-- `check` and `retry` lie on a cycle, `report` behind it, `lost` behind an id that is not
declared, and one edge leads to such an id. -/
def draft : EmitInput where
  workflow :=
    { id := "draft"
      name := "Draft"
      version := Workflow.formatVersion
      createdAt := ""
      updatedAt := ""
      nodes := Graph.draftNodes
      edges := { id := "0", source := "write", target := "nowhere" } :: Graph.draftEdges }
  model :=
    { id := "m", displayName := "M", provider := "p", capabilities := { contextWindow := 1000 } }

theorem draft_steps_listed : (draft.workflow.nodes.map (·.id)).Nodup ∧
    (orderedNodes draft.workflow).map (·.id) =
      ["begin", "write", "done", "report", "check", "retry", "lost"] ∧
    ListsNodes draft.workflow (orderedNodes draft.workflow) ∧
    ∃ (o : Output) (f : OutputFile) (before steps after : List String),
      Emitter.command.emit draft = .ok o ∧ o.files = [f] ∧
      f.content = "\n".intercalate
        (before ++ "Workflow steps:" :: (steps ++ "" :: "Connections:" :: after)) ∧
      steps.length = 7 ∧ ∀ (k : Nat) (n : Node), (orderedNodes draft.workflow)[k]? = some n →
        steps[k]? = some
          (toString (k + 1) ++ ". " ++ n.title ++ " (" ++ n.type.name ++ ")" ++ describe n) := by
  have distinct : (draft.workflow.nodes.map (·.id)).Nodup := by
    change (Graph.draftNodes.map (·.id)).Nodup
    decide
  exact ⟨distinct, by decide +kernel, steps_list_every_node draft distinct⟩

end Command
end Flowgraph
