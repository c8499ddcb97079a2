import Flowgraph.Proofs.Lowering.Acceptance
import Flowgraph.Proofs.SortedDistinct
import Mathlib.Data.List.Flatten

/-!
# The graph of a lowered program

A lowered program has the nodes of the workflow as its steps and the edges of the workflow
as its edges, none lost and none added, each with the guard that its node gives it. The
edges of one node keep their order; those of different nodes are put in the order of the
nodes. What a step does beside this is not said here.
-/
namespace Flowgraph

/-- The edges of nodes of this type are followed on conditions. -/
def NodeType.Branches (t : NodeType) : Prop :=
  t = .ifElse ∨ t = .switch ∨ t = .askUserQuestion

theorem Lowerer.branches_iff (l : Lowerer) : l.type.Branches ↔ l.ownsEdges = true := by
  cases l <;> simp [Lowerer.type, NodeType.Branches, Lowerer.ownsEdges]

/-- The guard of the edge at a position among `count` edges that leave a node. -/
def Lowerer.guardAt (l : Lowerer) (n : Node) (target : Json) (count index : Nat) : Condition :=
  if index + 1 = count then .always
  else ⟨.eq, target, .str (branchValue l.valueKeys (n.configList l.branchesKey) index)⟩

namespace Workflow

/-- What a lowered program has to do with the workflow that it was made from. -/
structure IsGraphOf (w : Workflow) (lowered : Lowered) : Prop where
  steps : lowered.program.steps.map (·.id) = w.nodes.map fun n => Json.str n.id
  entry : ∃ s, lowered.program.steps.filter (·.action.op = .start) = [s] ∧
    lowered.program.entry = s.id
  targets : ∀ n ∈ w.nodes, (lowered.program.outgoing (.str n.id)).map (·.target) =
    (w.leaving n.id).map fun e => Json.str e.target
  edges : lowered.program.edges =
    w.nodes.flatMap fun n => lowered.program.outgoing (.str n.id)
  kept : (lowered.program.edges.map fun e => (e.source, e.target)).Perm
    (w.edges.map fun e => (Json.str e.source, Json.str e.target))
  unguarded : ∀ n ∈ w.nodes, ¬n.type.Branches →
    ∀ e ∈ lowered.program.outgoing (.str n.id), e.condition = .always
  guarded : ∀ n ∈ w.nodes, n.type.Branches → ∃ l s target, Lowerer.type l = n.type ∧
    lowered.program.step? (.str n.id) = some s ∧
    s.inputs.item "evaluationTarget" = .ok target ∧
    ∀ (i : Nat) (e : ProgramEdge), (lowered.program.outgoing (.str n.id))[i]? = some e →
      e.condition = l.guardAt n target (w.leaving n.id).length i
  ascending : lowered.templates.Pairwise (· < ·)
  templates : ∀ t, t ∈ lowered.templates ↔ ∃ s ∈ lowered.program.steps, ∃ call,
    s.action = .llmWrite call ∧ call.promptTemplate = .str t

variable {table : LowererTable} {w : Workflow}

/-! ## Edges by source -/

/-- The values with one of some distinct keys, key by key. -/
theorem perm_flatMap_filter {β : Type} (key : β → String) (keys : List String)
    (distinct : keys.Nodup) (values : List β) (known : ∀ b ∈ values, key b ∈ keys) :
    (keys.flatMap fun k => values.filter (key · = k)).Perm values := by
  induction keys generalizing values with
  | nil =>
    have empty : values = [] := List.eq_nil_iff_forall_not_mem.mpr fun b hb => by
      simpa using known b hb
    simp [empty]
  | cons k keys ih =>
    obtain ⟨fresh, distinct⟩ := List.nodup_cons.mp distinct
    have others := ih distinct (values.filter fun b => !decide (key b = k)) (by
      intro b hb
      obtain ⟨member, other⟩ := List.mem_filter.mp hb
      exact (List.mem_cons.mp (known b member)).resolve_left (by simpa using other))
    have same : (keys.flatMap fun k' => values.filter (key · = k')) =
        keys.flatMap fun k' => (values.filter fun b => !decide (key b = k)).filter (key · = k') := by
      refine List.flatMap_congr fun k' hk' => ?_
      rw [List.filter_filter]
      refine List.filter_congr fun b _ => ?_
      have : k' ≠ k := fun h => fresh (h ▸ hk')
      by_cases hb : key b = k'
      · simp [hb, this]
      · simp [hb]
    rw [List.flatMap_cons, same]
    exact (others.append_left _).trans (List.filter_append_perm _ values)

theorem perm_flatMap_leaving (distinct : (w.nodes.map (·.id)).Nodup)
    (ends : ∀ e ∈ w.edges, w.Declares e.source ∧ w.Declares e.target) :
    (w.nodes.flatMap fun n => w.leaving n.id).Perm w.edges := by
  have known : ∀ e ∈ w.edges, e.source ∈ w.nodes.map (·.id) := by
    intro e he
    obtain ⟨n, hn, same⟩ := (ends e he).1
    exact List.mem_map.mpr ⟨n, hn, same⟩
  have perm := perm_flatMap_filter Edge.source _ distinct w.edges known
  rwa [List.flatMap_map] at perm

theorem LoweredAs.unique {n : Node} {f g : Fragment} (hf : w.LoweredAs table n f)
    (hg : w.LoweredAs table n g) : f = g := by
  obtain ⟨l, _, hl, rfl⟩ := hf
  obtain ⟨m, _, hm, rfl⟩ := hg
  rw [Lowerer.type_injective (hl.trans hm.symm)]

/-- Every edge of a fragment leaves its node. -/
theorem LoweredAs.edge_source {n : Node} {f : Fragment} (h : w.LoweredAs table n f)
    {e : ProgramEdge} (he : e ∈ f.edges) : e.source = .str n.id := by
  obtain ⟨l, _, _, rfl⟩ := h
  have pair : (e.source, e.target) ∈ (l.fragment n (w.leaving n.id)).edges.map
      fun e => (e.source, e.target) := List.mem_map.mpr ⟨e, he, rfl⟩
  rw [l.fragment_edges_ends] at pair
  obtain ⟨e', he', same⟩ := List.mem_map.mp pair
  rw [← (Prod.mk.inj same).1, ((w.mem_leaving_iff _ _).mp he').2]

/-- Of all fragments, only that of a node has edges that leave the node. -/
theorem outgoing_fragments {nodes : List Node} {fragments : List Fragment}
    (made : List.Forall₂ (w.LoweredAs table) nodes fragments)
    (distinct : (nodes.map (·.id)).Nodup) {n : Node} (hn : n ∈ nodes) :
    ∃ f ∈ fragments, w.LoweredAs table n f ∧
      (fragments.flatMap (·.edges)).filter (·.source.alike (.str n.id)) = f.edges := by
  have all {m : Node} {f : Fragment} (h : w.LoweredAs table m f) (same : m.id = n.id) :
      f.edges.filter (·.source.alike (.str n.id)) = f.edges := by
    refine List.filter_eq_self.mpr fun e he => ?_
    simp [h.edge_source he, Json.alike_str, same]
  have none {m : Node} {f : Fragment} (h : w.LoweredAs table m f) (other : m.id ≠ n.id) :
      f.edges.filter (·.source.alike (.str n.id)) = [] := by
    refine List.filter_eq_nil_iff.mpr fun e he => ?_
    simp [h.edge_source he, Json.alike_str, other]
  induction made with
  | nil => exact False.elim (List.not_mem_nil hn)
  | @cons m f nodes fragments hm rest ih =>
    obtain ⟨fresh, distinct⟩ := List.nodup_cons.mp distinct
    rw [List.flatMap_cons, List.filter_append]
    rcases List.mem_cons.mp hn with rfl | hn
    · have others : (fragments.flatMap (·.edges)).filter (·.source.alike (.str n.id)) = [] := by
        rw [List.filter_flatMap]
        refine List.flatMap_eq_nil_iff.mpr fun f' hf' => ?_
        obtain ⟨m', hm', made'⟩ := forall₂_exists_left rest hf'
        exact none made' fun same => fresh (List.mem_map.mpr ⟨m', hm', same⟩)
      exact ⟨f, List.mem_cons_self, hm, by rw [all hm rfl, others, List.append_nil]⟩
    · obtain ⟨f', hf', made', own⟩ := ih distinct hn
      have other : m.id ≠ n.id := fun same => fresh (List.mem_map.mpr ⟨n, hn, same.symm⟩)
      exact ⟨f', List.mem_cons_of_mem f hf', made', by rw [none hm other, own, List.nil_append]⟩

theorem step?_fragments {nodes : List Node} {fragments : List Fragment}
    (made : List.Forall₂ (w.LoweredAs table) nodes fragments)
    (distinct : (nodes.map (·.id)).Nodup) {n : Node} {f : Fragment} (hn : n ∈ nodes)
    (hf : w.LoweredAs table n f) :
    (fragments.map (·.step)).find? (·.id.alike (.str n.id)) = some f.step := by
  have steps : List.Forall₂ (fun n s => ∃ f, w.LoweredAs table n f ∧ f.step = s) nodes
      (fragments.map (·.step)) :=
    List.forall₂_map_right_iff.mpr (made.imp fun _ f lowered => ⟨f, lowered, rfl⟩)
  have ids (m : Node) (s : Step) (step : ∃ f, w.LoweredAs table m f ∧ f.step = s) :
      s.id = .str m.id := by
    obtain ⟨g, lowered, rfl⟩ := step
    exact lowered.step_id
  obtain ⟨_, found, g, lowered, rfl⟩ := exists_find?_step steps ids distinct hn
  rw [found, lowered.unique hf]

/-! ## The whole program -/

theorem step_ids {version entry : String} {fragments : List Fragment}
    (made : List.Forall₂ (w.LoweredAs table) w.nodes fragments) :
    (assemble version entry fragments).steps.map (·.id) = w.nodes.map fun n => Json.str n.id :=
  List.map_map.trans (forall₂_map_eq made fun _ _ h => h.step_id)

/-- The steps that begin a program come from the start nodes. -/
theorem start_steps {nodes : List Node} {fragments : List Fragment}
    (made : List.Forall₂ (w.LoweredAs table) nodes fragments) :
    ((fragments.map (·.step)).filter (·.action.op = .start)).map (·.id) =
      (nodes.filter (·.type = .start)).map fun n => Json.str n.id := by
  induction made with
  | nil => rfl
  | @cons n f nodes fragments h _ ih =>
    have id := h.step_id
    obtain ⟨l, _, ht, rfl⟩ := h
    have same : (l.fragment n (w.leaving n.id)).step.action.op = .start ↔ n.type = .start := by
      rw [l.fragment_op_start_iff, ← ht]
      cases l <;> simp [Lowerer.type]
    rw [List.map_cons, List.filter_cons, List.filter_cons]
    by_cases start : n.type = .start
    · simp only [start, same.mpr start, decide_true, if_true, List.map_cons, id, ih]
    · simp only [start, mt same.mp start, decide_false, Bool.false_eq_true, if_false, ih]

theorem entry_step {version : String} {rejectCycles : Bool} {entry : String}
    {fragments : List Fragment} (check : w.checkGraph rejectCycles = .ok entry)
    (made : List.Forall₂ (w.LoweredAs table) w.nodes fragments) :
    ∃ s, (assemble version entry fragments).steps.filter (·.action.op = .start) = [s] ∧
      (assemble version entry fragments).entry = s.id := by
  have starts : (w.nodes.filter (·.type = .start)).map (fun n => Json.str n.id) =
      [Json.str entry] := by
    have one := congrArg (List.map Json.str) (startIds_of_checkGraph check)
    rwa [startIds, List.map_map] at one
  obtain ⟨s, hs, hid⟩ := List.map_eq_singleton_iff.mp ((start_steps made).trans starts)
  exact ⟨s, hs, hid.symm⟩

/-- The guards of a branching node compare what its step evaluates. -/
theorem LoweredAs.guarded {n : Node} {f : Fragment} (h : w.LoweredAs table n f)
    (branches : n.type.Branches) :
    ∃ l target, Lowerer.type l = n.type ∧ f.step.inputs.item "evaluationTarget" = .ok target ∧
      ∀ (i : Nat) (e : ProgramEdge), f.edges[i]? = some e →
        e.condition = l.guardAt n target (w.leaving n.id).length i := by
  obtain ⟨l, _, ht, rfl⟩ := h
  have owns : l.ownsEdges = true := l.branches_iff.mp (ht ▸ branches)
  obtain ⟨evaluates, _⟩ := Lowerer.fragment_evaluates owns n (w.leaving n.id)
  refine ⟨l, .str (l.evaluationTarget n), ht, evaluates, ?_⟩
  intro i e he
  rw [Lowerer.fragment_edges_of_owns owns, Lowerer.getElem?_branchEdges] at he
  obtain ⟨e', _, rfl⟩ := Option.map_eq_some_iff.mp he
  rw [Nat.zero_add]
  rfl

theorem LoweredAs.unguarded {n : Node} {f : Fragment} (h : w.LoweredAs table n f)
    (plain : ¬n.type.Branches) {e : ProgramEdge} (he : e ∈ f.edges) : e.condition = .always := by
  obtain ⟨l, _, ht, rfl⟩ := h
  have plain : l.ownsEdges = false := by
    rw [← ht, l.branches_iff] at plain
    simpa using plain
  rw [Lowerer.fragment_edges_of_not_owns plain] at he
  obtain ⟨e', _, rfl⟩ := List.mem_map.mp he
  rfl

theorem LoweredAs.ends {n : Node} {f : Fragment} (h : w.LoweredAs table n f) :
    f.edges.map (fun e => (e.source, e.target)) =
      (w.leaving n.id).map fun e => (Json.str e.source, Json.str e.target) := by
  obtain ⟨l, _, _, rfl⟩ := h
  exact l.fragment_edges_ends n _

theorem LoweredAs.mem_templates_iff {n : Node} {f : Fragment} (h : w.LoweredAs table n f)
    (t : String) : t ∈ f.templates ↔
      ∃ call, f.step.action = .llmWrite call ∧ call.promptTemplate = .str t := by
  obtain ⟨l, _, _, rfl⟩ := h
  exact l.mem_fragment_templates_iff n _ t

theorem flatMap_fragments {γ : Type} {nodes : List Node} {fragments : List Fragment}
    (made : List.Forall₂ (w.LoweredAs table) nodes fragments) {mine : Node → List γ}
    {theirs : Fragment → List γ}
    (same : ∀ n ∈ nodes, ∀ f, w.LoweredAs table n f → theirs f = mine n) :
    fragments.flatMap theirs = nodes.flatMap mine := by
  induction made with
  | nil => rfl
  | @cons n f nodes fragments h _ ih =>
    rw [List.flatMap_cons, List.flatMap_cons, same n List.mem_cons_self f h,
      ih fun m hm => same m (List.mem_cons_of_mem n hm)]

/-- The edges of all fragments join what the edges that leave the nodes join, node by node. -/
theorem fragments_edges_ends {fragments : List Fragment}
    (made : List.Forall₂ (w.LoweredAs table) w.nodes fragments) :
    (fragments.flatMap (·.edges)).map (fun e => (e.source, e.target)) =
      w.nodes.flatMap fun n => (w.leaving n.id).map fun e =>
        (Json.str e.source, Json.str e.target) := by
  rw [List.map_flatMap]
  exact flatMap_fragments made fun n _ f hf => hf.ends

theorem fragments_edges_perm {fragments : List Fragment}
    (made : List.Forall₂ (w.LoweredAs table) w.nodes fragments)
    (distinct : (w.nodes.map (·.id)).Nodup)
    (ends : ∀ e ∈ w.edges, w.Declares e.source ∧ w.Declares e.target) :
    ((fragments.flatMap (·.edges)).map fun e => (e.source, e.target)).Perm
      (w.edges.map fun e => (Json.str e.source, Json.str e.target)) := by
  rw [fragments_edges_ends made, ← List.map_flatMap]
  exact (perm_flatMap_leaving distinct ends).map _

theorem mem_fragments_templates_iff {nodes : List Node} {fragments : List Fragment}
    (made : List.Forall₂ (w.LoweredAs table) nodes fragments) (t : String) :
    t ∈ fragments.flatMap (·.templates) ↔ ∃ s ∈ fragments.map (·.step), ∃ call,
      s.action = .llmWrite call ∧ call.promptTemplate = .str t := by
  have own {f : Fragment} (hf : f ∈ fragments) : t ∈ f.templates ↔
      ∃ call, f.step.action = .llmWrite call ∧ call.promptTemplate = .str t := by
    obtain ⟨n, _, h⟩ := forall₂_exists_left made hf
    exact h.mem_templates_iff t
  constructor
  · intro ht
    obtain ⟨f, hf, ht⟩ := List.mem_flatMap.mp ht
    exact ⟨f.step, List.mem_map.mpr ⟨f, hf, rfl⟩, (own hf).mp ht⟩
  · rintro ⟨s, hs, call⟩
    obtain ⟨f, hf, rfl⟩ := List.mem_map.mp hs
    exact List.mem_flatMap.mpr ⟨f, hf, (own hf).mpr call⟩

/-- A node of a lowered workflow has a fragment, whose edges are those that leave its step. -/
theorem exists_fragment {version entry : String} {fragments : List Fragment}
    (made : List.Forall₂ (w.LoweredAs table) w.nodes fragments)
    (distinct : (w.nodes.map (·.id)).Nodup) {n : Node} (hn : n ∈ w.nodes) :
    ∃ f, w.LoweredAs table n f ∧
      (assemble version entry fragments).outgoing (.str n.id) = f.edges ∧
      (assemble version entry fragments).step? (.str n.id) = some f.step := by
  obtain ⟨f, _, hf, own⟩ := outgoing_fragments made distinct hn
  exact ⟨f, hf, own, step?_fragments made distinct hn hf⟩

/-- A lowered program has the graph of its workflow, with nothing lost or added. -/
theorem lower_isGraphOf (table : LowererTable) (version : String) (rejectCycles : Bool)
    (w : Workflow) (lowered : Lowered) (distinct : (w.nodes.map (·.id)).Nodup)
    (h : w.lower table version rejectCycles = .ok lowered) : w.IsGraphOf lowered := by
  have ends := ends_of_not_dangling (lower_ok_clear h .danglingEdge)
  obtain ⟨entry, fragments, check, made, _, rfl⟩ := lower_eq_ok h
  constructor
  · exact step_ids made
  · exact entry_step check made
  · intro n hn
    obtain ⟨f, hf, outgoing, _⟩ := exists_fragment made distinct hn
    have targets := congrArg (List.map Prod.snd) hf.ends
    rw [List.map_map, List.map_map] at targets
    rw [outgoing]
    exact targets
  · refine flatMap_fragments made fun n hn f hf => ?_
    obtain ⟨f', hf', outgoing, _⟩ := exists_fragment made distinct hn
    rw [hf.unique hf', outgoing]
  · exact fragments_edges_perm made distinct ends
  · intro n hn plain e he
    obtain ⟨f, hf, outgoing, _⟩ := exists_fragment made distinct hn
    rw [outgoing] at he
    exact hf.unguarded plain he
  · intro n hn branches
    obtain ⟨f, hf, outgoing, step⟩ := exists_fragment made distinct hn
    obtain ⟨l, target, ht, input, guards⟩ := hf.guarded branches
    refine ⟨l, f.step, target, ht, step, input, ?_⟩
    rw [outgoing]
    exact guards
  · exact sortedDistinct_ascending _
  · intro t
    rw [mem_sortedDistinct]
    exact mem_fragments_templates_iff made t

/-- A question with two answers, one of which needs a further step. -/
def triage : Workflow where
  id := "triage"
  name := "Triage"
  version := formatVersion
  createdAt := ""
  updatedAt := ""
  nodes :=
    [{ id := "begin", type := .start },
     { id := "ask", type := .askUserQuestion,
       config := [("options", .arr [.obj [("value", .str "yes")], .obj [("label", .str "no")]])] },
     { id := "write", type := .prompt },
     { id := "done", type := .stop }]
  edges :=
    [{ id := "1", source := "begin", target := "ask" },
     { id := "2", source := "ask", target := "write" },
     { id := "3", source := "ask", target := "done" },
     { id := "4", source := "write", target := "done" }]

theorem triage_isGraphOf : (triage.nodes.map (·.id)).Nodup ∧
    ∃ lowered, triage.lower .standard "0.1" true = .ok lowered ∧ triage.IsGraphOf lowered :=
  ⟨by decide, _, rfl, lower_isGraphOf .standard "0.1" true triage _ (by decide) rfl⟩

end Workflow
end Flowgraph
