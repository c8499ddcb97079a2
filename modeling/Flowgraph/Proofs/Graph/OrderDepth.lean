import Flowgraph.Proofs.Graph.ExecutionOrder
import Mathlib.Order.Lattice.Nat

/-!
# The execution order by depth

The depth of an id is the number of arcs of a longest way that ends in it. Ids that no arc
enters are placed first. Every other id is freed by the last of its sources, which is one of
the deepest, and stands one deeper than that. So the queue is never deeper than one below the
id at its head, and depths do not decrease along the order. Ids of the same depth stand in no
order that is described here, apart from those that no arc enters.
-/
namespace Flowgraph.Graph

variable {α : Type}

/-- A way of some number of arcs that ends in an id. -/
inductive WayTo (g : Graph α) : Nat → α → Prop
  | here (v : α) : WayTo g 0 v
  | arc {n : Nat} {u v : α} (way : WayTo g n u) (joins : g.Joins u v) : WayTo g (n + 1) v

/-- The number of arcs of a longest way that ends in an id; zero if there is none. -/
noncomputable def depth (g : Graph α) (v : α) : Nat :=
  sSup {n | g.WayTo n v}

/-- Some way that ends in an id is as long as its depth, and none is longer. -/
def HasDepth (g : Graph α) (v : α) : Prop :=
  IsGreatest {n | g.WayTo n v} (g.depth v)

theorem depth_of_isGreatest {g : Graph α} {v : α} {d : Nat}
    (longest : IsGreatest {n | g.WayTo n v} d) : g.HasDepth v ∧ g.depth v = d := by
  have same : g.depth v = d := longest.csSup_eq
  exact ⟨by rw [HasDepth, same]; exact longest, same⟩

theorem depth_of_source {g : Graph α} {v : α} (source : ∀ u, ¬g.Joins u v) :
    g.HasDepth v ∧ g.depth v = 0 := by
  refine depth_of_isGreatest ⟨.here v, ?_⟩
  rintro n (_ | ⟨_, joins⟩)
  · exact Nat.le_refl 0
  · exact False.elim (source _ joins)

/-- An id is one deeper than the deepest id from which an arc leads to it. -/
theorem depth_of_deepest {g : Graph α} {u v : α} (joins : g.Joins u v)
    (known : ∀ t, g.Joins t v → g.HasDepth t)
    (deepest : ∀ t, g.Joins t v → g.depth t ≤ g.depth u) :
    g.HasDepth v ∧ g.depth v = g.depth u + 1 := by
  refine depth_of_isGreatest ⟨.arc (known u joins).1 joins, ?_⟩
  rintro n (_ | ⟨way, last⟩)
  · exact Nat.zero_le _
  · have bounded := (known _ last).2 way
    exact Nat.succ_le_succ (bounded.trans (deepest _ last))

variable [DecidableEq α]

theorem indegree_eq_zero_iff (g : Graph α) (v : α) : g.indegree v = 0 ↔ ∀ u, ¬g.Joins u v := by
  rw [← openArcs_nil, openArcs_eq_zero_iff]
  simp

/-- An id is freed by the last of its sources. -/
theorem Placing.freed_joins {g : Graph α} {placed queue : List α} {v w : α} {p : Pending α}
    (h : g.Placing placed (v :: queue) p) (freed : w ∈ (follow p (g.successors v)).2) :
    g.Joins v w ∧ ∀ u, g.Joins u w → u ∈ placed ++ [v] := by
  obtain ⟨_, waiting, free⟩ := (h.freed.2 w).mp freed
  have all := (g.openArcs_eq_zero_iff _ w).mp free
  rw [Ne, openArcs_eq_zero_iff] at waiting
  obtain ⟨u, joins, missing⟩ : ∃ u, g.Joins u w ∧ u ∉ placed := by simpa using waiting
  rcases List.mem_append.mp (all u joins) with old | last
  · exact False.elim (missing old)
  · obtain rfl := List.mem_singleton.mp last
    exact ⟨joins, all⟩

/-! ## Depths between two rounds -/

/-- What holds of the depths of the ids that are placed or queued. -/
structure Layering (g : Graph α) (placed queue : List α) : Prop where
  known : ∀ v ∈ placed ++ queue, g.HasDepth v
  rising : (placed ++ queue).Pairwise fun u v => g.depth u ≤ g.depth v
  /-- No queued id is more than one deeper than what is placed. -/
  near : ∀ w ∈ queue, g.depth w = 0 ∨ ∃ u ∈ placed, g.depth w ≤ g.depth u + 1
  sources : ∃ rest, placed ++ queue = (g.ids.filter fun v => g.indegree v = 0) ++ rest ∧
    ∀ v ∈ rest, g.depth v ≠ 0

theorem Layering.initial (g : Graph α) :
    g.Layering [] (g.ids.filter fun v => g.indegree v = 0) := by
  have source : ∀ v ∈ g.ids.filter (fun v => g.indegree v = 0), g.HasDepth v ∧ g.depth v = 0 := by
    intro v hv
    have none := of_decide_eq_true (List.mem_filter.mp hv).2
    exact depth_of_source ((g.indegree_eq_zero_iff v).mp none)
  refine ⟨fun v hv => (source v hv).1, ?_, fun v hv => .inl (source v hv).2, [], by simp, by simp⟩
  refine List.pairwise_of_forall_mem_list fun u hu v _ => ?_
  rw [(source u hu).2]
  exact Nat.zero_le _

section

variable {g : Graph α} {placed queue : List α} {v : α} {p : Pending α}

/-- What a round frees is one deeper than the id that it places. -/
theorem Layering.freed (h : g.Layering placed (v :: queue))
    (placing : g.Placing placed (v :: queue) p) {w : α} (freed : w ∈ (follow p (g.successors v)).2) :
    g.HasDepth w ∧ g.depth w = g.depth v + 1 := by
  obtain ⟨joins, all⟩ := placing.freed_joins freed
  -- The last source is the one that is placed now, and nothing placed before it is deeper.
  have within : ∀ u, g.Joins u w → u ∈ placed ++ v :: queue ∧ g.depth u ≤ g.depth v := by
    intro u arc
    rcases List.mem_append.mp (all u arc) with old | last
    · exact ⟨List.mem_append_left _ old,
        (List.pairwise_append.mp h.rising).2.2 u old v List.mem_cons_self⟩
    · obtain rfl := List.mem_singleton.mp last
      exact ⟨List.mem_append_right _ List.mem_cons_self, Nat.le_refl _⟩
  exact depth_of_deepest joins (fun u arc => h.known u (within u arc).1) fun u arc =>
    (within u arc).2

theorem Layering.round (h : g.Layering placed (v :: queue))
    (placing : g.Placing placed (v :: queue) p) :
    g.Layering (placed ++ [v]) (queue ++ (follow p (g.successors v)).2) := by
  have new : ∀ w ∈ (follow p (g.successors v)).2, g.HasDepth w ∧ g.depth w = g.depth v + 1 :=
    fun w hw => h.freed placing hw
  have listed : placed ++ [v] ++ (queue ++ (follow p (g.successors v)).2) =
      (placed ++ v :: queue) ++ (follow p (g.successors v)).2 := by simp
  obtain ⟨_, _, before⟩ := List.pairwise_append.mp h.rising
  -- The queue may hold ids of the head's depth and of the next one, so what is freed goes last.
  have queued : ∀ w ∈ queue, g.depth w ≤ g.depth v + 1 := by
    intro w hw
    rcases h.near w (List.mem_cons_of_mem v hw) with zero | ⟨u, hu, near⟩
    · omega
    · have less := before u hu v List.mem_cons_self
      omega
  have limit : ∀ u ∈ placed ++ v :: queue, g.depth u ≤ g.depth v + 1 := by
    intro u hu
    rcases List.mem_append.mp hu with old | other
    · exact Nat.le_succ_of_le (before u old v List.mem_cons_self)
    · rcases List.mem_cons.mp other with rfl | other
      · exact Nat.le_succ _
      · exact queued u other
  refine ⟨?_, ?_, ?_, ?_⟩
  · rw [listed]
    intro w hw
    rcases List.mem_append.mp hw with old | freed
    · exact h.known w old
    · exact (new w freed).1
  · rw [listed, List.pairwise_append]
    refine ⟨h.rising, List.pairwise_of_forall_mem_list fun u hu w hw => ?_, fun u hu w hw => ?_⟩
    · rw [(new u hu).2, (new w hw).2]
    · rw [(new w hw).2]
      exact limit u hu
  · intro w hw
    refine .inr ⟨v, List.mem_append_right _ List.mem_cons_self, ?_⟩
    rcases List.mem_append.mp hw with old | freed
    · exact queued w old
    · exact (new w freed).2.le
  · obtain ⟨rest, whole, deep⟩ := h.sources
    refine ⟨rest ++ (follow p (g.successors v)).2, ?_, ?_⟩
    · rw [listed, whole, List.append_assoc]
    · intro w hw
      rcases List.mem_append.mp hw with old | freed
      · exact deep w old
      · rw [(new w freed).2]
        exact Nat.succ_ne_zero _

end

theorem layering_executionOrder {g : Graph α} (distinct : g.ids.Nodup) :
    g.Layering g.executionOrder [] :=
  (executionOrder_keeps g.Layering distinct (Layering.initial g)
    fun _ _ _ _ placing layered => layered.round placing).2

/-! ## The order -/

/-- An order that goes layer by layer. -/
structure IsLayered (g : Graph α) (order : List α) : Prop where
  /-- Every id of the order has a longest way that ends in it. -/
  longest : ∀ v ∈ order, g.HasDepth v
  rising : order.Pairwise fun u v => g.depth u ≤ g.depth v
  sourcesFirst : (g.ids.filter fun v => v ∈ order ∧ g.depth v = 0) <+: order

/-- For all nodes with distinct ids and all edges, depths do not decrease along the execution
order, and the ids of depth zero come first, as they are declared. -/
theorem executionOrder_isLayered (nodes : List Node) (edges : List Edge)
    (distinct : (nodes.map (·.id)).Nodup) :
    IsLayered (graphOf nodes edges) (graphOf nodes edges).executionOrder := by
  have distinct : (graphOf nodes edges).ids.Nodup := distinct
  generalize graphOf nodes edges = g at distinct ⊢
  have layered := layering_executionOrder distinct
  obtain ⟨rest, whole, deep⟩ := layered.sources
  rw [List.append_nil] at whole
  refine ⟨by simpa using layered.known, by simpa using layered.rising, rest, ?_⟩
  have sources : (g.ids.filter fun v => v ∈ g.executionOrder ∧ g.depth v = 0) =
      g.ids.filter fun v => g.indegree v = 0 := by
    refine List.filter_congr fun v known => decide_eq_decide.mpr ⟨?_, fun zero => ?_⟩
    · rintro ⟨placed, zero⟩
      rw [whole] at placed
      rcases List.mem_append.mp placed with source | other
      · exact of_decide_eq_true (List.mem_filter.mp source).2
      · exact False.elim (deep v other zero)
    · refine ⟨?_, (depth_of_source ((g.indegree_eq_zero_iff v).mp zero)).2⟩
      rw [whole]
      exact List.mem_append_left _ (List.mem_filter.mpr ⟨known, decide_eq_true zero⟩)
  rw [sources]
  exact whole.symm

/-- Edges lead to `merge` from depths zero and one, and to `done` from depths zero and two. -/
def mergingNodes : List Node :=
  [{ id := "done", type := .stop }, { id := "merge", type := .prompt },
   { id := "log", type := .prompt }, { id := "read", type := .prompt },
   { id := "begin", type := .start }]

def mergingEdges : List Edge :=
  [{ id := "1", source := "begin", target := "merge" },
   { id := "2", source := "begin", target := "read" },
   { id := "3", source := "read", target := "merge" },
   { id := "4", source := "merge", target := "done" },
   { id := "5", source := "log", target := "done" }]

theorem merging_order_isLayered : (mergingNodes.map (·.id)).Nodup ∧
    (graphOf mergingNodes mergingEdges).executionOrder =
      ["log", "begin", "read", "merge", "done"] ∧
    IsLayered (graphOf mergingNodes mergingEdges)
      (graphOf mergingNodes mergingEdges).executionOrder :=
  ⟨by decide, by decide, executionOrder_isLayered mergingNodes mergingEdges (by decide)⟩

end Flowgraph.Graph
