import Flowgraph.Proofs.Graph.CycleWalk
import Flowgraph.Proofs.Lowering.Pipeline

/-!
# Which workflows are accepted

A workflow is lowered exactly when it is well-formed, and otherwise it is rejected for the
first of its defects in a fixed order. Well-formedness and the defects are said with paths
along the workflow's edges, not with the searches that the checks run. Which ids a
rejection names is not said here.
-/
namespace Flowgraph

/-- What can be wrong with a workflow. -/
inductive Defect where
  | danglingEdge
  | unreachableNode
  | directedCycle
  | startCount
  | unsupportedType
  | invalidRef
deriving DecidableEq, Repr

/-- The place of a defect in the order in which defects are looked for. -/
def Defect.rank : Defect → Nat
  | danglingEdge => 0
  | unreachableNode => 1
  | directedCycle => 2
  | startCount => 3
  | unsupportedType => 4
  | invalidRef => 5

theorem Defect.rank_injective {d d' : Defect} (h : d.rank = d'.rank) : d = d' := by
  cases d <;> cases d' <;> first | rfl | cases h

/-- The defect for which a rejection is given; the last two are not about workflows. -/
def Rejection.defect? : Rejection → Option Defect
  | danglingEdges .. => some .danglingEdge
  | unreachableNodes _ => some .unreachableNode
  | cyclic _ => some .directedCycle
  | startCount _ => some .startCount
  | unsupportedType .. => some .unsupportedType
  | invalidRefs _ => some .invalidRef
  | missingTemplates _ | emptyOutput _ => none

namespace Workflow

/-- Every place for a state reference in the lowered nodes holds one. -/
def RefsWritten (table : LowererTable) (w : Workflow) : Prop :=
  ∀ n ∈ w.nodes, ∀ l ∈ table, l.type = n.type →
    ∀ v, (l.fragment n (w.leaving n.id)).step.RefSlot v → StateRef.isRef v = true

/-- What the author of a workflow has to keep to. -/
structure WellFormed (table : LowererTable) (rejectCycles : Bool) (w : Workflow) : Prop where
  ends : ∀ e ∈ w.edges, w.Declares e.source ∧ w.Declares e.target
  reach : ∃ s, w.startIds = [s] ∧ ∀ n ∈ w.nodes, Relation.ReflTransGen w.Leads s n.id
  acyclic : rejectCycles = true → ∀ v, ¬Relation.TransGen w.Leads v v
  supported : ∀ n ∈ w.nodes, Supported table n
  refs : w.RefsWritten table

def Has (table : LowererTable) (rejectCycles : Bool) (w : Workflow) : Defect → Prop
  | .danglingEdge => ∃ e ∈ w.edges, ¬w.Declares e.source ∨ ¬w.Declares e.target
  | .unreachableNode => (∃ r, w.IsRoot r) ∧
      ∃ n ∈ w.nodes, ∀ r, w.IsRoot r → ¬Relation.ReflTransGen w.Leads r n.id
  | .directedCycle => rejectCycles = true ∧ ∃ v, Relation.TransGen w.Leads v v
  | .startCount => w.startIds.length ≠ 1
  | .unsupportedType => ∃ n ∈ w.nodes, ¬Supported table n
  | .invalidRef => ∃ n ∈ w.nodes, ∃ l ∈ table, l.type = n.type ∧
      ∃ v, (l.fragment n (w.leaving n.id)).step.RefSlot v ∧ StateRef.isRef v = false

/-- A workflow has none of the defects before a place in the order. -/
def ClearBelow (table : LowererTable) (rejectCycles : Bool) (w : Workflow) (k : Nat) : Prop :=
  ∀ d : Defect, d.rank < k → ¬w.Has table rejectCycles d

/-- The defect that a workflow is rejected for. -/
def FirstDefect (table : LowererTable) (rejectCycles : Bool) (w : Workflow) (d : Defect) : Prop :=
  w.Has table rejectCycles d ∧ w.ClearBelow table rejectCycles d.rank

variable {table : LowererTable} {rejectCycles : Bool} {w : Workflow}

theorem ClearBelow.zero : w.ClearBelow table rejectCycles 0 :=
  fun _ h => False.elim (Nat.not_lt_zero _ h)

theorem ClearBelow.next {d : Defect} (h : w.ClearBelow table rejectCycles d.rank)
    (no : ¬w.Has table rejectCycles d) : w.ClearBelow table rejectCycles (d.rank + 1) := by
  intro d' hd'
  by_cases same : d'.rank = d.rank
  · exact Defect.rank_injective same ▸ no
  · exact h d' (by omega)

theorem FirstDefect.unique {d d' : Defect} (h : w.FirstDefect table rejectCycles d)
    (h' : w.FirstDefect table rejectCycles d') : d = d' := by
  apply Defect.rank_injective
  by_contra ne
  rcases Nat.lt_or_gt_of_ne ne with less | more
  · exact h'.2 d less h.1
  · exact h.2 d' more h'.1

/-! ## Defects and the searches -/

theorem ends_of_not_dangling (h : ¬w.Has table rejectCycles .danglingEdge) :
    ∀ e ∈ w.edges, w.Declares e.source ∧ w.Declares e.target := by
  intro e he
  constructor
  · by_contra hs
    exact h ⟨e, he, Or.inl hs⟩
  · by_contra ht
    exact h ⟨e, he, Or.inr ht⟩

theorem has_danglingEdge_iff : w.Has table rejectCycles .danglingEdge ↔ w.danglingEdges ≠ [] := by
  have bad (e : Edge) : (!(w.hasNode e.source && w.hasNode e.target)) = true ↔
      ¬w.Declares e.source ∨ ¬w.Declares e.target := by
    rw [← w.hasNode_iff, ← w.hasNode_iff, Bool.not_eq_true', Bool.and_eq_false_iff]
    simp
  constructor
  · rintro ⟨e, he, missing⟩
    exact List.ne_nil_of_mem (List.mem_filter.mpr ⟨he, (bad e).mpr missing⟩)
  · intro some
    obtain ⟨e, he⟩ := List.exists_mem_of_ne_nil _ some
    exact ⟨e, (List.mem_filter.mp he).1, (bad e).mp (List.mem_filter.mp he).2⟩

theorem has_unreachableNode_iff (ends : ∀ e ∈ w.edges, w.Declares e.source ∧ w.Declares e.target) :
    w.Has table rejectCycles .unreachableNode ↔ w.graph.unreachable ≠ [] := by
  have reaches : w.graph.Reaches = Relation.ReflTransGen w.Leads :=
    congrArg Relation.ReflTransGen (graph_arc_eq_leads ends)
  have member (v : String) : v ∈ w.graph.unreachable ↔ w.graph.roots ≠ [] ∧ w.Declares v ∧
      ∀ r, w.IsRoot r → ¬Relation.ReflTransGen w.Leads r v := by
    rw [w.graph.mem_unreachable_iff, mem_graph_ids_iff, reaches]
    simp only [mem_graph_roots_iff]
  have rooted : w.graph.roots ≠ [] ↔ ∃ r, w.IsRoot r := by
    constructor
    · intro some
      obtain ⟨r, hr⟩ := List.exists_mem_of_ne_nil _ some
      exact ⟨r, (w.mem_graph_roots_iff r).mp hr⟩
    · rintro ⟨r, hr⟩
      exact List.ne_nil_of_mem ((w.mem_graph_roots_iff r).mpr hr)
  constructor
  · rintro ⟨root, n, hn, far⟩
    exact List.ne_nil_of_mem ((member n.id).mpr ⟨rooted.mpr root, ⟨n, hn, rfl⟩, far⟩)
  · intro some
    obtain ⟨v, hv⟩ := List.exists_mem_of_ne_nil _ some
    obtain ⟨root, ⟨n, hn, rfl⟩, far⟩ := (member v).mp hv
    exact ⟨rooted.mp root, n, hn, far⟩

theorem has_directedCycle_iff (ends : ∀ e ∈ w.edges, w.Declares e.source ∧ w.Declares e.target) :
    w.Has table rejectCycles .directedCycle ↔ rejectCycles = true ∧ w.graph.cycles ≠ [] := by
  have acyclic := w.graph.cycles_eq_nil_iff
  rw [graph_arc_eq_leads ends] at acyclic
  refine and_congr_right fun _ => ?_
  rw [ne_eq, acyclic]
  simp

/-! ## The order of the checks -/

theorem clear_of_ends (ends : w.danglingEdges = []) :
    w.ClearBelow table rejectCycles Defect.unreachableNode.rank :=
  ClearBelow.zero.next fun dangling => has_danglingEdge_iff.mp dangling ends

theorem clear_of_reached (ends : w.danglingEdges = []) (reached : w.graph.unreachable = []) :
    w.ClearBelow table rejectCycles Defect.directedCycle.rank := by
  have clear : w.ClearBelow table rejectCycles _ := clear_of_ends ends
  have declared := ends_of_not_dangling (clear .danglingEdge (by decide))
  exact clear.next fun far => (has_unreachableNode_iff declared).mp far reached

theorem clear_of_acyclic (ends : w.danglingEdges = []) (reached : w.graph.unreachable = [])
    (acyclic : rejectCycles = true → w.graph.cycles = []) :
    w.ClearBelow table rejectCycles Defect.startCount.rank := by
  have clear : w.ClearBelow table rejectCycles _ := clear_of_reached ends reached
  have declared := ends_of_not_dangling (clear .danglingEdge (by decide))
  refine clear.next fun cyclic => ?_
  obtain ⟨reject, some⟩ := (has_directedCycle_iff declared).mp cyclic
  exact some (acyclic reject)

/-- The graph checks reject for the first defect of the graph, or find the only start. -/
theorem checkGraph_first (table : LowererTable) (rejectCycles : Bool) (w : Workflow) :
    (∃ r d, w.checkGraph rejectCycles = .error r ∧ r.defect? = some d ∧
      w.FirstDefect table rejectCycles d) ∨
    ∃ s, w.checkGraph rejectCycles = .ok s ∧ w.startIds = [s] ∧
      w.ClearBelow table rejectCycles Defect.unsupportedType.rank := by
  have outcome := w.checkGraph_outcome rejectCycles
  generalize w.checkGraph rejectCycles = result at outcome ⊢
  cases outcome with
  | dangling some =>
    exact Or.inl ⟨_, .danglingEdge, rfl, rfl, has_danglingEdge_iff.mpr some, .zero⟩
  | unreachable ends some =>
    have clear : w.ClearBelow table rejectCycles _ := clear_of_ends ends
    have declared := ends_of_not_dangling (clear .danglingEdge (by decide))
    have far : w.Has table rejectCycles .unreachableNode :=
      (has_unreachableNode_iff declared).mpr some
    exact Or.inl ⟨_, .unreachableNode, rfl, rfl, far, clear⟩
  | cyclic ends reached reject some =>
    have clear : w.ClearBelow table rejectCycles _ := clear_of_reached ends reached
    have declared := ends_of_not_dangling (clear .danglingEdge (by decide))
    have cyclic : w.Has table rejectCycles .directedCycle :=
      (has_directedCycle_iff declared).mpr ⟨reject, some⟩
    exact Or.inl ⟨_, .directedCycle, rfl, rfl, cyclic, clear⟩
  | startCount ends reached acyclic count =>
    exact Or.inl ⟨_, .startCount, rfl, rfl, count, clear_of_acyclic ends reached acyclic⟩
  | entry ends reached acyclic one =>
    have clear : w.ClearBelow table rejectCycles _ := clear_of_acyclic ends reached acyclic
    refine Or.inr ⟨_, rfl, one, clear.next fun count => ?_⟩
    exact count (by rw [one]; rfl)

theorem startIds_of_checkGraph {entry : String} (check : w.checkGraph rejectCycles = .ok entry) :
    w.startIds = [entry] := by
  have outcome := w.checkGraph_outcome rejectCycles
  rw [check] at outcome
  cases outcome with
  | entry _ _ _ one => exact one

theorem invalidRef_iff {fragments : List Fragment}
    (lowered : List.Forall₂ (w.LoweredAs table) w.nodes fragments) :
    w.Has table rejectCycles .invalidRef ↔ ¬RefsValid fragments := by
  constructor
  · rintro ⟨n, hn, l, hl, ht, v, slot, bad⟩ valid
    obtain ⟨f, hf, m, _, hm, rfl⟩ := forall₂_exists_right lowered hn
    obtain rfl := Lowerer.type_injective (ht.trans hm.symm)
    rw [valid _ hf v slot] at bad
    cases bad
  · intro invalid
    unfold RefsValid at invalid
    push Not at invalid
    obtain ⟨f, hf, v, slot, bad⟩ := invalid
    obtain ⟨n, hn, l, hl, ht, rfl⟩ := forall₂_exists_left lowered hf
    exact ⟨n, hn, l, hl, ht, v, slot, by simpa using bad⟩

/-- A lowering that fails does so for the first defect. -/
theorem lower_error_first {version : String} {r : Rejection}
    (h : w.lower table version rejectCycles = .error r) :
    ∃ d, r.defect? = some d ∧ w.FirstDefect table rejectCycles d := by
  have outcome := w.lower_outcome table version rejectCycles
  have graph := checkGraph_first table rejectCycles w
  rw [h] at outcome
  cases outcome with
  | graph check =>
    rw [check] at graph
    rcases graph with ⟨r', d, hr, found⟩ | ⟨s, hs, _⟩
    · cases hr
      exact ⟨d, found⟩
    · cases hs
  | unsupported check node none =>
    rw [check] at graph
    rcases graph with ⟨r', d, hr, _⟩ | ⟨s, _, _, clear⟩
    · cases hr
    · exact ⟨.unsupportedType, rfl, ⟨_, node, none⟩, clear⟩
  | invalidRefs check lowered invalid =>
    rw [check] at graph
    rcases graph with ⟨r', d, hr, _⟩ | ⟨s, _, _, clear⟩
    · cases hr
    · have supported : ¬w.Has table rejectCycles .unsupportedType := by
        rintro ⟨n, hn, none⟩
        obtain ⟨f, _, made⟩ := forall₂_exists_right lowered hn
        exact none made.supported
      exact ⟨.invalidRef, rfl, (invalidRef_iff lowered).mpr invalid, clear.next supported⟩

/-- A workflow that is lowered has no defect. -/
theorem lower_ok_clear {version : String} {lowered : Lowered}
    (h : w.lower table version rejectCycles = .ok lowered) (d : Defect) :
    ¬w.Has table rejectCycles d := by
  obtain ⟨entry, fragments, check, made, valid, _⟩ := lower_eq_ok h
  rcases checkGraph_first table rejectCycles w with ⟨r, _, hr, _⟩ | ⟨s, _, _, clear⟩
  · rw [check] at hr
    cases hr
  · have supported : ¬w.Has table rejectCycles .unsupportedType := by
      rintro ⟨n, hn, none⟩
      obtain ⟨f, _, made⟩ := forall₂_exists_right made hn
      exact none made.supported
    have refs : ¬w.Has table rejectCycles .invalidRef :=
      fun bad => (invalidRef_iff made).mp bad valid
    have all : w.ClearBelow table rejectCycles 6 := (clear.next supported).next refs
    exact all d (by cases d <;> decide)

/-! ## Well-formedness -/

/-- With one start, that start is the only root. -/
theorem isRoot_iff_of_one {s : String} (one : w.startIds = [s]) (r : String) :
    w.IsRoot r ↔ r = s := by
  simp [IsRoot, one]

theorem wellFormed_iff_clear :
    w.WellFormed table rejectCycles ↔ ∀ d, ¬w.Has table rejectCycles d := by
  constructor
  · intro h d has
    cases d with
    | danglingEdge =>
      obtain ⟨e, he, missing⟩ := has
      exact missing.elim (fun hs => hs (h.ends e he).1) fun ht => ht (h.ends e he).2
    | unreachableNode =>
      obtain ⟨s, one, reach⟩ := h.reach
      obtain ⟨_, n, hn, far⟩ := has
      exact far s ((isRoot_iff_of_one one s).mpr rfl) (reach n hn)
    | directedCycle =>
      obtain ⟨reject, v, path⟩ := has
      exact h.acyclic reject v path
    | startCount =>
      obtain ⟨s, one, _⟩ := h.reach
      exact has (by simp [one])
    | unsupportedType =>
      obtain ⟨n, hn, none⟩ := has
      exact none (h.supported n hn)
    | invalidRef =>
      obtain ⟨n, hn, l, hl, ht, v, slot, bad⟩ := has
      rw [h.refs n hn l hl ht v slot] at bad
      cases bad
  · intro clear
    obtain ⟨s, one⟩ := List.length_eq_one_iff.mp (not_not.mp (clear .startCount))
    refine ⟨ends_of_not_dangling (clear .danglingEdge), ⟨s, one, ?_⟩, ?_, ?_, ?_⟩
    · intro n hn
      by_contra far
      refine clear .unreachableNode ⟨⟨s, (isRoot_iff_of_one one s).mpr rfl⟩, n, hn, ?_⟩
      intro r hr
      exact (isRoot_iff_of_one one r).mp hr ▸ far
    · exact fun reject v path => clear .directedCycle ⟨reject, v, path⟩
    · intro n hn
      by_contra none
      exact clear .unsupportedType ⟨n, hn, none⟩
    · intro n hn l hl ht v slot
      by_contra bad
      exact clear .invalidRef ⟨n, hn, l, hl, ht, v, slot, by simpa using bad⟩

/-- A workflow is lowered exactly when it is well-formed; one that is not is rejected, and
the rejection is for its first defect. -/
theorem lower_accepts_exactly_wellFormed (table : LowererTable) (version : String)
    (rejectCycles : Bool) (w : Workflow) :
    ((∃ lowered, w.lower table version rejectCycles = .ok lowered) ↔
      w.WellFormed table rejectCycles) ∧
    (¬w.WellFormed table rejectCycles →
      ∃ r, w.lower table version rejectCycles = .error r) ∧
    ∀ d, (∃ r, w.lower table version rejectCycles = .error r ∧ r.defect? = some d) ↔
      w.FirstDefect table rejectCycles d := by
  cases result : w.lower table version rejectCycles with
  | ok lowered =>
    have clear := lower_ok_clear result
    have wellFormed := wellFormed_iff_clear.mpr clear
    refine ⟨⟨fun _ => wellFormed, fun _ => ⟨lowered, rfl⟩⟩, fun bad => False.elim (bad wellFormed),
      fun d => ⟨?_, fun first => False.elim (clear d first.1)⟩⟩
    rintro ⟨r, hr, _⟩
    cases hr
  | error r =>
    obtain ⟨d, hd, first⟩ := lower_error_first result
    have bad : ¬w.WellFormed table rejectCycles :=
      fun h => wellFormed_iff_clear.mp h d first.1
    refine ⟨⟨?_, fun h => False.elim (bad h)⟩, fun _ => ⟨r, rfl⟩, fun d' => ⟨?_, ?_⟩⟩
    · rintro ⟨lowered, hl⟩
      cases hl
    · rintro ⟨r', hr, hd'⟩
      cases hr
      obtain rfl := Option.some.inj (hd.symm.trans hd')
      exact first
    · intro first'
      exact ⟨r, rfl, first.unique first' ▸ hd⟩

end Workflow
end Flowgraph
