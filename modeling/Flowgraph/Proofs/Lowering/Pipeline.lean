import Flowgraph.Proofs.Graph.WorkflowGraph
import Flowgraph.Proofs.Lowering.Fragments
import Flowgraph.Proofs.Sequencing

/-!
# How a lowering ends

The ways in which the checks of the graph and then the whole lowering of a workflow can end,
each with what it says of the checks before it. The fragments of a program stand in the order of
the nodes, one a node.
-/
namespace Flowgraph.Workflow

/-- A table has a lowerer for the type of a node. -/
def Supported (table : LowererTable) (n : Node) : Prop :=
  ∃ l ∈ table, l.type = n.type

/-- What a table makes of a node. -/
def LoweredAs (w : Workflow) (table : LowererTable) (n : Node) (f : Fragment) : Prop :=
  ∃ l ∈ table, l.type = n.type ∧ f = l.fragment n (w.leaving n.id)

theorem find?_eq_some_iff (table : LowererTable) (t : NodeType) (l : Lowerer) :
    table.find? t = some l ↔ l ∈ table ∧ l.type = t := by
  constructor
  · intro h
    exact ⟨List.mem_of_find?_eq_some h, by simpa using List.find?_some h⟩
  · rintro ⟨hl, rfl⟩
    cases found : table.find? l.type with
    | none =>
      have := List.find?_eq_none.mp found l hl
      simp at this
    | some m =>
      have same : m.type = l.type := by simpa using List.find?_some found
      rw [Lowerer.type_injective same]

theorem find?_eq_none_iff (table : LowererTable) (n : Node) :
    table.find? n.type = none ↔ ¬Supported table n := by
  simp [LowererTable.find?, Supported]

theorem lowerNode_eq_ok_iff (w : Workflow) (table : LowererTable) (n : Node) (f : Fragment) :
    lowerNode table w.outgoing n = .ok f ↔ w.LoweredAs table n f := by
  unfold lowerNode LoweredAs
  cases found : table.find? n.type with
  | none =>
    have unsupported := (find?_eq_none_iff table n).mp found
    constructor
    · intro h
      cases h
    · rintro ⟨l, hl, ht, _⟩
      exact False.elim (unsupported ⟨l, hl, ht⟩)
  | some l =>
    obtain ⟨hl, ht⟩ := (find?_eq_some_iff table n.type l).mp found
    simp only [Except.ok.injEq, entry_outgoing]
    constructor
    · rintro rfl
      exact ⟨l, hl, ht, rfl⟩
    · rintro ⟨m, _, hm, rfl⟩
      rw [Lowerer.type_injective (ht.trans hm.symm)]

theorem lowerNode_eq_error {w : Workflow} {table : LowererTable} {n : Node} {r : Rejection}
    (h : lowerNode table w.outgoing n = .error r) :
    ¬Supported table n ∧ r = .unsupportedType n.type n.id := by
  unfold lowerNode at h
  cases found : table.find? n.type with
  | none =>
    rw [found] at h
    cases h
    exact ⟨(find?_eq_none_iff table n).mp found, rfl⟩
  | some l =>
    rw [found] at h
    cases h

theorem LoweredAs.supported {w : Workflow} {table : LowererTable} {n : Node} {f : Fragment}
    (h : w.LoweredAs table n f) : Supported table n := by
  obtain ⟨l, hl, ht, _⟩ := h
  exact ⟨l, hl, ht⟩

theorem LoweredAs.step_id {w : Workflow} {table : LowererTable} {n : Node} {f : Fragment}
    (h : w.LoweredAs table n f) : f.step.id = .str n.id := by
  obtain ⟨l, _, _, rfl⟩ := h
  exact l.fragment_step_id n _

/-- Every place for a state reference in a list of fragments holds one. -/
def RefsValid (fragments : List Fragment) : Prop :=
  ∀ f ∈ fragments, ∀ v, f.step.RefSlot v → StateRef.isRef v = true

theorem badRefs_eq_nil_iff {w : Workflow} {table : LowererTable} (version entry : String)
    {fragments : List Fragment} (lowered : List.Forall₂ (w.LoweredAs table) w.nodes fragments) :
    badRefs (assemble version entry fragments) = [] ↔ RefsValid fragments := by
  have listed : ∀ s ∈ fragments.map (·.step), ∃ refs, Step.stateRefs s = .ok refs := by
    intro s hs
    obtain ⟨f, hf, rfl⟩ := List.mem_map.mp hs
    obtain ⟨n, _, l, _, _, rfl⟩ := forall₂_exists_left lowered hf
    exact l.fragment_stateRefs n _
  obtain ⟨lists, hlists⟩ := exists_mapM_eq_ok listed
  have pairs := (mapM_eq_ok_iff _ _ _).mp hlists
  have invalid : (assemble version entry fragments).invalidRefs =
      .ok (lists.flatten.filter (!StateRef.isRef ·)) := by
    unfold Program.invalidRefs
    rw [show (assemble version entry fragments).steps.mapM Step.stateRefs = .ok lists from hlists]
    rfl
  have all : badRefs (assemble version entry fragments) = [] ↔
      ∀ v ∈ lists.flatten, StateRef.isRef v = true := by
    simp only [badRefs, invalid, List.map_eq_nil_iff, List.filter_eq_nil_iff, Bool.not_eq_true,
      Bool.not_eq_false']
  rw [all]
  constructor
  · intro valid f hf v slot
    obtain ⟨refs, hrefs, hs⟩ := forall₂_exists_right pairs (List.mem_map.mpr ⟨f, hf, rfl⟩)
    exact valid v (List.mem_flatten.mpr ⟨refs, hrefs, (Step.mem_stateRefs_iff hs v).mpr slot⟩)
  · intro valid v hv
    obtain ⟨refs, hrefs, hv⟩ := List.mem_flatten.mp hv
    obtain ⟨s, hs, hstep⟩ := forall₂_exists_left pairs hrefs
    obtain ⟨f, hf, rfl⟩ := List.mem_map.mp hs
    exact valid f hf v ((Step.mem_stateRefs_iff hstep v).mp hv)

/-- What the checks of a workflow's graph can end in. -/
inductive GraphOutcome (rejectCycles : Bool) (w : Workflow) : Except Rejection String → Prop
  | dangling {edges ids : List String} (some : w.danglingEdges ≠ []) :
    GraphOutcome rejectCycles w (.error (.danglingEdges edges ids))
  | unreachable (ends : w.danglingEdges = []) (some : w.graph.unreachable ≠ []) :
    GraphOutcome rejectCycles w (.error (.unreachableNodes w.graph.unreachable))
  | cyclic (ends : w.danglingEdges = []) (reached : w.graph.unreachable = [])
      (reject : rejectCycles = true) (some : w.graph.cycles ≠ []) :
    GraphOutcome rejectCycles w (.error (.cyclic w.graph.cycles))
  | startCount (ends : w.danglingEdges = []) (reached : w.graph.unreachable = [])
      (acyclic : rejectCycles = true → w.graph.cycles = []) (count : w.startIds.length ≠ 1) :
    GraphOutcome rejectCycles w (.error (.startCount w.startIds))
  | entry {id : String} (ends : w.danglingEdges = []) (reached : w.graph.unreachable = [])
      (acyclic : rejectCycles = true → w.graph.cycles = []) (one : w.startIds = [id]) :
    GraphOutcome rejectCycles w (.ok id)

theorem checkGraph_outcome (rejectCycles : Bool) (w : Workflow) :
    GraphOutcome rejectCycles w (w.checkGraph rejectCycles) := by
  simp only [checkGraph]
  split
  · rename_i some
    exact .dangling (by simpa using some)
  rename_i ends
  have ends : w.danglingEdges = [] := by simpa using ends
  split
  · rename_i some
    exact .unreachable ends (by simpa using some)
  rename_i reached
  have reached : w.graph.unreachable = [] := by simpa using reached
  split
  · rename_i found
    obtain ⟨reject, some⟩ := Bool.and_eq_true_iff.mp found
    exact .cyclic ends reached reject (by simpa using some)
  rename_i found
  have acyclic : rejectCycles = true → w.graph.cycles = [] := by simpa using found
  split
  · rename_i one
    exact .entry ends reached acyclic one
  · rename_i other
    refine .startCount ends reached acyclic fun one => ?_
    obtain ⟨id, same⟩ := List.length_eq_one_iff.mp one
    exact other id same

/-- What the lowering of a workflow can end in. -/
inductive LowerOutcome (table : LowererTable) (version : String) (rejectCycles : Bool)
    (w : Workflow) : Except Rejection Lowered → Prop
  | graph {r : Rejection} (check : w.checkGraph rejectCycles = .error r) :
    LowerOutcome table version rejectCycles w (.error r)
  | unsupported {entry : String} {n : Node} (check : w.checkGraph rejectCycles = .ok entry)
      (node : n ∈ w.nodes) (none : ¬Supported table n) :
    LowerOutcome table version rejectCycles w (.error (.unsupportedType n.type n.id))
  | invalidRefs {entry : String} {fragments : List Fragment} {refs : List String}
      (check : w.checkGraph rejectCycles = .ok entry)
      (lowered : List.Forall₂ (w.LoweredAs table) w.nodes fragments)
      (invalid : ¬RefsValid fragments) :
    LowerOutcome table version rejectCycles w (.error (.invalidRefs refs))
  | program {entry : String} {fragments : List Fragment}
      (check : w.checkGraph rejectCycles = .ok entry)
      (lowered : List.Forall₂ (w.LoweredAs table) w.nodes fragments)
      (valid : RefsValid fragments) :
    LowerOutcome table version rejectCycles w
      (.ok ⟨assemble version entry fragments, sortedDistinct (fragments.flatMap (·.templates))⟩)

theorem lower_outcome (table : LowererTable) (version : String) (rejectCycles : Bool)
    (w : Workflow) :
    LowerOutcome table version rejectCycles w (w.lower table version rejectCycles) := by
  unfold lower
  cases check : w.checkGraph rejectCycles with
  | error r => exact .graph check
  | ok entry =>
    cases made : w.nodes.mapM (lowerNode table w.outgoing) with
    | error r =>
      obtain ⟨n, hn, he⟩ := mapM_error made
      obtain ⟨none, rfl⟩ := lowerNode_eq_error he
      simpa [bind, Except.bind, made] using LowerOutcome.unsupported check hn none
    | ok fragments =>
      have lowered : List.Forall₂ (w.LoweredAs table) w.nodes fragments :=
        ((mapM_eq_ok_iff _ _ _).mp made).imp fun n f => (w.lowerNode_eq_ok_iff table n f).mp
      have valid := badRefs_eq_nil_iff version entry lowered
      simp only [bind, Except.bind, made]
      split
      · rename_i none
        exact .program check lowered (valid.mp none)
      · rename_i refs some
        refine .invalidRefs check lowered fun all => ?_
        exact some (valid.mpr all)

theorem lower_eq_ok {table : LowererTable} {version : String} {rejectCycles : Bool}
    {w : Workflow} {lowered : Lowered} (h : w.lower table version rejectCycles = .ok lowered) :
    ∃ entry fragments, w.checkGraph rejectCycles = .ok entry ∧
      List.Forall₂ (w.LoweredAs table) w.nodes fragments ∧ RefsValid fragments ∧
      lowered = ⟨assemble version entry fragments,
        sortedDistinct (fragments.flatMap (·.templates))⟩ := by
  have outcome := w.lower_outcome table version rejectCycles
  rw [h] at outcome
  cases outcome with
  | program check made valid => exact ⟨_, _, check, made, valid, rfl⟩

/-- Among steps that stand in the order of the nodes, each with the id of its own, that of a node is
found by its id. -/
theorem exists_find?_step {related : Node → Step → Prop} {nodes : List Node} {steps : List Step}
    (each : List.Forall₂ related nodes steps) (ids : ∀ n s, related n s → s.id = .str n.id)
    (distinct : (nodes.map (·.id)).Nodup) {n : Node} (member : n ∈ nodes) :
    ∃ s, steps.find? (·.id.alike (.str n.id)) = some s ∧ related n s := by
  induction each with
  | nil => exact False.elim (List.not_mem_nil member)
  | @cons m s nodes steps own others ih =>
    obtain ⟨fresh, distinct⟩ := List.nodup_cons.mp distinct
    rw [List.find?_cons, ids m s own, Json.alike_str]
    rcases List.mem_cons.mp member with rfl | later
    · exact ⟨s, by rw [beq_self_eq_true], own⟩
    · have other : m.id ≠ n.id := fun same => fresh (List.mem_map.mpr ⟨n, later, same.symm⟩)
      rw [beq_false_of_ne other]
      exact ih distinct later

end Flowgraph.Workflow
