import Flowgraph.Proofs.Lowering.ProgramGraph
import Mathlib.Data.List.Perm.Basic

/-!
# The order of the nodes

Whether a workflow is lowered does not depend on the order in which its nodes are declared,
although the searches and the walk for cycles follow it. The program depends on it only in
the order of the steps and of the groups of edges that leave one step each.
-/
namespace Flowgraph.Workflow

/-- Two workflows with the same edges and with the same nodes in some order. -/
structure Reorders (w' w : Workflow) : Prop where
  nodes : w'.nodes.Perm w.nodes
  edges : w'.edges = w.edges

variable {table : LowererTable} {version : String} {rejectCycles : Bool} {w w' : Workflow}

/-! ## Acceptance -/

namespace Reorders

variable (reorders : w'.Reorders w)
include reorders

theorem leads : w'.Leads = w.Leads := by
  funext a b
  rw [Leads, Leads, reorders.edges]

theorem leaving (id : String) : w'.leaving id = w.leaving id := by
  rw [Workflow.leaving, Workflow.leaving, reorders.edges]

theorem declares (id : String) : w'.Declares id ↔ w.Declares id := by
  simp only [Declares, reorders.nodes.mem_iff]

theorem startIds : w'.startIds.Perm w.startIds :=
  (reorders.nodes.filter _).map _

theorem loweredAs : w'.LoweredAs table = w.LoweredAs table := by
  funext n f
  rw [LoweredAs, LoweredAs, reorders.leaving]

/-- Well-formedness speaks of nodes and edges, and of their order only among the edges. -/
theorem wellFormed (h : w.WellFormed table rejectCycles) : w'.WellFormed table rejectCycles where
  ends := by
    rw [reorders.edges]
    simpa only [reorders.declares] using h.ends
  reach := by
    obtain ⟨s, one, reach⟩ := h.reach
    refine ⟨s, List.perm_singleton.mp (one ▸ reorders.startIds), fun n member => ?_⟩
    rw [reorders.leads]
    exact reach n (reorders.nodes.mem_iff.mp member)
  acyclic := by
    rw [reorders.leads]
    exact h.acyclic
  supported := fun n member => h.supported n (reorders.nodes.mem_iff.mp member)
  refs := by
    intro n member l listed type v slot
    rw [reorders.leaving] at slot
    exact h.refs n (reorders.nodes.mem_iff.mp member) l listed type v slot

end Reorders

/-- A workflow that is well-formed is lowered. -/
theorem exists_lower (h : w.WellFormed table rejectCycles) :
    ∃ lowered, w.lower table version rejectCycles = .ok lowered := by
  cases result : w.lower table version rejectCycles with
  | ok lowered => exact ⟨lowered, rfl⟩
  | error r =>
    obtain ⟨d, -, first⟩ := lower_error_first result
    exact False.elim (wellFormed_iff_clear.mp h d first.1)

/-! ## Programs -/

theorem sortedDistinct_congr {texts texts' : List String} (same : ∀ t, t ∈ texts ↔ t ∈ texts') :
    sortedDistinct texts = sortedDistinct texts' := by
  have ascending := sortedDistinct_ascending texts
  have ascending' := sortedDistinct_ascending texts'
  have perm : (sortedDistinct texts).Perm (sortedDistinct texts') := by
    rw [List.perm_ext_iff_of_nodup (ascending.imp ne_of_lt) (ascending'.imp ne_of_lt)]
    intro t
    rw [mem_sortedDistinct, mem_sortedDistinct, same]
  exact perm.eq_of_pairwise (fun a b _ _ less more => absurd less (lt_asymm more))
    ascending ascending'

/-- No edge of a program leaves an id that is not declared. -/
theorem outgoing_undeclared {fragments : List Fragment} {entry id : String}
    (made : List.Forall₂ (w.LoweredAs table) w.nodes fragments) (unknown : ¬w.Declares id) :
    (assemble version entry fragments).outgoing (.str id) = [] := by
  refine List.filter_eq_nil_iff.mpr fun e member => ?_
  obtain ⟨f, listed, member⟩ := List.mem_flatMap.mp member
  obtain ⟨n, declared, lowered⟩ := forall₂_exists_left made listed
  have other : n.id ≠ id := fun same => unknown ⟨n, declared, same⟩
  simp [lowered.edge_source member, Json.alike_str, other]

/-- What two programs from reordered workflows have in common. -/
structure SameUpToOrder (p q : Lowered) : Prop where
  version : p.program.version = q.program.version
  entry : p.program.entry = q.program.entry
  steps : p.program.steps.Perm q.program.steps
  outgoing : ∀ id : String, p.program.outgoing (.str id) = q.program.outgoing (.str id)
  templates : p.templates = q.templates

/-- A workflow is lowered with its nodes in any order, to the same program up to the order of
its steps, which is that of the nodes. -/
theorem lower_reordered (reorders : w'.Reorders w) (distinct : (w.nodes.map (·.id)).Nodup)
    {lowered : Lowered} (success : w.lower table version rejectCycles = .ok lowered) :
    ∃ lowered', w'.lower table version rejectCycles = .ok lowered' ∧
      SameUpToOrder lowered' lowered ∧
      lowered'.program.steps.map (·.id) = w'.nodes.map fun n => Json.str n.id := by
  have wellFormed := wellFormed_iff_clear.mpr (lower_ok_clear success)
  obtain ⟨lowered', success'⟩ :
      ∃ lowered', w'.lower table version rejectCycles = .ok lowered' :=
    exists_lower (reorders.wellFormed wellFormed)
  obtain ⟨entry, fragments, check, made, -, rfl⟩ := lower_eq_ok success
  obtain ⟨entry', fragments', check', made', -, rfl⟩ := lower_eq_ok success'
  have starts := reorders.startIds
  rw [startIds_of_checkGraph check, startIds_of_checkGraph check'] at starts
  have same : entry' = entry := by simpa using starts
  have distinct' : (w'.nodes.map (·.id)).Nodup := (reorders.nodes.map _).nodup_iff.mpr distinct
  have ids : (assemble version entry' fragments').steps.map (·.id) =
      w'.nodes.map fun n => Json.str n.id := step_ids made'
  have perm : fragments'.Perm fragments := by
    obtain ⟨again, made'', perm⟩ := List.perm_comp_forall₂ reorders.nodes made
    rw [reorders.loweredAs] at made'
    have same : fragments' = again :=
      List.right_unique_forall₂' (fun _ _ _ hf hg => hf.unique hg) made' made''
    exact same ▸ perm
  refine ⟨_, success', ⟨rfl, congrArg Json.str same, perm.map _, fun id => ?_, ?_⟩, ids⟩
  · by_cases declared : w.Declares id
    · obtain ⟨n, member, rfl⟩ := declared
      obtain ⟨f, hf, outgoing, -⟩ := exists_fragment made distinct member
      obtain ⟨f', hf', outgoing', -⟩ :=
        exists_fragment made' distinct' (reorders.nodes.mem_iff.mpr member)
      rw [reorders.loweredAs] at hf'
      rw [outgoing, outgoing', hf'.unique hf]
    · rw [outgoing_undeclared made declared,
        outgoing_undeclared made' (mt (reorders.declares id).mp declared)]
  · exact sortedDistinct_congr fun t => (perm.flatMap_right _).mem_iff

end Flowgraph.Workflow
