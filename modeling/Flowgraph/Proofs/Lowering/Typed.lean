import Flowgraph.Proofs.Lowering.Pipeline
import Flowgraph.Proofs.Program.RoundTrip
import Flowgraph.Proofs.Workflow.Checking

/-!
# Lowered programs are in order

What a lowerer takes from the configuration of a well-typed node is proper, and the rest of
what it makes are texts: so are the classes of failures in an escalation policy, since only texts
are read as one. A program that was lowered from well-typed nodes is therefore well-typed, so that
it survives being written.
-/
namespace Flowgraph

theorem Fields.proper_getD {fields : Fields} (proper : (Json.obj fields).Proper) (key : String) :
    (fields.getD key).Proper := by
  rw [getD]
  cases found : fields.get? key with
  | none => trivial
  | some v => exact Fields.proper_get? proper found

theorem Fields.getD_eq_iff {fields : Fields} {key : String} {v : Json} (set : v ≠ .null) :
    fields.getD key = v ↔ fields.get? key = some v := by
  rw [getD]
  cases fields.get? key with
  | none => simp [set.symm]
  | some w => simp

theorem Node.proper_configList {n : Node} (typed : n.WellTyped) (key : String) :
    (Json.arr (n.configList key)).Proper := by
  have proper := Fields.proper_getD typed.config key
  rw [configList]
  split
  · rename_i items found
    rwa [found] at proper
  · trivial

/-! ## Escalation policies -/

/-- A policy names a class of models. The second key is looked at where the first is missing. -/
def NamesModelClass (policy : Fields) (c : ModelClass) : Prop :=
  policy.get? "toModelClass" = some (.str c.name) ∨
    policy.get? "toModelClass" = none ∧ policy.get? "to_model_class" = some (.str c.name)

theorem namesModelClass_iff {policy : Fields} {c : ModelClass} : NamesModelClass policy c ↔
    ModelClass.read ((policy.get? "toModelClass").getD (policy.getD "to_model_class")) = .ok c := by
  rw [ModelClass.read_eq_ok_iff, NamesModelClass]
  cases policy.get? "toModelClass" with
  | none => simp [Fields.getD_eq_iff]
  | some v => simp

namespace Lowerer

theorem all_isText_iff {items : List Json} :
    items.all isText = true ↔ ∃ tags : List String, items = tags.map .str := by
  constructor
  · intro all
    induction items with
    | nil => exact ⟨[], rfl⟩
    | cons v items ih =>
      obtain ⟨own, others⟩ := Bool.and_eq_true_iff.mp all
      obtain ⟨tags, rfl⟩ := ih others
      cases v with
      | str s => exact ⟨s :: tags, rfl⟩
      | null | bool | int | float | arr | obj => cases own
  · rintro ⟨tags, rfl⟩
    simp [isText]

/-- A policy is read where an object lists texts, at least one, and names a class of models. -/
theorem escalation_eq_some_iff {config : Fields} {on : List Json} {c : ModelClass} :
    escalation config = .ok (some ⟨on, c⟩) ↔ ∃ (policy : Fields) (tags : List String),
      config.get? "escalation" = some (.obj policy) ∧
      policy.get? "on" = some (Json.texts tags) ∧ tags ≠ [] ∧ NamesModelClass policy c ∧
      on = tags.map .str := by
  constructor
  · intro read
    unfold escalation at read
    split at read
    · cases read
    · rename_i policy configured
      split at read
      · rename_i tag tags listed
        split at read
        · rename_i texts
          simp only at read
          split at read
          · rename_i named
            cases read
            obtain ⟨texts, same⟩ := all_isText_iff.mp texts
            rw [same] at listed
            refine ⟨policy, texts, (Fields.getD_eq_iff Json.noConfusion).mp configured,
              (Fields.getD_eq_iff Json.noConfusion).mp listed, ?_, namesModelClass_iff.mpr named,
              same⟩
            rintro rfl
            cases same
          · cases read
        · cases read
      · cases read
    · cases read
  · rintro ⟨policy, tags, configured, listed, some, named, rfl⟩
    obtain ⟨tag, tags, rfl⟩ := List.exists_cons_of_ne_nil some
    have texts := all_isText_iff.mpr ⟨tag :: tags, rfl⟩
    rw [namesModelClass_iff] at named
    rw [escalation, (Fields.getD_eq_iff Json.noConfusion).mpr configured]
    dsimp only
    rw [(Fields.getD_eq_iff Json.noConfusion).mpr listed]
    simp only [Json.texts, List.map_cons] at texts ⊢
    rw [if_pos texts, named]

theorem escalation_proper {config : Fields} {policy : EscalationPolicy}
    (read : escalation config = .ok (some policy)) : ∀ v ∈ policy.on, v.Proper := by
  obtain ⟨on, c⟩ := policy
  obtain ⟨_, tags, -, -, -, -, rfl⟩ := escalation_eq_some_iff.mp read
  exact List.forall_mem_map.mpr fun _ _ => trivial

/-! ## Steps and edges -/

theorem objectSchema_proper : objectSchema.Proper :=
  ⟨by decide, trivial, trivial⟩

theorem resultOutputs_typed (n : Node) : n.resultOutputs.ObjectOrNull :=
  ⟨⟨List.nodup_singleton _, trivial, trivial⟩, .inr ⟨_, rfl⟩⟩

theorem null_typed : Json.null.ObjectOrNull :=
  ⟨trivial, .inl rfl⟩

theorem modelCall_wellTyped (n : Node) (template instruction : String) :
    (modelCall n template instruction).step.WellTyped where
  id := trivial
  inputs := ⟨⟨List.nodup_singleton _, trivial, trivial⟩, .inr ⟨_, rfl⟩⟩
  outputs := resultOutputs_typed n
  action :=
    { promptTemplate := trivial
      outputSchema := objectSchema_proper
      validators := by
        rintro checks ⟨⟩ check member
        obtain rfl := List.mem_singleton.mp member
        exact objectSchema_proper
      escalation := by
        intro policy set
        cases read : escalation n.config with
        | error reason => simp [read, Except.toOption] at set
        | ok found =>
          have same : found = some policy := by simpa [read, Except.toOption] using set
          exact escalation_proper (same ▸ read) }

theorem switchInputs_proper {n : Node} (typed : n.WellTyped) (l : Lowerer) :
    (Json.obj (l.switchInputs n)).Proper := by
  cases l with
  | askUserQuestion =>
    have options := n.proper_configList typed "options"
    exact ⟨by simp [switchInputs], trivial, trivial, options, trivial⟩
  | _ => exact ⟨List.nodup_singleton _, trivial, trivial⟩

theorem branching_wellTyped {n : Node} (typed : n.WellTyped) (l : Lowerer) (es : List Edge) :
    (l.branching n es).step.WellTyped :=
  ⟨trivial, ⟨switchInputs_proper typed l, .inr ⟨_, rfl⟩⟩, null_typed, trivial⟩

theorem assigned_proper (v : Json) : (assigned v).Proper := by
  unfold assigned
  split
  · split <;> trivial
  · trivial

theorem variableStep_wellTyped (n : Node) : (variableStep n).WellTyped := by
  refine ⟨trivial, null_typed, resultOutputs_typed n, ?_⟩
  unfold variableStep
  dsimp only
  split
  · trivial
  · exact ⟨trivial, assigned_proper _⟩

theorem fragment_step_wellTyped {n : Node} (typed : n.WellTyped) (l : Lowerer) (es : List Edge) :
    (l.fragment n es).step.WellTyped := by
  cases l with
  | start | stop => exact ⟨trivial, null_typed, null_typed, trivial⟩
  | prompt | subAgent => exact modelCall_wellTyped n _ _
  | ifElse | switch | askUserQuestion => exact branching_wellTyped typed _ es
  | mcp =>
    refine ⟨trivial, null_typed, resultOutputs_typed n, trivial, ?_, .inr ⟨_, rfl⟩⟩
    exact ⟨List.nodup_singleton _, trivial, trivial⟩
  | httpRequest =>
    refine ⟨trivial, null_typed, resultOutputs_typed n, trivial, ?_, .inr ⟨_, rfl⟩⟩
    exact ⟨by simp, trivial, trivial, trivial, trivial⟩
  | variableStore => exact variableStep_wellTyped n
  | dataTransform =>
    exact ⟨trivial, ⟨⟨List.nodup_singleton _, trivial, trivial⟩, .inr ⟨_, rfl⟩⟩,
      resultOutputs_typed n, trivial⟩

theorem branchEdges_wellTyped (target : String) (value : Nat → String) (index : Nat)
    (es : List Edge) : ∀ e ∈ branchEdges target value index es, e.WellTyped := by
  induction es generalizing index with
  | nil => exact nofun
  | cons e rest ih =>
    cases rest with
    | nil =>
      intro e' member
      obtain rfl := List.mem_singleton.mp member
      exact ⟨trivial, trivial, trivial, trivial⟩
    | cons next rest =>
      simp only [branchEdges, List.forall_mem_cons]
      exact ⟨⟨trivial, trivial, trivial, trivial⟩, ih (index + 1)⟩

theorem fragment_edges_wellTyped (l : Lowerer) (n : Node) (es : List Edge) :
    ∀ e ∈ (l.fragment n es).edges, e.WellTyped := by
  cases owns : l.ownsEdges with
  | true =>
    rw [fragment_edges_of_owns owns]
    exact branchEdges_wellTyped _ _ _ _
  | false =>
    rw [fragment_edges_of_not_owns owns, List.forall_mem_map]
    exact fun _ _ => ⟨trivial, trivial, trivial, trivial⟩

end Lowerer

namespace Workflow

theorem assemble_wellTyped {w : Workflow} {table : LowererTable} {version entry : String}
    {fragments : List Fragment} (typed : w.WellTyped)
    (made : List.Forall₂ (w.LoweredAs table) w.nodes fragments) :
    (assemble version entry fragments).WellTyped where
  version := trivial
  entry := trivial
  steps := by
    intro s member
    obtain ⟨f, listed, rfl⟩ := List.mem_map.mp member
    obtain ⟨n, node, l, -, -, rfl⟩ := forall₂_exists_left made listed
    exact l.fragment_step_wellTyped (typed.nodes n node) _
  edges := by
    intro e member
    obtain ⟨f, listed, member⟩ := List.mem_flatMap.mp member
    obtain ⟨n, -, l, -, -, rfl⟩ := forall₂_exists_left made listed
    exact l.fragment_edges_wellTyped n _ e member

/-- The program of a well-typed workflow is well-typed. -/
theorem lower_wellTyped {w : Workflow} {table : LowererTable} {version : String}
    {rejectCycles : Bool} {lowered : Lowered} (typed : w.WellTyped)
    (success : w.lower table version rejectCycles = .ok lowered) :
    lowered.program.WellTyped := by
  obtain ⟨entry, fragments, -, made, -, rfl⟩ := lower_eq_ok success
  exact assemble_wellTyped typed made

end Workflow
end Flowgraph
