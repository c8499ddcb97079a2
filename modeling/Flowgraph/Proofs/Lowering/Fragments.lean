import Flowgraph.Compiler.Lowerer
import Flowgraph.Program.Query

/-!
# What a lowerer makes of a node

One step with the id of the node, and one edge for each edge that leaves it, in the same
order. The places of a step that must hold state references are told by a relation beside
the function that lists them; on the steps that lowerers make, the function gives a list.
-/
namespace Flowgraph

/-! ## Places for state references -/

/-- The places of a step that must hold a state reference. -/
inductive Step.RefSlot (s : Step) : Json → Prop
  | output {fields : Fields} {key : String} {v : Json} (outputs : s.outputs = .obj fields)
      (field : (key, v) ∈ fields) : RefSlot s v
  | evaluated {fields : Fields} {v : Json} (action : s.action = .switch)
      (inputs : s.inputs = .obj fields) (field : fields.get? "evaluationTarget" = some v)
      (present : v ≠ .null) : RefSlot s v
  | assigned {target value : Json} (action : s.action = .varSet target value) : RefSlot s target
  | copied {target value : Json} (action : s.action = .varSet target value)
      (dollar : startsWithDollar value = true) : RefSlot s value
  | read {source : Json} (action : s.action = .varGet source) : RefSlot s source
  | transformed {kind : TransformKind} {expression v : Json} {fields : Fields}
      (action : s.action = .transform kind expression) (inputs : s.inputs = .obj fields)
      (field : fields.get? "source" = some v) (present : v ≠ .null) : RefSlot s v

theorem mem_of_valuesOf {v x : Json} {values : List Json} (h : valuesOf v = .ok values) :
    x ∈ values ↔ ∃ fields key, v = .obj fields ∧ (key, x) ∈ fields := by
  have noObject (other : ∀ fields, v ≠ .obj fields) (none : values = []) :
      x ∈ values ↔ ∃ fields key, v = .obj fields ∧ (key, x) ∈ fields := by
    subst none
    exact ⟨fun hx => False.elim (List.not_mem_nil hx),
      fun ⟨fields, _, hv, _⟩ => False.elim (other fields hv)⟩
  cases v with
  | obj fields =>
    cases h
    simp
  | null | bool | int | float | str | arr =>
    refine noObject (by simp) ?_
    simp only [valuesOf] at h
    split at h
    · cases h
    · exact (Except.ok.inj h).symm

/-- What stands in a slot: nothing where the field is missing or null. -/
def slotValues : Option Json → List Json
  | none | some .null => []
  | some v => [v]

theorem mem_slotValues_iff (found : Option Json) (x : Json) :
    x ∈ slotValues found ↔ found = some x ∧ x ≠ .null := by
  cases found with
  | none => simp [slotValues]
  | some v =>
    cases v <;> simp only [slotValues, List.mem_singleton, List.not_mem_nil, Option.some.injEq]
    case null => exact ⟨False.elim, fun h => h.2 h.1.symm⟩
    all_goals exact ⟨fun h => ⟨h.symm, by rw [h]; simp⟩, fun h => h.1.symm⟩

theorem slotOf_obj (fields : Fields) (key : String) :
    slotOf (.obj fields) key = .ok (slotValues (fields.get? key)) := by
  cases fields with
  | nil => rfl
  | cons f rest =>
    have look : (Json.obj (f :: rest)).findD key =
        .ok (Json.ofOption (Fields.get? (f :: rest) key)) := rfl
    have present : (Json.obj (f :: rest)).truthy = true := rfl
    simp only [slotOf, present, if_true, look]
    cases Fields.get? (f :: rest) key with
    | none => rfl
    | some v => cases v <;> rfl

theorem mem_of_slotOf {v x : Json} {key : String} {values : List Json}
    (h : slotOf v key = .ok values) :
    x ∈ values ↔ ∃ fields : Fields, v = .obj fields ∧ fields.get? key = some x ∧ x ≠ .null := by
  cases v with
  | obj fields =>
    rw [slotOf_obj] at h
    cases h
    simp [mem_slotValues_iff]
  | null | bool | int | float | str | arr =>
    constructor
    · intro hx
      simp only [slotOf, Json.findD, Json.find] at h
      split at h
      · cases h
      · cases h
        exact False.elim (List.not_mem_nil hx)
    · rintro ⟨fields, hv, _⟩
      cases hv

/-- The references of a step beside its outputs. -/
def Step.ownRefs (s : Step) : Except Fault (List Json) :=
  match s.action with
  | .switch => slotOf s.inputs "evaluationTarget"
  | .varSet target value => .ok (target :: (if startsWithDollar value then [value] else []))
  | .varGet source => .ok [source]
  | .transform .. => slotOf s.inputs "source"
  | _ => .ok []

theorem Step.stateRefs_eq_ok_iff (s : Step) (refs : List Json) :
    s.stateRefs = .ok refs ↔
      ∃ outputs own, valuesOf s.outputs = .ok outputs ∧ s.ownRefs = .ok own ∧
        refs = outputs ++ own := by
  unfold Step.stateRefs Step.ownRefs
  cases valuesOf s.outputs with
  | error e => simp [bind, Except.bind]
  | ok outputs =>
    -- Both sides end in the same list; the outputs come first in it.
    have joined (own : List Json) : Except.ok (outputs ++ own) = (.ok refs : Except Fault _) ↔
        ∃ vs ws, Except.ok outputs = (.ok vs : Except Fault _) ∧
          Except.ok own = (.ok ws : Except Fault _) ∧ refs = vs ++ ws := by
      constructor
      · intro h
        exact ⟨outputs, own, rfl, rfl, (Except.ok.inj h).symm⟩
      · rintro ⟨vs, ws, hv, hw, rfl⟩
        cases hv
        cases hw
        rfl
    cases s.action with
    | switch =>
      cases slotOf s.inputs "evaluationTarget" with
      | error e => simp [bind, Except.bind]
      | ok own => exact joined own
    | transform =>
      cases slotOf s.inputs "source" with
      | error e => simp [bind, Except.bind]
      | ok own => exact joined own
    | varSet target value => exact joined _
    | varGet source => exact joined _
    | start | stop | llmWrite | toolCall => simpa using joined []

theorem Step.refSlot_of_mem_ownRefs {s : Step} {own : List Json} (h : s.ownRefs = .ok own)
    {v : Json} (hv : v ∈ own) : s.RefSlot v := by
  unfold Step.ownRefs at h
  cases ha : s.action with
  | switch =>
    rw [ha] at h
    obtain ⟨fields, inputs, field, present⟩ := (mem_of_slotOf h).mp hv
    exact .evaluated ha inputs field present
  | varSet target value =>
    rw [ha] at h
    cases h
    rcases List.mem_cons.mp hv with rfl | hv
    · exact .assigned ha
    · split at hv
      · rename_i dollar
        obtain rfl := List.mem_singleton.mp hv
        exact .copied ha dollar
      · exact False.elim (List.not_mem_nil hv)
  | varGet source =>
    rw [ha] at h
    cases h
    obtain rfl := List.mem_singleton.mp hv
    exact .read ha
  | transform kind expression =>
    rw [ha] at h
    obtain ⟨fields, inputs, field, present⟩ := (mem_of_slotOf h).mp hv
    exact .transformed ha inputs field present
  | start | stop | llmWrite | toolCall =>
    rw [ha] at h
    cases h
    exact False.elim (List.not_mem_nil hv)

/-- The list of a step's references holds what stands in its places for them. -/
theorem Step.mem_stateRefs_iff {s : Step} {refs : List Json} (h : s.stateRefs = .ok refs)
    (v : Json) : v ∈ refs ↔ s.RefSlot v := by
  obtain ⟨outputs, own, ho, hown, rfl⟩ := (s.stateRefs_eq_ok_iff refs).mp h
  constructor
  · intro hv
    rcases List.mem_append.mp hv with hv | hv
    · obtain ⟨fields, key, hs, hf⟩ := (mem_of_valuesOf ho).mp hv
      exact .output hs hf
    · exact Step.refSlot_of_mem_ownRefs hown hv
  · intro slot
    refine List.mem_append.mpr ?_
    cases slot with
    | output hs hf => exact Or.inl ((mem_of_valuesOf ho).mpr ⟨_, _, hs, hf⟩)
    | evaluated ha inputs field present =>
      simp only [Step.ownRefs, ha] at hown
      exact Or.inr ((mem_of_slotOf hown).mpr ⟨_, inputs, field, present⟩)
    | assigned ha =>
      simp only [Step.ownRefs, ha] at hown
      cases hown
      exact Or.inr List.mem_cons_self
    | copied ha dollar =>
      simp only [Step.ownRefs, ha, dollar, if_true] at hown
      cases hown
      exact Or.inr (by simp)
    | read ha =>
      simp only [Step.ownRefs, ha] at hown
      cases hown
      exact Or.inr List.mem_cons_self
    | transformed ha inputs field present =>
      simp only [Step.ownRefs, ha] at hown
      exact Or.inr ((mem_of_slotOf hown).mpr ⟨_, inputs, field, present⟩)

namespace Lowerer

/-! ## Fragments -/

theorem ofType?_type (l : Lowerer) : ofType? l.type = some l := by
  cases l <;> rfl

theorem type_injective {l m : Lowerer} (h : l.type = m.type) : l = m := by
  simpa [ofType?_type] using congrArg ofType? h

theorem fragment_step_id (l : Lowerer) (n : Node) (es : List Edge) :
    (l.fragment n es).step.id = .str n.id := by
  cases l <;> rfl

theorem fragment_op_start_iff (l : Lowerer) (n : Node) (es : List Edge) :
    (l.fragment n es).step.action.op = .start ↔ l = .start := by
  cases l with
  | variableStore =>
    simp only [fragment, variableStep]
    split <;> simp [Action.op]
  | _ => simp [fragment, modelCall, branching, mcpStep, httpStep, transformStep, Action.op]

theorem fragment_inputs (l : Lowerer) (n : Node) (es : List Edge) :
    (l.fragment n es).step.inputs = .null ∨
      ∃ fields, (l.fragment n es).step.inputs = .obj fields := by
  cases l <;> first | exact Or.inl rfl | exact Or.inr ⟨_, rfl⟩

/-- The only output of a step is its result. -/
theorem fragment_outputs (l : Lowerer) (n : Node) (es : List Edge) :
    (l.fragment n es).step.outputs = .null ∨
      (l.fragment n es).step.outputs = n.resultOutputs := by
  cases l <;> first | exact .inl rfl | exact .inr rfl

/-- The references of a lowered step can be listed. -/
theorem fragment_stateRefs (l : Lowerer) (n : Node) (es : List Edge) :
    ∃ refs, (l.fragment n es).step.stateRefs = .ok refs := by
  have outputs : ∃ vs, valuesOf (l.fragment n es).step.outputs = .ok vs := by
    rcases l.fragment_outputs n es with h | h
    · exact ⟨[], by rw [h]; rfl⟩
    · exact ⟨_, by rw [h]; rfl⟩
  have slot : ∀ key, ∃ vs, slotOf (l.fragment n es).step.inputs key = .ok vs := by
    intro key
    rcases l.fragment_inputs n es with h | ⟨fields, h⟩
    · exact ⟨[], by rw [h]; rfl⟩
    · exact ⟨_, by rw [h, slotOf_obj]⟩
  have own : ∃ vs, (l.fragment n es).step.ownRefs = .ok vs := by
    unfold Step.ownRefs
    split
    · exact slot _
    · exact ⟨_, rfl⟩
    · exact ⟨_, rfl⟩
    · exact slot _
    · exact ⟨_, rfl⟩
  obtain ⟨vs, hv⟩ := outputs
  obtain ⟨own, ho⟩ := own
  exact ⟨vs ++ own, (Step.stateRefs_eq_ok_iff _ _).mpr ⟨vs, own, hv, ho, rfl⟩⟩

/-- The templates of a fragment are those of its model call. -/
theorem mem_fragment_templates_iff (l : Lowerer) (n : Node) (es : List Edge) (t : String) :
    t ∈ (l.fragment n es).templates ↔
      ∃ call, (l.fragment n es).step.action = .llmWrite call ∧ call.promptTemplate = .str t := by
  cases l with
  | variableStore =>
    simp only [fragment, variableStep]
    split <;> simp
  | _ => simp [fragment, modelCall, branching, mcpStep, httpStep, transformStep, eq_comm]

/-! ## Edges -/

/-- All edges but the last compare; the last one is followed always. -/
theorem getElem?_branchEdges (target : String) (value : Nat → String) (index k : Nat)
    (es : List Edge) :
    (branchEdges target value index es)[k]? = es[k]?.map fun e =>
      edgeWith (if k + 1 = es.length then .always
        else ⟨.eq, .str target, .str (value (index + k))⟩) e := by
  induction es generalizing index k with
  | nil => simp [branchEdges]
  | cons e rest ih =>
    cases rest with
    | nil => cases k <;> simp [branchEdges]
    | cons e' rest =>
      cases k with
      | zero => simp [branchEdges]
      | succ k =>
        have shift : index + 1 + k = index + (k + 1) := by omega
        simp only [branchEdges, List.getElem?_cons_succ, ih, shift, List.length_cons,
          Nat.add_right_cancel_iff]

theorem branchEdges_ends (target : String) (value : Nat → String) (index : Nat)
    (es : List Edge) :
    (branchEdges target value index es).map (fun e => (e.source, e.target)) =
      es.map fun e => (Json.str e.source, Json.str e.target) := by
  induction es generalizing index with
  | nil => rfl
  | cons e rest ih =>
    cases rest with
    | nil => rfl
    | cons e' rest =>
      simp only [branchEdges, List.map_cons, ih]
      rfl

theorem fragment_edges_of_owns {l : Lowerer} (owns : l.ownsEdges = true) (n : Node)
    (es : List Edge) :
    (l.fragment n es).edges = branchEdges (l.evaluationTarget n)
      (branchValue l.valueKeys (n.configList l.branchesKey)) 0 es := by
  cases l <;> first | rfl | cases owns

theorem fragment_edges_of_not_owns {l : Lowerer} (plain : l.ownsEdges = false) (n : Node)
    (es : List Edge) : (l.fragment n es).edges = es.map (edgeWith .always) := by
  cases l <;> first | rfl | cases plain

/-- The edges of a fragment join what the edges that leave the node join. -/
theorem fragment_edges_ends (l : Lowerer) (n : Node) (es : List Edge) :
    (l.fragment n es).edges.map (fun e => (e.source, e.target)) =
      es.map fun e => (Json.str e.source, Json.str e.target) := by
  cases owns : l.ownsEdges with
  | true => rw [fragment_edges_of_owns owns, branchEdges_ends]
  | false =>
    rw [fragment_edges_of_not_owns owns, List.map_map]
    rfl

/-- A branching node evaluates what its step says. -/
theorem fragment_step_of_owns {l : Lowerer} (owns : l.ownsEdges = true) (n : Node)
    (es : List Edge) :
    (l.fragment n es).step.action = .switch ∧
      ∃ fields : Fields, (l.fragment n es).step.inputs = .obj fields ∧
        fields.get? "evaluationTarget" = some (.str (l.evaluationTarget n)) := by
  cases l <;> first | exact ⟨rfl, _, rfl, rfl⟩ | cases owns

theorem fragment_evaluates {l : Lowerer} (owns : l.ownsEdges = true) (n : Node)
    (es : List Edge) :
    (l.fragment n es).step.inputs.item "evaluationTarget" = .ok (.str (l.evaluationTarget n)) ∧
      (l.fragment n es).step.RefSlot (.str (l.evaluationTarget n)) := by
  obtain ⟨action, fields, inputs, field⟩ := fragment_step_of_owns owns n es
  have found : fields.lookup "evaluationTarget" = some (.str (l.evaluationTarget n)) := field
  exact ⟨by rw [inputs, Json.item, found], .evaluated action inputs field Json.noConfusion⟩

end Lowerer
end Flowgraph
