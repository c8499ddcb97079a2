import Flowgraph.Program.Reader
import Flowgraph.Program.Writer
import Flowgraph.Proofs.Json.RoundTrip
import Flowgraph.Proofs.Sequencing

/-!
# Programs survive writing and reading

A program whose slots hold what they are for is read back from its JSON form and from its
text, in any indentation. What is not set is left out and comes back as not set, apart from
what is set and empty.
-/
namespace Flowgraph

/-! ## Programs in order -/

/-- A value is an object or stands for nothing. -/
def Json.IsSlot (v : Json) : Prop :=
  v = .null ∨ ∃ fields, v = .obj fields

/-- A slot for an object holds one, or is not set. -/
def Json.ObjectOrNull (v : Json) : Prop :=
  v.Proper ∧ (v = .null ∨ ∃ fields, v = .obj fields)

def OutputCheck.WellTyped : OutputCheck → Prop
  | jsonSchema schema => schema.Proper
  | invariant expr => expr.Proper

structure ModelCall.WellTyped (c : ModelCall) : Prop where
  promptTemplate : c.promptTemplate.Proper
  outputSchema : c.outputSchema.Proper
  validators : ∀ checks ∈ c.validators, ∀ check ∈ checks, check.WellTyped
  escalation : ∀ policy ∈ c.escalation, ∀ v ∈ policy.on, v.Proper

def Action.WellTyped : Action → Prop
  | start | stop | switch => True
  | llmWrite call => call.WellTyped
  | toolCall tool args => tool.Proper ∧ args.ObjectOrNull
  | varSet target value => target.Proper ∧ value.Proper
  | varGet source => source.Proper
  | transform _ expression => expression.Proper

structure Step.WellTyped (s : Step) : Prop where
  id : s.id.Proper
  inputs : s.inputs.ObjectOrNull
  outputs : s.outputs.ObjectOrNull
  action : s.action.WellTyped

structure ProgramEdge.WellTyped (e : ProgramEdge) : Prop where
  source : e.source.Proper
  target : e.target.Proper
  left : e.condition.left.Proper
  right : e.condition.right.Proper

structure Program.WellTyped (p : Program) : Prop where
  version : p.version.Proper
  entry : p.entry.Proper
  steps : ∀ s ∈ p.steps, s.WellTyped
  edges : ∀ e ∈ p.edges, e.WellTyped

/-! ## Names -/

theorem Op.ofName?_name (o : Op) : Op.ofName? o.name = some o := by
  cases o <;> decide

theorem ModelClass.ofName?_name (c : ModelClass) : ModelClass.ofName? c.name = some c := by
  cases c <;> decide

theorem RetryStrategy.ofName?_name (s : RetryStrategy) :
    RetryStrategy.ofName? s.name = some s := by
  cases s <;> decide

theorem TransformKind.ofName?_name (k : TransformKind) :
    TransformKind.ofName? k.name = some k := by
  cases k <;> decide

theorem ConditionOp.ofName?_name (o : ConditionOp) : ConditionOp.ofName? o.name = some o := by
  cases o <;> decide

theorem Json.choose_str {α : Type} {choices : String} {named : String → Option α} {s : String}
    {a : α} (found : named s = some a) : (str s).choose choices named = .ok a := by
  simp [choose, found]

/-! ## Fields -/

namespace Fields

variable {name key : String} {v : Json}

theorem presentField_cases (name : String) (v : Json) :
    v = .null ∧ presentField name v = [] ∨ presentField name v = [(name, v)] := by
  cases v with
  | null => exact .inl ⟨rfl, rfl⟩
  | bool | int | float | str | arr | obj => exact .inr rfl

/-- A slot that is left out where it is null comes back as null. -/
theorem ofOption_presentField (name : String) (v : Json) :
    Json.ofOption ((presentField name v).lookup name) = v := by
  rcases presentField_cases name v with ⟨rfl, absent⟩ | present
  · rfl
  · rw [present, List.lookup_cons, beq_self_eq_true]
    rfl

theorem lookup_presentField (other : key ≠ name) (v : Json) :
    (presentField name v).lookup key = none := by
  rcases presentField_cases name v with ⟨_, absent⟩ | present
  · rw [absent]
    rfl
  · rw [present, List.lookup_cons, beq_false_of_ne other]
    rfl

theorem objectField_eq (name : String) (slot : v.IsSlot) :
    objectField name v = .ok (presentField name v) := by
  rcases slot with rfl | ⟨fields, rfl⟩
  · rfl
  · rfl

theorem keys_presentField (name : String) (v : Json) :
    ((presentField name v).map (·.1)).Sublist [name] := by
  rcases presentField_cases name v with ⟨_, absent⟩ | present
  · rw [absent]
    exact List.nil_sublist _
  · rw [present]
    exact List.Sublist.refl _

theorem keys_setField {α : Type} (name : String) (write : α → Json) (a : Option α) :
    ((setField name write a).map (·.1)).Sublist [name] := by
  cases a with
  | none => exact List.nil_sublist _
  | some a => exact List.Sublist.refl _

theorem proper_presentField (name : String) (proper : v.Proper) :
    ∀ f ∈ presentField name v, f.2.Proper := by
  intro f hf
  rcases presentField_cases name v with ⟨_, absent⟩ | present
  · rw [absent] at hf
    exact False.elim (List.not_mem_nil hf)
  · rw [present, List.mem_singleton] at hf
    rw [hf]
    exact proper

theorem proper_setField {α : Type} (name : String) {write : α → Json} {a : Option α}
    (proper : ∀ b ∈ a, (write b).Proper) : ∀ f ∈ setField name write a, f.2.Proper := by
  intro f hf
  cases a with
  | none => exact False.elim (List.not_mem_nil hf)
  | some a =>
    rw [setField, List.mem_singleton] at hf
    rw [hf]
    exact proper a rfl

/-- An object is proper whose keys are among distinct names and whose values are proper. -/
theorem proper_obj {fields : Fields} (names : List String)
    (keys : (fields.map (·.1)).Sublist names) (distinct : names.Nodup)
    (proper : ∀ f ∈ fields, f.2.Proper) : (Json.obj fields).Proper :=
  ⟨keys.nodup distinct, Json.fieldsProper_iff.mpr proper⟩

end Fields

/-! ## Policies and checks -/

theorem RetryPolicy.ofJson_toJson (p : RetryPolicy) : ofJson p.toJson = .ok p := by
  obtain ⟨strategy, attempts, positive⟩ := p
  have chosen : (Json.str strategy.name).choose "RetryStrategy" RetryStrategy.ofName? =
      .ok strategy := Json.choose_str strategy.ofName?_name
  have first : Json.item (toJson ⟨strategy, attempts, positive⟩) "strategy" =
      .ok (.str strategy.name) := rfl
  have second : Json.item (toJson ⟨strategy, attempts, positive⟩) "max_attempts" =
      .ok (.int attempts) := rfl
  simp only [ofJson, first, second, bind, Except.bind, chosen, Json.toInteger]
  exact dif_pos positive

theorem RetryPolicy.proper_toJson (p : RetryPolicy) : p.toJson.Proper := by
  have distinct : ["strategy", "max_attempts"].Nodup := by decide
  exact ⟨distinct, trivial, trivial, trivial⟩

theorem ModelClass.read_name (c : ModelClass) : ModelClass.read (.str c.name) = .ok c :=
  Json.choose_str c.ofName?_name

theorem ModelClass.read_eq_ok_iff {v : Json} {c : ModelClass} :
    ModelClass.read v = .ok c ↔ v = .str c.name := by
  refine ⟨fun read => ?_, fun named => named ▸ read_name c⟩
  cases v with
  | str s =>
    cases found : ofName? s with
    | none => simp [ModelClass.read, Json.choose, found] at read
    | some d =>
      rw [ModelClass.read, Json.choose_str found] at read
      obtain rfl := Except.ok.inj read
      have same : d.name = s := by simpa using List.find?_some found
      rw [same]
  | null | bool | int | float | arr | obj => cases read

theorem EscalationPolicy.ofJson_toJson (p : EscalationPolicy) : ofJson p.toJson = .ok p := by
  have first : p.toJson.item "on" = .ok (.arr p.on) := rfl
  have second : p.toJson.item "to_model_class" = .ok (.str p.toModelClass.name) := rfl
  simp only [ofJson, first, second, bind, Except.bind, Json.members, ModelClass.read_name]
  rfl

theorem EscalationPolicy.proper_toJson {p : EscalationPolicy} (typed : ∀ v ∈ p.on, v.Proper) :
    p.toJson.Proper := by
  have distinct : ["on", "to_model_class"].Nodup := by decide
  exact ⟨distinct, Json.itemsProper_iff.mpr typed, trivial, trivial⟩

theorem OutputCheck.ofJson_toJson (c : OutputCheck) : ofJson c.toJson = .ok c := by
  cases c with
  | jsonSchema schema => rfl
  | invariant expr => rfl

theorem OutputCheck.proper_toJson {c : OutputCheck} (typed : c.WellTyped) : c.toJson.Proper := by
  cases c with
  | jsonSchema schema =>
    have distinct : ["type", "schema"].Nodup := by decide
    exact ⟨distinct, trivial, typed, trivial⟩
  | invariant expr =>
    have distinct : ["type", "expr"].Nodup := by decide
    exact ⟨distinct, trivial, typed, trivial⟩

/-! ## Steps -/

/-- Reading each of the values that were written from a list gives the list back. -/
theorem mapM_written {α : Type} {read : Json → Except Fault α} {write : α → Json} (l : List α)
    (inverse : ∀ a ∈ l, read (write a) = .ok a) : (l.map write).mapM read = .ok l := by
  rw [mapM_eq_ok_iff, List.forall₂_map_left_iff, List.forall₂_same]
  exact inverse

/-- Fields that have none of some keys, where other fields stand before or behind them. -/
theorem lookup_behind {before fields : Fields} {key : String}
    (absent : before.lookup key = none) : (before ++ fields).lookup key = fields.lookup key := by
  rw [List.lookup_append, absent, Option.none_or]

/-- The fields that every step has. -/
def Step.base (s : Step) : Fields :=
  [("id", s.id), ("op", .str s.action.op.name)] ++ presentField "inputs" s.inputs ++
    presentField "outputs" s.outputs

/-- An action comes back from what is written of it behind fields of other names. -/
structure Action.Written (a : Action) (fields : Fields) : Prop where
  written : a.fields = .ok fields
  back : ∀ base : Fields,
    (∀ key, key ∉ ["id", "op", "inputs", "outputs"] → base.lookup key = none) →
      Action.ofJson (.obj (base ++ fields)) a.op = .ok a
  keys : ∃ names, (fields.map (·.1)).Sublist names ∧
    (["id", "op", "inputs", "outputs"] ++ names).Nodup

theorem unlessNull_written {α : Type} {read : Json → Except Fault α} {write : α → Json}
    {a : Option α} (set : ∀ b ∈ a, write b ≠ .null) (inverse : ∀ b ∈ a, read (write b) = .ok b) :
    unlessNull read (Json.ofOption (a.map write)) = .ok a := by
  cases a with
  | none => rfl
  | some b =>
    have own := inverse b rfl
    have present := set b rfl
    rw [Option.map_some, Json.ofOption]
    generalize write b = v at own present ⊢
    cases v with
    | null => exact False.elim (present rfl)
    | bool | int | float | str | arr | obj => rw [unlessNull, own] <;> simp [Except.map]

theorem ModelCall.lookup_optional (c : ModelCall) :
    Json.ofOption (c.fields.lookup "validators") =
      Json.ofOption (c.validators.map fun checks => .arr (checks.map OutputCheck.toJson)) ∧
    Json.ofOption (c.fields.lookup "retry_policy") =
      Json.ofOption (c.retryPolicy.map RetryPolicy.toJson) ∧
    Json.ofOption (c.fields.lookup "escalation") =
      Json.ofOption (c.escalation.map EscalationPolicy.toJson) := by
  obtain ⟨modelClass, promptTemplate, outputSchema, validators, retryPolicy, escalation⟩ := c
  cases validators <;> cases retryPolicy <;> cases escalation <;> exact ⟨rfl, rfl, rfl⟩

theorem ModelCall.ofJson_fields (c : ModelCall) {fields : Fields}
    (same : ∀ key ∈ ["model_class", "prompt_template", "output_schema", "validators",
      "retry_policy", "escalation"], fields.lookup key = c.fields.lookup key) :
    ofJson (.obj fields) = .ok c := by
  have modelClass : (Json.obj fields).item "model_class" = .ok (.str c.modelClass.name) :=
    Json.item_obj (same _ (by decide))
  have promptTemplate : (Json.obj fields).item "prompt_template" = .ok c.promptTemplate :=
    Json.item_obj (same _ (by decide))
  have outputSchema : (Json.obj fields).item "output_schema" = .ok c.outputSchema :=
    Json.item_obj (same _ (by decide))
  obtain ⟨validators, retryPolicy, escalation⟩ := c.lookup_optional
  have checks : unlessNull (readMembers OutputCheck.ofJson) (Json.ofOption (c.validators.map
      fun checks => .arr (checks.map OutputCheck.toJson))) = .ok c.validators := by
    apply unlessNull_written
    · intro checks _ null
      cases null
    · intro checks _
      exact mapM_written checks fun check _ => check.ofJson_toJson
  have retry : unlessNull RetryPolicy.ofJson
      (Json.ofOption (c.retryPolicy.map RetryPolicy.toJson)) = .ok c.retryPolicy := by
    apply unlessNull_written
    · intro policy _ null
      cases null
    · intro policy _
      exact policy.ofJson_toJson
  have upward : unlessNull EscalationPolicy.ofJson
      (Json.ofOption (c.escalation.map EscalationPolicy.toJson)) = .ok c.escalation := by
    apply unlessNull_written
    · intro policy _ null
      cases null
    · intro policy _
      exact policy.ofJson_toJson
  simp only [ofJson, modelClass, promptTemplate, outputSchema, Json.findD_obj,
    same "validators" (by decide), same "retry_policy" (by decide), same "escalation" (by decide),
    validators, retryPolicy, escalation, checks, retry, upward, ModelClass.read_name, bind,
    Except.bind]
  rfl

theorem ModelCall.written (c : ModelCall) : (Action.llmWrite c).Written c.fields := by
  refine ⟨rfl, ?_, ⟨["model_class", "prompt_template", "output_schema", "validators",
    "retry_policy", "escalation"], ?_, by decide⟩⟩
  · intro base apart
    have back : ModelCall.ofJson (.obj (base ++ c.fields)) = .ok c := by
      apply c.ofJson_fields
      intro key member
      apply lookup_behind
      apply apart
      revert key
      decide
    simp only [Action.ofJson, Action.op, back, bind, Except.bind]
    rfl
  · simp only [ModelCall.fields, List.map_append]
    have head := List.Sublist.refl ["model_class", "prompt_template", "output_schema"]
    exact ((head.append (Fields.keys_setField "validators" _ _)).append
      (Fields.keys_setField "retry_policy" _ _)).append (Fields.keys_setField "escalation" _ _)

theorem ModelCall.proper_fields {c : ModelCall} (typed : c.WellTyped) :
    ∀ f ∈ c.fields, f.2.Proper := by
  simp only [ModelCall.fields, List.forall_mem_append]
  refine ⟨⟨⟨?_, ?_⟩, ?_⟩, ?_⟩
  · exact Json.fieldsProper_iff.mp ⟨trivial, typed.promptTemplate, typed.outputSchema, trivial⟩
  · apply Fields.proper_setField
    intro checks set
    apply Json.itemsProper_iff.mpr
    intro v member
    obtain ⟨check, hc, rfl⟩ := List.mem_map.mp member
    exact OutputCheck.proper_toJson (typed.validators checks set check hc)
  · exact Fields.proper_setField _ fun policy _ => policy.proper_toJson
  · exact Fields.proper_setField _ fun policy set =>
      EscalationPolicy.proper_toJson (typed.escalation policy set)

theorem Action.toolCall_written (tool : Json) {args : Json} (slot : args.IsSlot) :
    (toolCall tool args).Written (("tool", tool) :: presentField "args" args) := by
  refine ⟨?_, ?_, ⟨["tool", "args"], (Fields.keys_presentField "args" args).cons_cons "tool",
    by decide⟩⟩
  · rw [Action.fields, Fields.objectField_eq "args" slot]
    rfl
  · intro base apart
    have first : (Json.obj (base ++ ("tool", tool) :: presentField "args" args)).item "tool" =
        .ok tool := by
      apply Json.item_obj
      rw [lookup_behind (apart "tool" (by decide))]
      rfl
    have second : (base ++ ("tool", tool) :: presentField "args" args).lookup "args" =
        (presentField "args" args).lookup "args" := by
      rw [lookup_behind (apart "args" (by decide))]
      rfl
    simp only [Action.ofJson, Action.op, first, Json.findD_obj, second,
      Fields.ofOption_presentField, bind, Except.bind]
    rfl

/-- An action whose fields are always written. -/
theorem Action.written_of_fields {a : Action} {fields : Fields} (written : a.fields = .ok fields)
    (names : (["id", "op", "inputs", "outputs"] ++ fields.map (·.1)).Nodup)
    (back : ∀ v : Json, (∀ f ∈ fields, v.item f.1 = .ok f.2 ∧ v.findD f.1 = .ok f.2) →
      Action.ofJson v a.op = .ok a) : a.Written fields := by
  refine ⟨written, ?_, ⟨_, List.Sublist.refl _, names⟩⟩
  intro base apart
  apply back
  intro f hf
  have own : fields.lookup f.1 = some f.2 :=
    lookup_of_mem (List.Nodup.of_append_right names) hf
  have other : f.1 ∉ ["id", "op", "inputs", "outputs"] := by
    intro same
    exact (List.nodup_append.mp names).2.2 f.1 same f.1 (List.mem_map.mpr ⟨f, hf, rfl⟩) rfl
  have found : (base ++ fields).lookup f.1 = some f.2 := by
    rw [lookup_behind (apart f.1 other), own]
  refine ⟨Json.item_obj found, ?_⟩
  rw [Json.findD_obj, found]
  rfl

/-- The arguments of a tool are an object or not set. -/
def Action.Slotted : Action → Prop
  | toolCall _ args => args.IsSlot
  | _ => True

theorem Action.WellTyped.slotted {a : Action} (typed : a.WellTyped) : a.Slotted := by
  cases a with
  | toolCall tool args => exact typed.2.2
  | _ => trivial

theorem Action.exists_written {a : Action} (slotted : a.Slotted) :
    ∃ fields, a.Written fields := by
  cases a with
  | start => exact ⟨[], written_of_fields rfl (by decide) fun _ _ => rfl⟩
  | stop => exact ⟨[], written_of_fields rfl (by decide) fun _ _ => rfl⟩
  | switch => exact ⟨[], written_of_fields rfl (by decide) fun _ _ => rfl⟩
  | llmWrite call => exact ⟨call.fields, call.written⟩
  | toolCall tool args => exact ⟨_, toolCall_written tool slotted⟩
  | varSet target value =>
    have names : ["id", "op", "inputs", "outputs", "target", "value"].Nodup := by decide
    refine ⟨[("target", target), ("value", value)], written_of_fields rfl names ?_⟩
    intro v found
    have first := (found ("target", target) (by simp)).1
    have second := (found ("value", value) (by simp)).2
    simp only [Action.ofJson, Action.op, first, second, bind, Except.bind]
    rfl
  | varGet source =>
    have names : ["id", "op", "inputs", "outputs", "source"].Nodup := by decide
    refine ⟨[("source", source)], written_of_fields rfl names ?_⟩
    intro v found
    have first := (found ("source", source) (by simp)).1
    simp only [Action.ofJson, Action.op, first, bind, Except.bind]
    rfl
  | transform kind expression =>
    have names : ["id", "op", "inputs", "outputs", "transformation", "expression"].Nodup := by
      decide
    refine ⟨[("transformation", .str kind.name), ("expression", expression)],
      written_of_fields rfl names ?_⟩
    intro v found
    have first := (found ("transformation", .str kind.name) (by simp)).1
    have second := (found ("expression", expression) (by simp)).1
    have chosen : (Json.str kind.name).choose "TransformKind" TransformKind.ofName? = .ok kind :=
      Json.choose_str kind.ofName?_name
    simp only [Action.ofJson, Action.op, first, second, chosen, bind, Except.bind]
    rfl

theorem Action.proper_fields {a : Action} (typed : a.WellTyped) {fields : Fields}
    (written : a.fields = .ok fields) : ∀ f ∈ fields, f.2.Proper := by
  cases a with
  | start | stop | switch =>
    obtain rfl := Except.ok.inj written
    exact fun _ hf => False.elim (List.not_mem_nil hf)
  | llmWrite call =>
    obtain rfl := Except.ok.inj written
    exact call.proper_fields typed
  | toolCall tool args =>
    rw [Action.fields, Fields.objectField_eq "args" typed.2.2] at written
    obtain rfl := Except.ok.inj written
    exact List.forall_mem_cons.mpr ⟨typed.1, Fields.proper_presentField "args" typed.2.1⟩
  | varSet target value =>
    obtain rfl := Except.ok.inj written
    exact Json.fieldsProper_iff.mp ⟨typed.1, typed.2, trivial⟩
  | varGet source =>
    obtain rfl := Except.ok.inj written
    exact Json.fieldsProper_iff.mp ⟨typed, trivial⟩
  | transform kind expression =>
    obtain rfl := Except.ok.inj written
    exact Json.fieldsProper_iff.mp ⟨trivial, typed, trivial⟩

/-- The slots of a step for objects hold objects or are not set. -/
structure Step.Slotted (s : Step) : Prop where
  inputs : s.inputs.IsSlot
  outputs : s.outputs.IsSlot
  action : s.action.Slotted

namespace Step

theorem lookup_base (s : Step) {key : String} (other : key ∉ ["id", "op", "inputs", "outputs"]) :
    s.base.lookup key = none := by
  simp only [List.mem_cons, List.not_mem_nil, or_false, not_or] at other
  obtain ⟨id, op, inputs, outputs⟩ := other
  rw [base, List.append_assoc, lookup_behind, lookup_behind]
  · exact Fields.lookup_presentField outputs _
  · exact Fields.lookup_presentField inputs _
  · simp [List.lookup_cons, beq_false_of_ne id, beq_false_of_ne op]

theorem lookup_base_inputs (s : Step) :
    s.base.lookup "inputs" = (presentField "inputs" s.inputs).lookup "inputs" := by
  have outputs : (presentField "outputs" s.outputs).lookup "inputs" = none :=
    Fields.lookup_presentField (by decide) _
  rw [base, List.lookup_append, outputs, Option.or_none, lookup_behind rfl]

theorem lookup_base_outputs (s : Step) :
    s.base.lookup "outputs" = (presentField "outputs" s.outputs).lookup "outputs" := by
  have inputs : (presentField "inputs" s.inputs).lookup "outputs" = none :=
    Fields.lookup_presentField (by decide) _
  rw [base, List.append_assoc, lookup_behind rfl, lookup_behind inputs]

theorem keys_base (s : Step) :
    (s.base.map (·.1)).Sublist ["id", "op", "inputs", "outputs"] := by
  simp only [base, List.map_append]
  have head := List.Sublist.refl ["id", "op"]
  exact (head.append (Fields.keys_presentField "inputs" _)).append
    (Fields.keys_presentField "outputs" _)

theorem proper_base {s : Step} (typed : s.WellTyped) : ∀ f ∈ s.base, f.2.Proper := by
  simp only [base, List.forall_mem_append]
  refine ⟨⟨?_, Fields.proper_presentField _ typed.inputs.1⟩,
    Fields.proper_presentField _ typed.outputs.1⟩
  exact Json.fieldsProper_iff.mp ⟨typed.id, trivial, trivial⟩

theorem WellTyped.slotted {s : Step} (typed : s.WellTyped) : s.Slotted :=
  ⟨typed.inputs.2, typed.outputs.2, Action.WellTyped.slotted typed.action⟩

/-- A step whose slots are in order comes back from its form. -/
theorem exists_form {s : Step} (slotted : s.Slotted) :
    ∃ fields, s.action.Written fields ∧ s.toJson = .ok (.obj (s.base ++ fields)) ∧
      Step.ofJson (.obj (s.base ++ fields)) = .ok s := by
  obtain ⟨fields, action⟩ := Action.exists_written slotted.action
  obtain ⟨names, keys, distinct⟩ := action.keys
  have absent (key : String) (own : key ∈ ["id", "op", "inputs", "outputs"]) :
      fields.lookup key = none := by
    rw [List.lookup_eq_none_iff]
    intro f hf
    apply bne_iff_ne.mpr
    rintro rfl
    have member : f.1 ∈ names := keys.mem (List.mem_map.mpr ⟨f, hf, rfl⟩)
    exact (List.nodup_append.mp distinct).2.2 f.1 own f.1 member rfl
  refine ⟨fields, action, ?_, ?_⟩
  · simp only [toJson, Fields.objectField_eq _ slotted.inputs,
      Fields.objectField_eq _ slotted.outputs, action.written, bind, Except.bind]
    rfl
  · have op : (Json.obj (s.base ++ fields)).item "op" = .ok (.str s.action.op.name) := rfl
    have id : (Json.obj (s.base ++ fields)).item "id" = .ok s.id := rfl
    have chosen : (Json.str s.action.op.name).choose "ExecOp" Op.ofName? = .ok s.action.op :=
      Json.choose_str s.action.op.ofName?_name
    have inputs : (s.base ++ fields).lookup "inputs" =
        (presentField "inputs" s.inputs).lookup "inputs" := by
      rw [List.lookup_append, absent _ (by decide), Option.or_none, lookup_base_inputs]
    have outputs : (s.base ++ fields).lookup "outputs" =
        (presentField "outputs" s.outputs).lookup "outputs" := by
      rw [List.lookup_append, absent _ (by decide), Option.or_none, lookup_base_outputs]
    have back := action.back s.base fun key other => s.lookup_base other
    simp only [ofJson, op, id, chosen, Json.findD_obj, inputs, outputs,
      Fields.ofOption_presentField, back, bind, Except.bind]
    rfl

/-- A step is written, and comes back from what is written. -/
theorem exists_written {s : Step} (typed : s.WellTyped) :
    ∃ v, s.toJson = .ok v ∧ Step.ofJson v = .ok s ∧ v.Proper := by
  obtain ⟨fields, action, written, back⟩ := exists_form typed.slotted
  obtain ⟨names, keys, distinct⟩ := action.keys
  refine ⟨_, written, back, ?_⟩
  have whole : ((s.base ++ fields).map (·.1)).Sublist
      (["id", "op", "inputs", "outputs"] ++ names) := by
    rw [List.map_append]
    exact s.keys_base.append keys
  apply Fields.proper_obj _ whole distinct
  rw [List.forall_mem_append]
  exact ⟨proper_base typed, Action.proper_fields typed.action action.written⟩

end Step

/-! ## Edges -/

theorem Condition.ofJson_toJson (c : Condition) : ofJson c.toJson = .ok c := by
  obtain ⟨op, left, right⟩ := c
  have chosen : (Json.str op.name).choose "ConditionOp" ConditionOp.ofName? = .ok op :=
    Json.choose_str op.ofName?_name
  have first : (toJson ⟨op, left, right⟩).item "op" = .ok (.str op.name) := rfl
  have lefts : (toJson ⟨op, left, right⟩).findD "left" = .ok left := by
    have other : (presentField "right" right).lookup "left" = none :=
      Fields.lookup_presentField (by decide) _
    have own : (toJson ⟨op, left, right⟩).findD "left" = .ok (Json.ofOption
        ((presentField "left" left ++ presentField "right" right).lookup "left")) := rfl
    rw [own, List.lookup_append, other, Option.or_none, Fields.ofOption_presentField]
  have rights : (toJson ⟨op, left, right⟩).findD "right" = .ok right := by
    have other : (presentField "left" left).lookup "right" = none :=
      Fields.lookup_presentField (by decide) _
    have own : (toJson ⟨op, left, right⟩).findD "right" = .ok (Json.ofOption
        ((presentField "left" left ++ presentField "right" right).lookup "right")) := rfl
    rw [own, lookup_behind other, Fields.ofOption_presentField]
  simp only [ofJson, first, chosen, lefts, rights, bind, Except.bind]
  rfl

theorem Condition.proper_toJson {c : Condition} (left : c.left.Proper) (right : c.right.Proper) :
    c.toJson.Proper := by
  have keys : ((("op", Json.str c.op.name) ::
      (presentField "left" c.left ++ presentField "right" c.right)).map (·.1)).Sublist
        ["op", "left", "right"] := by
    rw [List.map_cons, List.map_append]
    exact ((Fields.keys_presentField "left" c.left).append
      (Fields.keys_presentField "right" c.right)).cons_cons "op"
  apply Fields.proper_obj _ keys (by decide)
  rw [List.forall_mem_cons, List.forall_mem_append]
  exact ⟨trivial, Fields.proper_presentField "left" left, Fields.proper_presentField "right" right⟩

theorem ProgramEdge.ofJson_toJson (e : ProgramEdge) : ofJson e.toJson = .ok e := by
  obtain ⟨source, target, condition⟩ := e
  have first : (toJson ⟨source, target, condition⟩).item "from" = .ok source := rfl
  have second : (toJson ⟨source, target, condition⟩).item "to" = .ok target := rfl
  have third : (toJson ⟨source, target, condition⟩).find "when" = .ok (some condition.toJson) := rfl
  simp only [ofJson, first, second, third, Condition.ofJson_toJson, bind, Except.bind]
  rfl

theorem ProgramEdge.proper_toJson {e : ProgramEdge} (typed : e.WellTyped) : e.toJson.Proper := by
  have distinct : ["from", "to", "when"].Nodup := by decide
  exact ⟨distinct, typed.source, typed.target, Condition.proper_toJson typed.left typed.right,
    trivial⟩

/-! ## Programs -/

namespace Program

/-- The JSON form of a program whose steps are written already. -/
def formOf (p : Program) (steps : List Json) : Json :=
  .obj [("execir_version", p.version), ("entry_node", p.entry), ("nodes", .arr steps),
    ("edges", .arr (p.edges.map ProgramEdge.toJson))]

theorem toJson_formOf {p : Program} {steps : List Json}
    (written : p.steps.mapM Step.toJson = .ok steps) : p.toJson = .ok (p.formOf steps) := by
  simp only [toJson, written, bind, Except.bind]
  rfl

theorem ofJson_formOf {p : Program} {steps : List Json}
    (stepsBack : steps.mapM Step.ofJson = .ok p.steps) : ofJson (p.formOf steps) = .ok p := by
  have edgesBack : (p.edges.map ProgramEdge.toJson).mapM ProgramEdge.ofJson = .ok p.edges :=
    mapM_written p.edges fun e _ => e.ofJson_toJson
  have version : (p.formOf steps).item "execir_version" = .ok p.version := rfl
  have entry : (p.formOf steps).item "entry_node" = .ok p.entry := rfl
  have nodes : membersOf (p.formOf steps) "nodes" = .ok steps := rfl
  have edges : membersOf (p.formOf steps) "edges" = .ok (p.edges.map ProgramEdge.toJson) := rfl
  simp only [ofJson, version, entry, nodes, edges, stepsBack, edgesBack, bind, Except.bind]
  rfl

/-- A program has a JSON form, from which it comes back. -/
theorem exists_toJson {p : Program} (typed : p.WellTyped) :
    ∃ v, p.toJson = .ok v ∧ ofJson v = .ok p ∧ v.Proper := by
  obtain ⟨steps, written, related⟩ :=
    exists_mapM_forall₂ fun s hs => Step.exists_written (typed.steps s hs)
  have stepsBack : steps.mapM Step.ofJson = .ok p.steps :=
    (mapM_eq_ok_iff _ _ _).mpr (related.imp fun _ _ step => step.1)
  refine ⟨p.formOf steps, toJson_formOf written, ofJson_formOf stepsBack, ?_⟩
  have distinct : ["execir_version", "entry_node", "nodes", "edges"].Nodup := by decide
  refine ⟨distinct, typed.version, typed.entry, Json.itemsProper_iff.mpr ?_,
    Json.itemsProper_iff.mpr ?_, trivial⟩
  · intro v member
    obtain ⟨s, _, _, proper⟩ := forall₂_exists_right related member
    exact proper
  · intro v member
    obtain ⟨e, he, rfl⟩ := List.mem_map.mp member
    exact ProgramEdge.proper_toJson (typed.edges e he)

/-- A program that is in order comes back from its JSON form and, in any indentation, from its
text. A text is refused only where its arrays and objects stand in each other more often than
the reader allows; without a limit of its own, more than 990 times. -/
theorem ofText_toText {p : Program} (typed : p.WellTyped) :
    ∃ v, p.toJson = .ok v ∧ ofJson v = .ok p ∧
      ∀ style : Json.Style, style = .spaced ∨ (∃ n, style = .indented n) →
        ∃ text, p.toText style = .ok text ∧
          (∀ limit, ofTextWithin limit text =
            if v.nesting ≤ limit then .ok p else .error .tooDeep) ∧
          ofText text = if v.nesting ≤ Json.nestingLimit then .ok p else .error .tooDeep := by
  obtain ⟨v, written, back, proper⟩ := exists_toJson typed
  refine ⟨v, written, back, ?_⟩
  intro style indentation
  have airy : style.Airy := by
    rcases indentation with rfl | ⟨n, rfl⟩
    · exact Json.airy_spaced
    · exact Json.airy_indented n
  have reading (limit : Nat) : ofTextWithin limit (Json.write style v) =
      if v.nesting ≤ limit then .ok p else .error .tooDeep := by
    rw [ofTextWithin, Json.readWithin_write airy proper, Json.readTo]
    by_cases fits : v.nesting ≤ limit
    · rw [if_pos fits, if_pos fits]
      exact back
    · rw [if_neg fits, if_neg fits]
  refine ⟨Json.write style v, ?_, reading, reading Json.nestingLimit⟩
  rw [toText, written]
  rfl

/-- A program with empty slots beside slots that are not set. -/
def weighing : Program where
  version := .str "1.0"
  entry := .str "begin"
  steps := [
    { id := .str "begin", inputs := .obj [], action := .start },
    { id := .str "weigh",
      action := .varSet (.str "$vars.weight")
        (.arr [.float (.finite false 7205759403792794 (-56)), .null]) },
    { id := .str "tell",
      action := .llmWrite { modelClass := .smallExec, promptTemplate := .str "",
                            outputSchema := .obj [], validators := some [] } }]
  edges := [⟨.str "begin", .str "weigh", .always⟩, ⟨.str "weigh", .str "tell", .always⟩]

theorem weighing_wellTyped : weighing.WellTyped := by
  have empty : (Json.obj []).ObjectOrNull := ⟨⟨List.nodup_nil, trivial⟩, .inr ⟨[], rfl⟩⟩
  have unset : Json.null.ObjectOrNull := ⟨trivial, .inl rfl⟩
  have tenth : (Binary64.finite false 7205759403792794 (-56)).Canonical := by decide
  refine ⟨trivial, trivial, ?_, ?_⟩
  · simp only [weighing, List.forall_mem_cons]
    refine ⟨⟨trivial, empty, unset, trivial⟩,
      ⟨trivial, unset, unset, trivial, tenth, trivial, trivial⟩,
      ⟨trivial, unset, unset, trivial, empty.1, ?_, ?_⟩, fun _ hs => by cases hs⟩
    · intro checks set check member
      obtain rfl : checks = [] := (Option.some.inj set).symm
      cases member
    · intro policy set
      cases set
  · simp only [weighing, List.forall_mem_cons]
    exact ⟨⟨trivial, trivial, trivial, trivial⟩, ⟨trivial, trivial, trivial, trivial⟩,
      fun _ he => by cases he⟩

theorem weighing_comes_back : weighing.WellTyped ∧ ∃ text,
    weighing.toText (.indented 2) = .ok text ∧ ofText text = .ok weighing := by
  obtain ⟨v, written, _, texts⟩ := ofText_toText weighing_wellTyped
  obtain ⟨text, shown, _, back⟩ := texts (.indented 2) (.inr ⟨2, rfl⟩)
  have shallow : v.nesting ≤ Json.nestingLimit := by
    obtain rfl := Except.ok.inj written
    decide
  rw [if_pos shallow] at back
  exact ⟨weighing_wellTyped, text, shown, back⟩

end Program
end Flowgraph
