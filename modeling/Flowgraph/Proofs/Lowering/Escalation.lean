import Flowgraph.Program.Escalation
import Flowgraph.Proofs.Event.Lenience
import Flowgraph.Proofs.Lowering.Typed

/-!
# Escalation as it is configured

A step that calls a model is made with the escalation policy of its node's configuration, where
that has the form of one, and without a policy where it has not. A failure of a provider has one
of five classes, and a policy lists classes by their names. So whether a failed step is tried
again, and on which models, is said by the configuration alone: before the program is written as
text, and after it is read from there. Of nodes that call no model no configuration is read.
-/
namespace Flowgraph

/-- A configuration asks that after a failure of a class a step is tried again on a class of
models. -/
inductive AsksToEscalate (config : Fields) (failed : FailureClass) (c : ModelClass) : Prop
  | asks {policy : Fields} {tags : List String}
      (configured : config.get? "escalation" = some (.obj policy))
      (on : policy.get? "on" = some (Json.texts tags)) (listed : failed.name ∈ tags)
      (target : NamesModelClass policy c) : AsksToEscalate config failed c

/-- The nodes of this type call a model. -/
def NodeType.CallsModel (t : NodeType) : Prop :=
  t = .prompt ∨ t = .subAgent

/-- After every failure of a provider a step is tried again as the configuration of its node
asks, and only then. -/
structure Step.EscalatesFor (s : Step) (n : Node) : Prop where
  id : s.id = .str n.id
  decides (status code provider : Json) (failure : ProviderFailure)
    (classified : ProviderFailure.classify status code provider = .ok failure) (c : ModelClass) :
    s.escalate (.str failure.code.name) = some c ↔
      n.type.CallsModel ∧ AsksToEscalate n.config failure.code c

/-- The steps of a program escalate as the nodes of a workflow ask, in their order and, where the
ids are distinct, by their ids. -/
structure Program.EscalatesFor (p : Program) (w : Workflow) : Prop where
  each : List.Forall₂ (fun n s => s.EscalatesFor n) w.nodes p.steps
  found (distinct : (w.nodes.map (·.id)).Nodup) : ∀ n ∈ w.nodes,
    ∃ s, p.step? (.str n.id) = some s ∧ s.EscalatesFor n

/-! ## What a step is made with -/

namespace Lowerer

theorem fragment_escalationPolicy? (l : Lowerer) (n : Node) (es : List Edge)
    (p : EscalationPolicy) : (l.fragment n es).step.escalationPolicy? = some p ↔
      l.type.CallsModel ∧ escalation n.config = .ok (some p) := by
  -- A policy that is ignored and one that is missing leave the same step behind.
  have calls : (escalation n.config).toOption.join = some p ↔
      escalation n.config = .ok (some p) := by
    cases escalation n.config with
    | error => simp [Except.toOption]
    | ok policy => simp [Except.toOption]
  cases l with
  | prompt | subAgent => exact calls.trans (by simp [NodeType.CallsModel, type])
  | variableStore =>
    have none : (variableStore.fragment n es).step.escalationPolicy? = none := by
      simp only [fragment, variableStep]
      split <;> rfl
    simp [none, NodeType.CallsModel, type]
  | start | stop | ifElse | switch | askUserQuestion | mcp | httpRequest | dataTransform =>
    exact iff_of_false (fun policy => by cases policy) (by simp [NodeType.CallsModel, type])

end Lowerer

theorem Step.escalate_eq_some_iff {s : Step} {tag : String} {c : ModelClass} :
    s.escalate (.str tag) = some c ↔
      ∃ on, s.escalationPolicy? = some ⟨on, c⟩ ∧ on.any (·.alike (.str tag)) = true := by
  unfold escalate
  cases s.escalationPolicy? with
  | none => simp
  | some p =>
    obtain ⟨on, d⟩ := p
    simp only [Option.ite_none_right_eq_some, Option.some.injEq, EscalationPolicy.mk.injEq]
    constructor
    · rintro ⟨listed, same⟩
      exact ⟨on, ⟨rfl, same⟩, listed⟩
    · rintro ⟨_, ⟨rfl, same⟩, listed⟩
      exact ⟨listed, same⟩

theorem any_alike_texts {tags : List String} {tag : String} :
    (tags.map Json.str).any (·.alike (.str tag)) = true ↔ tag ∈ tags := by
  simp [Json.alike_str]

namespace Lowerer

/-- The step of a node that calls a model escalates as the configuration asks, and no other step
does. -/
theorem fragment_escalate (l : Lowerer) (n : Node) (es : List Edge) (failed : FailureClass)
    (c : ModelClass) : (l.fragment n es).step.escalate (.str failed.name) = some c ↔
      l.type.CallsModel ∧ AsksToEscalate n.config failed c := by
  simp only [Step.escalate_eq_some_iff, fragment_escalationPolicy?, escalation_eq_some_iff]
  constructor
  · rintro ⟨on, ⟨calls, policy, tags, configured, listing, -, named, rfl⟩, listed⟩
    exact ⟨calls, .asks configured listing (any_alike_texts.mp listed) named⟩
  · rintro ⟨calls, @⟨policy, tags, configured, listing, listed, named⟩⟩
    exact ⟨_, ⟨calls, policy, tags, configured, listing, List.ne_nil_of_mem listed, named, rfl⟩,
      any_alike_texts.mpr listed⟩

end Lowerer

/-! ## Whole programs -/

/-- A failure is classified unless its status is a text of digits that make no number, or its
provider is there and no text. -/
theorem ProviderFailure.exists_classify_iff (status code provider : Json) :
    (∃ failure, classify status code provider = .ok failure) ↔
      ¬Unreadable status ∧ ((∃ s, provider = .str s) ∨ provider.truthy = false) := by
  rw [← exists_statusOf_iff, ← exists_providerOf_iff, classify]
  cases statusOf status with
  | error f => simp [bind, Except.bind]
  | ok n => cases providerOf provider <;> simp [bind, Except.bind, pure, Except.pure]

namespace Workflow

variable {w : Workflow} {table : LowererTable} {version : String} {rejectCycles : Bool}
  {lowered : Lowered}

theorem LoweredAs.escalatesFor {n : Node} {f : Fragment} (made : w.LoweredAs table n f) :
    f.step.EscalatesFor n := by
  obtain ⟨l, -, type, rfl⟩ := made
  refine ⟨l.fragment_step_id n _, fun status code provider failure _ c => ?_⟩
  rw [l.fragment_escalate, type]

/-- The steps of a lowered program escalate as the configurations ask: those of nodes that call a
model after the failures that are listed and on the models that are named, and all others never.
So do the steps of the program that is read back from its text, and it is read back unless it
nests deeper than the reader allows. There is a failure to decide on unless a status or a provider
cannot be read. -/
theorem escalation_as_configured (typed : w.WellTyped)
    (success : w.lower table version rejectCycles = .ok lowered) :
    lowered.program.EscalatesFor w ∧
    (∃ v, lowered.program.toJson = .ok v ∧
      ∀ style : Json.Style, style = .spaced ∨ (∃ k, style = .indented k) →
        ∃ text, lowered.program.toText style = .ok text ∧
          ∀ limit, v.nesting ≤ limit → ∃ read, Program.ofTextWithin limit text = .ok read ∧
            read.EscalatesFor w) ∧
    ∀ status code provider,
      (∃ failure, ProviderFailure.classify status code provider = .ok failure) ↔
        ¬ProviderFailure.Unreadable status ∧
          ((∃ s, provider = .str s) ∨ provider.truthy = false) := by
  have escalates : lowered.program.EscalatesFor w := by
    obtain ⟨entry, fragments, -, made, -, rfl⟩ := lower_eq_ok success
    have each : List.Forall₂ (fun n s => s.EscalatesFor n) w.nodes (fragments.map (·.step)) :=
      List.forall₂_map_right_iff.mpr (made.imp fun _ _ own => own.escalatesFor)
    exact ⟨each, fun distinct n => exists_find?_step each (fun _ _ own => own.id) distinct⟩
  obtain ⟨v, written, -, texts⟩ := Program.ofText_toText (lower_wellTyped typed success)
  refine ⟨escalates, ⟨v, written, fun style readable => ?_⟩, ProviderFailure.exists_classify_iff⟩
  obtain ⟨text, shown, within, -⟩ := texts style readable
  exact ⟨text, shown, fun limit deep => ⟨_, (within limit).trans (if_pos deep), escalates⟩⟩

/-- A node of a type with an escalation policy that lists timeouts. -/
def escalating (id : String) (type : NodeType) (target : Fields) : Node where
  id := id
  type := type
  config := [("escalation", .obj (("on", Json.texts ["auth", "timeout"]) :: target))]

/-- A draft and a review, of which each names another class of models, and a summary with a policy
that names none: the first key is there, and no class. -/
def drafting : Workflow where
  id := "drafting"
  name := "Drafting"
  version := formatVersion
  createdAt := ""
  updatedAt := ""
  nodes :=
    [{ id := "begin", type := .start },
     escalating "draft" .prompt [("toModelClass", .str "MEDIUM_PLAN")],
     escalating "review" .subAgent [("to_model_class", .str "LARGE_JUDGE")],
     escalating "summary" .prompt [("toModelClass", .null), ("to_model_class", .str "LARGE_JUDGE")],
     { id := "end", type := .stop }]
  edges :=
    [{ id := "1", source := "begin", target := "draft" },
     { id := "2", source := "draft", target := "review" },
     { id := "3", source := "review", target := "summary" },
     { id := "4", source := "summary", target := "end" }]

theorem drafting_wellTyped : drafting.WellTyped := by
  have origin : Binary64.zero.Canonical := by decide
  have plain (id : String) (type : NodeType) : Node.WellTyped { id := id, type := type } :=
    ⟨origin, origin, List.nodup_nil, trivial⟩
  have escalates (id : String) (type : NodeType) {target : Fields}
      (proper : (Json.obj (("on", Json.texts ["auth", "timeout"]) :: target)).Proper) :
      (escalating id type target).WellTyped :=
    ⟨origin, origin, List.nodup_singleton _, proper, trivial⟩
  have tags : (Json.texts ["auth", "timeout"]).Proper := ⟨trivial, trivial, trivial⟩
  refine ⟨?_, nofun⟩
  simp only [drafting, List.forall_mem_cons]
  exact ⟨plain _ _, escalates _ _ ⟨by decide, tags, trivial, trivial⟩,
    escalates _ _ ⟨by decide, tags, trivial, trivial⟩,
    escalates _ _ ⟨by decide, tags, trivial, trivial, trivial⟩, plain _ _, List.forall_mem_nil _⟩

/-- What follows on a timeout at the gateway. -/
theorem drafting_escalates : drafting.WellTyped ∧ ∃ lowered text read,
    drafting.lower .standard "0.1" true = .ok lowered ∧
    lowered.program.toText (.indented 2) = .ok text ∧ Program.ofText text = .ok read ∧
    (∃ s, read.step? (.str "draft") = some s ∧ s.escalate (.str "timeout") = some .mediumPlan) ∧
    (∃ s, read.step? (.str "review") = some s ∧ s.escalate (.str "timeout") = some .largeJudge) ∧
    ∃ s, read.step? (.str "summary") = some s ∧ s.escalate (.str "timeout") = none := by
  obtain ⟨lowered, success, v, written, shallow⟩ : ∃ lowered,
      drafting.lower .standard "0.1" true = .ok lowered ∧
      ∃ v, lowered.program.toJson = .ok v ∧ v.nesting ≤ Json.nestingLimit :=
    ⟨_, rfl, _, rfl, by decide⟩
  obtain ⟨-, ⟨v', written', texts⟩, -⟩ := escalation_as_configured drafting_wellTyped success
  obtain rfl := Except.ok.inj (written.symm.trans written')
  obtain ⟨text, shown, back⟩ := texts (.indented 2) (.inr ⟨2, rfl⟩)
  obtain ⟨read, same, escalates⟩ := back _ shallow
  have timeout : ProviderFailure.classify (.int 504) .null .null =
      .ok ⟨.timeout, .unknown, some 504⟩ := by rfl
  have found := escalates.found (by decide)
  simp only [drafting, List.forall_mem_cons] at found
  obtain ⟨-, ⟨s, draft, first⟩, ⟨t, review, second⟩, ⟨u, summary, third⟩, -⟩ := found
  refine ⟨drafting_wellTyped, lowered, text, read, success, shown, same, ⟨s, draft, ?_⟩,
    ⟨t, review, ?_⟩, u, summary, ?_⟩
  · exact (first.decides _ _ _ _ timeout .mediumPlan).mpr
      ⟨.inl rfl, .asks rfl rfl (by decide) (.inl rfl)⟩
  · exact (second.decides _ _ _ _ timeout .largeJudge).mpr
      ⟨.inr rfl, .asks rfl rfl (by decide) (.inr ⟨rfl, rfl⟩)⟩
  · refine Option.eq_none_iff_forall_ne_some.mpr fun c escalated => ?_
    obtain ⟨-, configured, -, -, target⟩ := (third.decides _ _ _ _ timeout c).mp escalated
    cases configured
    rcases target with named | ⟨missing, -⟩
    · cases named
    · cases missing

end Workflow
end Flowgraph
