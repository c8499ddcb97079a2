import Flowgraph.Proofs.Lowering.ProgramGraph
import Flowgraph.Proofs.State.OperationRuns

/-!
# What a lowered program does with the state

A step is run by reading and writing places of the state. Which places these are is said
here of steps of any program, without the list of references that lowering looks at: a step
writes its outputs and what it assigns, it reads what it evaluates, copies or transforms, and
a guard reads its left side. Of a lowered program all these are references, those that are
written lie among the variables, and so no state refuses any of it.
-/
namespace Flowgraph

open LiveStore

namespace Step

/-- The places that a step writes. -/
inductive Writes (s : Step) : Json → Prop
  | output {fields : Fields} {key : String} {ref : Json} (outputs : s.outputs = .obj fields)
      (field : (key, ref) ∈ fields) : Writes s ref
  | assigned {target value : Json} (action : s.action = .varSet target value) : Writes s target

/-- The places that a step reads. -/
inductive Reads (s : Step) : Json → Prop
  | evaluated {ref : Json} (action : s.action = .switch)
      (input : s.inputs.item "evaluationTarget" = .ok ref) : Reads s ref
  | fetched {source : Json} (action : s.action = .varGet source) : Reads s source
  | transformed {kind : TransformKind} {expression ref : Json}
      (action : s.action = .transform kind expression)
      (input : s.inputs.item "source" = .ok ref) : Reads s ref
  | copied {target value : Json} (action : s.action = .varSet target value)
      (dollar : startsWithDollar value = true) : Reads s value

end Step

namespace Program

def Writes (p : Program) (ref : Json) : Prop :=
  ∃ s ∈ p.steps, s.Writes ref

/-- The places that the steps and the guards of a program read. -/
def Reads (p : Program) (ref : Json) : Prop :=
  (∃ s ∈ p.steps, s.Reads ref) ∨
    ∃ e ∈ p.edges, e.condition.op ≠ .always ∧ ref = e.condition.left

end Program

/-! ## The places of a lowered step -/

namespace Node

theorem varRef_eq (n : Node) (segment : String) :
    n.varRef segment = Namespace.vars.name ++ "." ++ (n.id ++ "." ++ segment) := by
  simp only [varRef, StateRef.write, String.intercalate_cons_cons, String.intercalate_singleton,
    String.append_assoc]

end Node

namespace Lowerer

variable {l : Lowerer} {n : Node} {es : List Edge} {ref : Json}

theorem fragment_varSet {target value : Json}
    (action : (l.fragment n es).step.action = .varSet target value) :
    target = .str (variableTarget n) := by
  cases l with
  | variableStore =>
    simp only [fragment, variableStep] at action
    split at action
    · cases action
    · exact (Action.varSet.inj action).1.symm
  | _ => cases action

theorem fragment_transform {kind : TransformKind} {expression : Json}
    (action : (l.fragment n es).step.action = .transform kind expression) :
    (l.fragment n es).step.inputs = .obj [("source", .str (n.varRef "input"))] := by
  cases l with
  | dataTransform => rfl
  | variableStore =>
    simp only [fragment, variableStep] at action
    split at action <;> cases action
  | _ => cases action

theorem fragment_switch (action : (l.fragment n es).step.action = .switch) :
    l.ownsEdges = true := by
  cases l with
  | ifElse | switch | askUserQuestion => rfl
  | variableStore =>
    simp only [fragment, variableStep] at action
    split at action <;> cases action
  | _ => cases action

/-- What a lowered step writes is a text that begins like a reference to a variable. -/
theorem fragment_writes (writes : (l.fragment n es).step.Writes ref) :
    (l.fragment n es).step.RefSlot ref ∧
      ∃ rest, ref = .str (Namespace.vars.name ++ "." ++ rest) := by
  cases writes with
  | output outputs field =>
    refine ⟨.output outputs field, ?_⟩
    rcases l.fragment_outputs n es with none | result
    · rw [none] at outputs
      cases outputs
    · rw [result] at outputs
      cases outputs
      obtain ⟨_, rfl⟩ := Prod.mk.inj (List.mem_singleton.mp field)
      exact ⟨_, congrArg Json.str (n.varRef_eq "result")⟩
  | assigned action =>
    obtain rfl := fragment_varSet action
    exact ⟨.assigned action, _, rfl⟩

theorem fragment_reads (reads : (l.fragment n es).step.Reads ref) :
    (l.fragment n es).step.RefSlot ref := by
  cases reads with
  | evaluated action input =>
    obtain ⟨target, slot⟩ := fragment_evaluates (fragment_switch action) n es
    obtain rfl := Except.ok.inj (target.symm.trans input)
    exact slot
  | fetched action => exact .read action
  | transformed action input =>
    have inputs := fragment_transform action
    rw [inputs] at input
    obtain rfl := Except.ok.inj input
    exact .transformed action inputs rfl Json.noConfusion
  | copied action dollar => exact .copied action dollar

end Lowerer

/-! ## Reading and writing them -/

namespace Workflow

/-- A guard of a lowered node compares what the node's step evaluates. -/
theorem LoweredAs.compares {w : Workflow} {table : LowererTable} {n : Node} {f : Fragment}
    (h : w.LoweredAs table n f) {e : ProgramEdge} (he : e ∈ f.edges)
    (conditional : e.condition.op ≠ .always) : f.step.RefSlot e.condition.left := by
  by_cases branches : n.type.Branches
  · obtain ⟨_, target, _, evaluates, guards⟩ := h.guarded branches
    obtain ⟨i, here⟩ := List.mem_iff_getElem?.mp he
    have guard := guards i e here
    rw [Lowerer.guardAt] at guard
    split at guard
    · exact False.elim (conditional (guard ▸ rfl))
    · obtain ⟨l, _, type, rfl⟩ := h
      have owns : l.ownsEdges = true := l.branches_iff.mp (type ▸ branches)
      obtain ⟨own, slot⟩ := Lowerer.fragment_evaluates owns n (w.leaving n.id)
      obtain rfl := Except.ok.inj (own.symm.trans evaluates)
      rw [guard]
      exact slot
  · exact False.elim (conditional (h.unguarded branches he ▸ rfl))

end Workflow

namespace LiveStore

variable {s : LiveStore} {ref : Json}

/-- A reference to a variable can be written in every state. -/
theorem set_done_of_vars {path : List String} (read : StateRef.read ref = .ok ⟨.vars, path⟩)
    (v : Slot) : (Operation.set ref v).outcome s = .ok .done := by
  rw [outcome_set, read]
  rfl

theorem get_value_of_isRef (formed : StateRef.isRef ref = true) (default : Slot) :
    ∃ v, (Operation.get ref default).outcome s = .ok (.value v) := by
  obtain ⟨r, read⟩ := StateRef.exists_read_of_isRef formed
  refine ⟨(s.store.get? r).getD default, ?_⟩
  rw [Operation.outcome, Operation.perform, read, Procedure.run_bind_ok (Procedure.run_check _ s)]
  rfl

end LiveStore

namespace Workflow

section

variable {table : LowererTable} {version : String} {rejectCycles : Bool} {w : Workflow}
  {lowered : Lowered} {ref : Json}

theorem read_of_writes (h : w.lower table version rejectCycles = .ok lowered)
    (writes : lowered.program.Writes ref) : ∃ path, StateRef.read ref = .ok ⟨.vars, path⟩ := by
  obtain ⟨entry, fragments, _, made, valid, rfl⟩ := lower_eq_ok h
  obtain ⟨step, member, writes⟩ := writes
  obtain ⟨f, hf, rfl⟩ := List.mem_map.mp member
  obtain ⟨n, _, l, _, _, rfl⟩ := forall₂_exists_left made hf
  obtain ⟨slot, rest, rfl⟩ := Lowerer.fragment_writes writes
  exact ⟨_, StateRef.read_of_space (valid _ hf _ slot)⟩

theorem isRef_of_reads (h : w.lower table version rejectCycles = .ok lowered)
    (reads : lowered.program.Reads ref) : StateRef.isRef ref = true := by
  obtain ⟨entry, fragments, _, made, valid, rfl⟩ := lower_eq_ok h
  rcases reads with ⟨step, member, reads⟩ | ⟨e, member, conditional, rfl⟩
  · obtain ⟨f, hf, rfl⟩ := List.mem_map.mp member
    obtain ⟨n, _, l, _, _, rfl⟩ := forall₂_exists_left made hf
    exact valid _ hf _ (Lowerer.fragment_reads reads)
  · obtain ⟨f, hf, he⟩ := List.mem_flatMap.mp member
    obtain ⟨n, _, lowers⟩ := forall₂_exists_left made hf
    exact valid f hf _ (lowers.compares he conditional)

end

/-- Whatever a lowered program does with the state can be done in every state. What it
writes are variables, what it reads are references, and no step lacks what it looks at. -/
theorem state_access_legal {table : LowererTable} {version : String} {rejectCycles : Bool}
    {w : Workflow} {lowered : Lowered} (h : w.lower table version rejectCycles = .ok lowered) :
    (∀ ref, lowered.program.Writes ref →
      (∃ path, StateRef.read ref = .ok ⟨.vars, path⟩) ∧
      ∀ (s : LiveStore) v, (Operation.set ref v).outcome s = .ok .done) ∧
    (∀ ref, lowered.program.Reads ref →
      ∀ (s : LiveStore) default, ∃ v, (Operation.get ref default).outcome s = .ok (.value v)) ∧
    ∀ step ∈ lowered.program.steps,
      (step.action = .switch → ∃ ref, step.inputs.item "evaluationTarget" = .ok ref) ∧
      ∀ kind expression, step.action = .transform kind expression →
        ∃ ref, step.inputs.item "source" = .ok ref := by
  refine ⟨?_, ?_, ?_⟩
  · intro ref writes
    obtain ⟨path, read⟩ := read_of_writes h writes
    exact ⟨⟨path, read⟩, fun s v => set_done_of_vars read v⟩
  · exact fun ref reads s default => get_value_of_isRef (isRef_of_reads h reads) default
  · intro step member
    obtain ⟨entry, fragments, _, made, valid, rfl⟩ := lower_eq_ok h
    obtain ⟨f, hf, rfl⟩ := List.mem_map.mp member
    obtain ⟨n, _, l, _, _, rfl⟩ := forall₂_exists_left made hf
    refine ⟨fun action => ?_, fun kind expression action => ?_⟩
    · exact ⟨_, (Lowerer.fragment_evaluates (Lowerer.fragment_switch action) n _).1⟩
    · exact ⟨_, by rw [Lowerer.fragment_transform action]; rfl⟩

/-- Keeps a text of the input in a variable. -/
def keeping : Node where
  id := "keep"
  type := .variableStore
  config := [("key", .str "kept.text"), ("value", .str "$in.text")]

/-- An input is kept in a variable, transformed, and looked at to choose between two ends. -/
def relay : Workflow where
  id := "relay"
  name := "Relay"
  version := formatVersion
  createdAt := ""
  updatedAt := ""
  nodes :=
    [{ id := "begin", type := .start },
     keeping,
     { id := "change", type := .dataTransform },
     { id := "choose", type := .switch,
       config := [("evaluationTarget", .str "$vars.kept.text")] },
     { id := "yes", type := .stop },
     { id := "no", type := .stop }]
  edges :=
    [{ id := "1", source := "begin", target := "keep" },
     { id := "2", source := "keep", target := "change" },
     { id := "3", source := "change", target := "choose" },
     { id := "4", source := "choose", target := "yes" },
     { id := "5", source := "choose", target := "no" }]

theorem relay_accesses_legal : ∃ lowered, relay.lower .standard "0.1" true = .ok lowered ∧
    (lowered.program.Writes (.str "$vars.kept.text") ∧
      ∀ (s : LiveStore) v, (Operation.set (.str "$vars.kept.text") v).outcome s = .ok .done) ∧
    (lowered.program.Reads (.str "$in.text") ∧ ∀ (s : LiveStore) default,
      ∃ v, (Operation.get (.str "$in.text") default).outcome s = .ok (.value v)) := by
  obtain ⟨lowered, made, keeps⟩ : ∃ lowered, relay.lower .standard "0.1" true = .ok lowered ∧
      Lowerer.variableStep keeping ∈ lowered.program.steps :=
    ⟨_, rfl, List.mem_cons_of_mem _ List.mem_cons_self⟩
  obtain ⟨written, read, _⟩ := state_access_legal made
  have writes : lowered.program.Writes (.str "$vars.kept.text") := ⟨_, keeps, .assigned rfl⟩
  have reads : lowered.program.Reads (.str "$in.text") := .inl ⟨_, keeps, .copied rfl rfl⟩
  exact ⟨lowered, made, ⟨writes, (written _ writes).2⟩, reads, read _ reads⟩

end Workflow
end Flowgraph
