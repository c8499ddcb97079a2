import Flowgraph.Proofs.Lowering.Diagnosis
import Flowgraph.Proofs.Lowering.Reordering
import Flowgraph.Proofs.Lowering.Typed
import Flowgraph.Proofs.Workflow.RoundTrip

/-!
# Portable bundles are self-contained

A bundle holds a program and the workflow that it was made from. Both can be read back, and
the workflow, whose nodes are sorted, is accepted and lowered to the same program up to the
order of the steps.
-/
namespace Flowgraph

/-! ## Sorted workflows -/

namespace Bundle

theorem perm_sortedNodes (w : Workflow) : (sortedNodes w).Perm w.nodes :=
  List.mergeSort_perm _ _

theorem reorders_sorted (w : Workflow) : (sorted w).Reorders w :=
  ⟨perm_sortedNodes w, rfl⟩

theorem sortedNodes_ascending {w : Workflow} (distinct : (w.nodes.map (·.id)).Nodup) :
    (sortedNodes w).Pairwise fun m n => m.id < n.id := by
  have ordered : (sortedNodes w).Pairwise fun m n => m.id ≤ n.id :=
    pairwise_mergeSort_of_total (r := fun m n : Node => m.id ≤ n.id) (fun _ _ _ => le_trans)
      (fun _ _ => le_total _ _) w.nodes
  have apart : (sortedNodes w).Pairwise fun m n => m.id ≠ n.id :=
    List.pairwise_map.mp (((perm_sortedNodes w).map _).nodup_iff.mpr distinct)
  exact ordered.imp₂ (fun _ _ le ne => lt_of_le_of_ne le ne) apart

theorem valid_sorted {w : Workflow} (valid : w.Valid) : (sorted w).Valid where
  id := valid.id
  name := valid.name
  short := valid.short
  few := (perm_sortedNodes w).length_eq.trans_le valid.few
  named := fun n member => valid.named n ((perm_sortedNodes w).mem_iff.mp member)
  distinct := ((perm_sortedNodes w).map _).nodup_iff.mpr valid.distinct

theorem wellTyped_sorted {w : Workflow} (typed : w.WellTyped) : (sorted w).WellTyped where
  nodes := fun n member => typed.nodes n ((perm_sortedNodes w).mem_iff.mp member)
  metadata := typed.metadata

/-! ## Written bundles -/

/-- The value that is written for a workflow, given the form of its program. -/
def form (w : Workflow) (m : Model) (program : Json) : Json :=
  .obj [("schemaVersion", .str formatVersion), ("compiledFor", .str m.id),
    ("workflow", (sorted w).toJson), ("execir", program)]

theorem file_eq {w : Workflow} {p : Program} {v : Json} (m : Model) (written : p.toJson = .ok v) :
    file ⟨w, m, some p⟩ = .ok ⟨"out/" ++ w.fileStem ++ ".portable.json",
      (form w m v).write (.indented 2)⟩ := by
  rw [file, payload, programField, written]
  rfl

theorem proper_form {w : Workflow} {v : Json} (m : Model) (typed : w.WellTyped)
    (proper : v.Proper) : (form w m v).Proper :=
  ⟨by simp, trivial, trivial, Workflow.proper_toJson (wellTyped_sorted typed), proper, trivial⟩

end Bundle

namespace Compiler

variable {c : Compiler} {w : Workflow} {m : Model} {t : Target} {output : Output}

/-- What a compilation that succeeds has gone through. -/
theorem compile_eq_ok (compiled : c.compile w m t = .ok output) :
    ∃ lowered emitter emitted, c.lower w = .ok lowered ∧ c.checkTemplates lowered = .ok () ∧
      c.emitters.find t = .ok emitter ∧
      emitter.emit ⟨w, m, some lowered.program⟩ = .ok emitted ∧ emitted.files ≠ [] ∧
      output.files = emitted.files := by
  simp only [compile, bind, Except.bind, ofRejection, ofFault] at compiled
  cases lower : c.lower w with
  | error r => simp [lower, Except.mapError] at compiled
  | ok lowered =>
    cases templates : c.checkTemplates lowered with
    | error r => simp [lower, templates, Except.mapError] at compiled
    | ok _ =>
      cases find : c.emitters.find t with
      | error f => simp [lower, templates, find, Except.mapError] at compiled
      | ok emitter =>
        cases emit : emitter.emit ⟨w, m, some lowered.program⟩ with
        | error f => simp [lower, templates, find, emit, Except.mapError] at compiled
        | ok emitted =>
          simp only [lower, templates, find, emit, Except.mapError] at compiled
          split at compiled
          · cases compiled
          · rename_i some
            refine ⟨lowered, emitter, emitted, rfl, templates, rfl, emit, by simpa using some, ?_⟩
            exact (congrArg Output.files (Except.ok.inj compiled)).symm

/-- An emitter for bundles that makes a file is the one that writes them. -/
theorem bundle_of_find {i : EmitInput} {emitter : Emitter} {emitted : Output}
    (find : c.emitters.find .portableJson = .ok emitter) (emit : emitter.emit i = .ok emitted)
    (files : emitted.files ≠ []) : emitter = .bundle := by
  have target : emitter.target = .portableJson := by
    unfold EmitterTable.find at find
    split at find
    · rename_i found
      cases find
      simpa using List.find?_some found
    · cases find
  cases emitter with
  | bundle => rfl
  | command | assistant => cases target
  | empty =>
    cases emit
    exact absurd rfl files

end Compiler

/-! ## What can be done with a bundle -/

/-- A bundle has the program that a workflow was lowered to, and the workflow with its nodes in
ascending order. This workflow is accepted and diagnosed without errors, and it is lowered to
the same program up to the order of the steps. -/
structure Compiler.SelfContained (c : Compiler) (w : Workflow) (lowered : Lowered)
    (nodes : List Node) (bundle : Json) : Prop where
  program : ∃ v, bundle.item "execir" = .ok v ∧ Program.ofJson v = .ok lowered.program
  workflow : bundle.item "workflow" = .ok { w with nodes }.toJson
  permuted : nodes.Perm w.nodes
  ascending : nodes.Pairwise fun m n => m.id < n.id
  accepted : ∀ (intake : Intake) (now : String),
    Workflow.check intake now { w with nodes }.toJson = .ok { w with nodes }
  clean : (c.diagnose { w with nodes }).errors = []
  again : ∃ lowered', c.lower { w with nodes } = .ok lowered' ∧
    Workflow.SameUpToOrder lowered' lowered ∧
    lowered'.program.steps.map (·.id) = nodes.map fun n => Json.str n.id

namespace Compiler

variable {c : Compiler} {w : Workflow} {m : Model} {lowered : Lowered}

theorem diagnose_sorted {lowered' : Lowered} (templates : c.checkTemplates lowered = .ok ())
    (same : lowered'.templates = lowered.templates)
    (success : c.lower (Bundle.sorted w) = .ok lowered') :
    (c.diagnose (Bundle.sorted w)).errors = [] := by
  have none : Workflow.missingTemplates c.prompts lowered' = [] := by
    rw [Workflow.missingTemplates, same, ← Workflow.missingTemplates]
    unfold checkTemplates at templates
    split at templates
    · assumption
    · cases templates
  have errors : (c.diagnose (Bundle.sorted w)).errors = _ :=
    Workflow.diagnose_of_lower_ok c.prompts success
  rw [errors, none]

theorem selfContained_form {v : Json} (valid : w.Valid) (success : c.lower w = .ok lowered)
    (templates : c.checkTemplates lowered = .ok ())
    (back : Program.ofJson v = .ok lowered.program) :
    c.SelfContained w lowered (Bundle.sortedNodes w) (Bundle.form w m v) := by
  obtain ⟨lowered', again, same, ids⟩ :=
    Workflow.lower_reordered (Bundle.reorders_sorted w) valid.distinct success
  exact
    { program := ⟨v, rfl, back⟩
      workflow := rfl
      permuted := Bundle.perm_sortedNodes w
      ascending := Bundle.sortedNodes_ascending valid.distinct
      accepted := fun intake now =>
        Workflow.check_toJson intake (Bundle.valid_sorted valid) now
      clean := diagnose_sorted templates same.templates again
      again := ⟨lowered', again, same, ids⟩ }

/-- An accepted workflow that is lowered, with all its templates at hand, is compiled to a
bundle: nothing in it resists being written. -/
theorem exists_portable_bundle (accepted : w.Accepted) (success : c.lower w = .ok lowered)
    (templates : c.checkTemplates lowered = .ok ())
    (find : c.emitters.find .portableJson = .ok .bundle) :
    ∃ output, c.compile w m .portableJson = .ok output := by
  obtain ⟨valid, typed⟩ := Workflow.accepted_iff.mp accepted
  obtain ⟨v, written, -⟩ := Program.exists_toJson (Workflow.lower_wellTyped typed success)
  have emit : Emitter.bundle.emit ⟨w, m, some lowered.program⟩ = .ok _ :=
    congrArg (Except.map _) (Bundle.file_eq m written)
  simp only [compile, success, templates, find, emit, ofRejection, ofFault, Except.mapError, bind,
    Except.bind]
  exact ⟨_, rfl⟩

/-- A compilation to a portable bundle makes one file, and what is read from it is a
self-contained bundle of the program and the workflow. A reader whose limit is less than the
nesting of the bundle refuses it as too deep. -/
theorem portable_bundle_selfContained {output : Output} (accepted : w.Accepted)
    (compiled : c.compile w m .portableJson = .ok output) :
    ∃ lowered file nodes bundle, c.lower w = .ok lowered ∧ output.files = [file] ∧
      (∀ limit, Json.readWithin limit file.content =
        if bundle.nesting ≤ limit then .ok bundle else .error .tooDeep) ∧
      c.SelfContained w lowered nodes bundle := by
  obtain ⟨valid, typed⟩ := Workflow.accepted_iff.mp accepted
  obtain ⟨lowered, emitter, emitted, success, templates, find, emit, some, files⟩ :=
    compile_eq_ok compiled
  obtain rfl := bundle_of_find find emit some
  obtain ⟨v, written, back, proper⟩ :=
    Program.exists_toJson (Workflow.lower_wellTyped typed success)
  rw [Emitter.emit, Bundle.file_eq m written] at emit
  cases emit
  refine ⟨lowered, _, _, Bundle.form w m v, success, files, fun limit => ?_,
    selfContained_form valid success templates back⟩
  exact Json.readWithin_write (Json.airy_indented 2) (Bundle.proper_form m typed proper) limit

/-- The sketch with its nodes in the other order. -/
def turnedSketch : Workflow :=
  { Workflow.sketch with nodes := Workflow.sketch.nodes.reverse }

theorem accepted_turnedSketch : turnedSketch.Accepted := by
  obtain ⟨valid, typed⟩ := Workflow.accepted_iff.mp Workflow.accepted_sketch
  refine Workflow.accepted_iff.mpr ⟨⟨valid.id, valid.name, valid.short, ?_, ?_, ?_⟩,
    fun n member => typed.nodes n (List.mem_reverse.mp member), typed.metadata⟩
  · exact List.length_reverse.trans_le valid.few
  · exact fun n member => valid.named n (List.mem_reverse.mp member)
  · exact ((List.reverse_perm _).map _).nodup_iff.mpr valid.distinct

theorem turnedSketch_selfContained : ∃ (c : Compiler) (m : Model) (output : Output),
    turnedSketch.Accepted ∧ c.compile turnedSketch m .portableJson = .ok output ∧
    ∃ lowered file nodes bundle, c.lower turnedSketch = .ok lowered ∧ output.files = [file] ∧
      (∀ limit, Json.readWithin limit file.content =
        if bundle.nesting ≤ limit then .ok bundle else .error .tooDeep) ∧
      c.SelfContained turnedSketch lowered nodes bundle := by
  let c : Compiler := { version := "0.1", rejectCycles := true }
  let m : Model :=
    { id := "m", displayName := "M", provider := "p", capabilities := { contextWindow := 1000 } }
  obtain ⟨output, compiled⟩ : ∃ output, c.compile turnedSketch m .portableJson = .ok output :=
    exists_portable_bundle accepted_turnedSketch rfl
      (by simp [checkTemplates, Workflow.missingTemplates, sortedDistinct, Lowerer.fragment]) rfl
  exact ⟨c, m, output, accepted_turnedSketch, compiled,
    portable_bundle_selfContained accepted_turnedSketch compiled⟩

end Compiler
end Flowgraph
