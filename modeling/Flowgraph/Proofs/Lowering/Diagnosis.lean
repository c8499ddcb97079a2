import Flowgraph.Compiler.Compile
import Flowgraph.Proofs.Lowering.Pipeline

/-!
# Diagnosis and compilation

A diagnosis lists all that is wrong with a workflow, and a compilation ends at the first
thing. The two are made by different checks; here it is shown that they find the same
workflows in order, and that the compilation ends with the code that the diagnosis lists
first. Of the later diagnostics nothing is said.
-/
namespace Flowgraph

/-- The first of some diagnostics has a given code. -/
def BeginsWithCode (code : String) (l : List Diagnostic) : Prop :=
  ∃ d rest, l = d :: rest ∧ d.code = code

theorem BeginsWithCode.append {code : String} {l : List Diagnostic} (h : BeginsWithCode code l)
    (later : List Diagnostic) : BeginsWithCode code (l ++ later) := by
  obtain ⟨d, rest, rfl, hd⟩ := h
  exact ⟨d, rest ++ later, rfl, hd⟩

theorem beginsWithCode_of_forall {code : String} {l : List Diagnostic} (some : l ≠ [])
    (all : ∀ d ∈ l, d.code = code) : BeginsWithCode code l := by
  obtain ⟨d, rest, rfl⟩ := List.exists_cons_of_ne_nil some
  exact ⟨d, rest, rfl, all d List.mem_cons_self⟩

namespace Workflow

variable {table : LowererTable} {rejectCycles : Bool} {w : Workflow}

/-! ## Each check and its diagnostics -/

theorem missingEnds_eq_nil_iff (e : Edge) :
    w.missingEnds e = [] ↔ (w.hasNode e.source && w.hasNode e.target) = true := by
  simp [missingEnds]

theorem endDiagnostics_eq_nil_iff : w.edges.flatMap w.endDiagnostics = [] ↔
    w.danglingEdges = [] := by
  unfold danglingEdges
  rw [List.flatMap_eq_nil_iff, List.filter_eq_nil_iff]
  apply forall₂_congr
  intro e _
  rw [endDiagnostics, List.map_eq_nil_iff, missingEnds_eq_nil_iff]
  simp

theorem code_of_mem_endDiagnostics {d : Diagnostic}
    (h : d ∈ w.edges.flatMap w.endDiagnostics) : d.code = "E_MISSING_REF" := by
  obtain ⟨e, _, he⟩ := List.mem_flatMap.mp h
  obtain ⟨id, _, rfl⟩ := List.mem_map.mp he
  rfl

theorem reachDiagnostics_eq_nil (reached : w.graph.unreachable = []) :
    w.reachDiagnostics = [] :=
  if_pos (by simpa using reached)

/-- Cycles are listed only where they are rejected. -/
theorem rejectedCycles_eq_nil (acyclic : rejectCycles = true → w.graph.cycles = []) :
    (if rejectCycles then w.cycleDiagnostics "E_CYCLE" .blocking else []) = [] := by
  cases rejectCycles with
  | false => rfl
  | true => rw [if_pos rfl, cycleDiagnostics, acyclic rfl, List.map_nil]

theorem code_of_mem_cycleDiagnostics {code : String} {severity : Severity} {d : Diagnostic}
    (h : d ∈ w.cycleDiagnostics code severity) : d.code = code := by
  obtain ⟨cycle, _, rfl⟩ := List.mem_map.mp h
  rfl

theorem typeDiagnostics_eq_nil_iff :
    w.typeDiagnostics table = [] ↔ ∀ n ∈ w.nodes, Supported table n := by
  unfold typeDiagnostics
  rw [List.map_eq_nil_iff, List.filter_eq_nil_iff]
  apply forall₂_congr
  intro n _
  rw [Option.isNone_iff_eq_none, find?_eq_none_iff, not_not]

theorem code_of_mem_typeDiagnostics {d : Diagnostic} (h : d ∈ w.typeDiagnostics table) :
    d.code = "E_UNSUPPORTED_NODE" := by
  obtain ⟨n, _, rfl⟩ := List.mem_map.mp h
  rfl

/-! ## The order of the checks -/

/-- Where the graph checks refuse, the diagnostics begin with the same code; where they do
not, only node types are left to complain of. -/
theorem structureDiagnostics_of_checkGraph (table : LowererTable) (rejectCycles : Bool)
    (w : Workflow) :
    (∃ r, w.checkGraph rejectCycles = .error r ∧
      BeginsWithCode r.code (w.structureDiagnostics table rejectCycles)) ∨
    ∃ entry, w.checkGraph rejectCycles = .ok entry ∧
      w.structureDiagnostics table rejectCycles = w.typeDiagnostics table := by
  have outcome := w.checkGraph_outcome rejectCycles
  generalize w.checkGraph rejectCycles = result at outcome ⊢
  unfold structureDiagnostics
  -- Each check that passes has nothing to say, and the first that refuses begins the list.
  cases outcome with
  | dangling some =>
    have first := beginsWithCode_of_forall (mt endDiagnostics_eq_nil_iff.mp some)
      fun _ => code_of_mem_endDiagnostics
    exact Or.inl ⟨_, rfl, (((first.append _).append _).append _).append _⟩
  | unreachable ends some =>
    have reach : w.reachDiagnostics =
        [(Rejection.unreachableNodes w.graph.unreachable).diagnostic] :=
      if_neg (by simpa using some)
    rw [endDiagnostics_eq_nil_iff.mpr ends, reach]
    exact Or.inl ⟨_, rfl, _, _, rfl, rfl⟩
  | cyclic ends reached reject some =>
    have listed : w.cycleDiagnostics "E_CYCLE" .blocking ≠ [] := mt List.map_eq_nil_iff.mp some
    have first := beginsWithCode_of_forall listed fun _ => code_of_mem_cycleDiagnostics
    rw [endDiagnostics_eq_nil_iff.mpr ends, reachDiagnostics_eq_nil reached, if_pos reject]
    exact Or.inl ⟨_, rfl, (first.append _).append _⟩
  | startCount ends reached acyclic count =>
    have counted : w.startDiagnostics = [(Rejection.startCount w.startIds).diagnostic] :=
      if_neg count
    rw [endDiagnostics_eq_nil_iff.mpr ends, reachDiagnostics_eq_nil reached,
      rejectedCycles_eq_nil acyclic, counted]
    exact Or.inl ⟨_, rfl, _, _, rfl, rfl⟩
  | entry ends reached acyclic one =>
    have counted : w.startDiagnostics = [] := if_pos (by rw [one]; rfl)
    rw [endDiagnostics_eq_nil_iff.mpr ends, reachDiagnostics_eq_nil reached,
      rejectedCycles_eq_nil acyclic, counted]
    exact Or.inr ⟨_, rfl, rfl⟩

theorem diagnose_errors_of_some {prompts : PromptCatalog} {version code : String}
    (h : BeginsWithCode code (w.structureDiagnostics table rejectCycles)) :
    BeginsWithCode code (w.diagnose table prompts version rejectCycles).errors := by
  obtain ⟨d, rest, found, hd⟩ := h
  refine ⟨d, rest, ?_, hd⟩
  simp only [diagnose, found]

theorem diagnose_errors_of_nil {prompts : PromptCatalog} {version : String}
    (h : w.structureDiagnostics table rejectCycles = []) :
    (w.diagnose table prompts version rejectCycles).errors =
      w.programDiagnostics table prompts version rejectCycles := by
  simp only [diagnose, h]

/-- A workflow that cannot be lowered is diagnosed with the code of its rejection first. -/
theorem diagnose_of_lower_error (prompts : PromptCatalog) {version : String} {r : Rejection}
    (h : w.lower table version rejectCycles = .error r) :
    BeginsWithCode r.code (w.diagnose table prompts version rejectCycles).errors := by
  have outcome := w.lower_outcome table version rejectCycles
  rw [h] at outcome
  rcases structureDiagnostics_of_checkGraph table rejectCycles w with
    ⟨r', refused, first⟩ | ⟨entry, passed, types⟩
  · cases outcome with
    | graph check =>
      obtain rfl := Except.error.inj (check.symm.trans refused)
      exact diagnose_errors_of_some first
    | unsupported check | invalidRefs check =>
      rw [refused] at check
      cases check
  · cases outcome with
    | graph check =>
      rw [passed] at check
      cases check
    | unsupported check node none =>
      have some : w.typeDiagnostics table ≠ [] :=
        fun nil => none (typeDiagnostics_eq_nil_iff.mp nil _ node)
      have first := beginsWithCode_of_forall some fun _ => code_of_mem_typeDiagnostics
      exact diagnose_errors_of_some (types ▸ first)
    | invalidRefs check lowered invalid =>
      have supported : ∀ n ∈ w.nodes, Supported table n := by
        intro n hn
        obtain ⟨f, _, made⟩ := forall₂_exists_right lowered hn
        exact made.supported
      rw [diagnose_errors_of_nil (types.trans (typeDiagnostics_eq_nil_iff.mpr supported))]
      simp only [programDiagnostics, h]
      exact ⟨_, _, rfl, rfl⟩

/-- A workflow that is lowered can only lack templates. -/
theorem diagnose_of_lower_ok (prompts : PromptCatalog) {version : String} {lowered : Lowered}
    (h : w.lower table version rejectCycles = .ok lowered) :
    (w.diagnose table prompts version rejectCycles).errors =
      match missingTemplates prompts lowered with
      | [] => []
      | missing => [(Rejection.missingTemplates missing).diagnostic] := by
  obtain ⟨entry, fragments, check, made, _, _⟩ := lower_eq_ok h
  rcases structureDiagnostics_of_checkGraph table rejectCycles w with
    ⟨r, refused, _⟩ | ⟨entry', _, types⟩
  · rw [refused] at check
    cases check
  · have supported : ∀ n ∈ w.nodes, Supported table n := by
      intro n hn
      obtain ⟨f, _, made⟩ := forall₂_exists_right made hn
      exact made.supported
    rw [diagnose_errors_of_nil (types.trans (typeDiagnostics_eq_nil_iff.mpr supported))]
    unfold programDiagnostics
    generalize w.lower table version rejectCycles = result at h ⊢
    subst h
    rfl

theorem missingTemplates_eq_nil_iff (prompts : PromptCatalog) (lowered : Lowered) :
    missingTemplates prompts lowered = [] ↔
      ∀ id ∈ lowered.templates, prompts.has id = true := by
  simp [missingTemplates, List.filter_eq_nil_iff]

end Workflow

namespace Compiler

/-- A compilation that is rejected before the templates are found knows no emitter. -/
theorem compile_of_lower_error {c : Compiler} {w : Workflow} {r : Rejection}
    (h : c.lower w = .error r) (m : Model) (t : Target) :
    c.compile w m t = .error (.rejected r) := by
  simp only [compile, h]
  rfl

theorem compile_of_missing {c : Compiler} {w : Workflow} {lowered : Lowered} {r : Rejection}
    (h : c.lower w = .ok lowered) (missing : c.checkTemplates lowered = .error r) (m : Model)
    (t : Target) : c.compile w m t = .error (.rejected r) := by
  simp only [compile, h]
  change (ofRejection (c.checkTemplates lowered) >>= fun _ => _) = _
  rw [missing]
  rfl

/-- A diagnosis always comes out. It is without errors exactly when the workflow can be
lowered and all its templates are registered; otherwise every compilation, for any model,
target and table of emitters, is rejected with the code of the first error. The rejection
does not depend on the emitters: none of them is asked. -/
theorem diagnosis_agrees_with_compilation (c : Compiler) (w : Workflow) :
    ((c.diagnose w).errors = [] ↔ ∃ lowered, c.lower w = .ok lowered ∧
      ∀ id ∈ lowered.templates, c.prompts.has id = true) ∧
    ((c.diagnose w).valid = true ↔ (c.diagnose w).errors = []) ∧
    ∀ d rest, (c.diagnose w).errors = d :: rest → ∃ r : Rejection, r.code = d.code ∧
      ∀ (emitters : EmitterTable) (m : Model) (t : Target),
        ({ c with emitters } : Compiler).compile w m t = .error (.rejected r) := by
  refine ⟨?_, List.isEmpty_iff, ?_⟩
  · cases result : c.lower w with
    | error r =>
      obtain ⟨d, rest, found, _⟩ := Workflow.diagnose_of_lower_error c.prompts result
      have some : (c.diagnose w).errors ≠ [] := fun none => by
        rw [diagnose, found] at none
        cases none
      simp [some]
    | ok lowered =>
      have errors : (c.diagnose w).errors = _ := Workflow.diagnose_of_lower_ok c.prompts result
      have templates := Workflow.missingTemplates_eq_nil_iff c.prompts lowered
      rw [errors]
      cases missing : Workflow.missingTemplates c.prompts lowered with
      | nil => simpa using templates.mp missing
      | cons id ids =>
        have lacking : ¬∀ id ∈ lowered.templates, c.prompts.has id = true := by
          intro all
          rw [templates.mpr all] at missing
          cases missing
        simpa using lacking
  · intro d rest listed
    cases result : c.lower w with
    | error r =>
      obtain ⟨d', rest', found, code⟩ := Workflow.diagnose_of_lower_error c.prompts result
      obtain ⟨rfl, _⟩ := List.cons.inj (found.symm.trans listed)
      refine ⟨r, code.symm, ?_⟩
      intro emitters m t
      exact compile_of_lower_error (c := { c with emitters }) result m t
    | ok lowered =>
      have errors : (c.diagnose w).errors = _ := Workflow.diagnose_of_lower_ok c.prompts result
      rw [listed] at errors
      cases missing : Workflow.missingTemplates c.prompts lowered with
      | nil =>
        rw [missing] at errors
        cases errors
      | cons id ids =>
        rw [missing] at errors
        obtain ⟨rfl, _⟩ := List.cons.inj errors
        have refused : c.checkTemplates lowered = .error (.missingTemplates (id :: ids)) := by
          simp only [checkTemplates, missing]
        refine ⟨.missingTemplates (id :: ids), rfl, ?_⟩
        intro emitters m t
        exact compile_of_missing (c := { c with emitters }) result refused m t

end Compiler
end Flowgraph
