import Flowgraph.Emit.Emitter
import Flowgraph.Proofs.Text.Parts
import Flowgraph.Proofs.Text.Slug

/-!
# The names of files

Whatever a workflow is called, its files are called by a slug. So a file stands directly in the
directory of its target. Two workflows may well have the same slug; nothing is said against it.
-/
namespace Flowgraph

/-! ## The paths of files -/

theorem Workflow.isSlug_fileStem (w : Workflow) : Text.IsSlug w.fileStem.toList := by
  apply Text.isSlug_slugify
  apply Text.isSlug_slugify
  exact Text.isSlug_of_all (by decide) (by decide)

namespace Target

/-- The directories that the files of a target stand in, the outermost one first. -/
def directory : Target → List String
  | claude => [".claude", "commands"]
  | openaiAssistants | portableJson => ["out"]

def extension : Target → String
  | claude => ".md"
  | openaiAssistants => ".assistant.json"
  | portableJson => ".portable.json"

/-- The path through the directories of a target to the file with a given stem. -/
def path (t : Target) (stem : String) : String :=
  "/".intercalate (t.directory ++ [stem ++ t.extension])

theorem path_claude (stem : String) : path .claude stem = ".claude/commands/" ++ stem ++ ".md" := by
  have nested : ".claude/commands/" = ".claude" ++ ("/" ++ ("commands" ++ "/")) := by decide
  simp only [path, directory, extension, nested, List.cons_append, List.nil_append,
    String.intercalate_cons_cons, String.intercalate_singleton, String.append_assoc]

theorem path_out {t : Target} (out : t.directory = ["out"]) (stem : String) :
    t.path stem = "out/" ++ stem ++ t.extension := by
  have flat : "out/" = "out" ++ "/" := by decide
  simp only [path, out, flat, List.cons_append, List.nil_append,
    String.intercalate_cons_cons, String.intercalate_singleton, String.append_assoc]

theorem no_slash (t : Target) :
    (∀ d ∈ t.directory, '/' ∉ d.toList) ∧ '/' ∉ t.extension.toList := by
  cases t <;> decide

/-- A slug brings no further directory into a path. -/
theorem parts_path (t : Target) {stem : String} (slug : Text.IsSlug stem.toList) :
    Text.parts '/' (t.path stem) = t.directory ++ [stem ++ t.extension] := by
  apply Text.parts_intercalate (by decide) (by simp)
  intro part member
  rcases List.mem_append.mp member with inner | last
  · exact t.no_slash.1 part inner
  · rw [List.mem_singleton.mp last, String.toList_append, List.mem_append]
    rintro (inside | inside)
    · exact absurd (slug.chars '/' inside) (by decide)
    · exact t.no_slash.2 inside

end Target

namespace Emitter

variable {e : Emitter} {i : EmitInput} {o : Output} {f : OutputFile}

/-- At most one file is made, and its path is that of the target and the workflow. -/
theorem path_of_emit (emitted : e.emit i = .ok o) (made : f ∈ o.files) :
    o.files = [f] ∧ f.path = e.target.path i.workflow.fileStem := by
  have only {f' : OutputFile} (out : e.single i f' = o) : o.files = [f] ∧ f' = f := by
    rw [← out] at made ⊢
    obtain rfl := List.mem_singleton.mp made
    exact ⟨rfl, rfl⟩
  cases e with
  | command =>
    obtain ⟨alone, rfl⟩ := only (Except.ok.inj emitted)
    exact ⟨alone, (Target.path_claude _).symm⟩
  | assistant =>
    obtain ⟨alone, rfl⟩ := only (Except.ok.inj emitted)
    exact ⟨alone, (Target.path_out (t := .openaiAssistants) rfl _).symm⟩
  | bundle =>
    cases wrote : Bundle.file i with
    | error fault =>
      rw [emit, wrote] at emitted
      cases emitted
    | ok f' =>
      rw [emit, wrote] at emitted
      obtain ⟨alone, rfl⟩ := only (Except.ok.inj emitted)
      obtain ⟨v, -, wrote⟩ := bind_eq_ok.mp wrote
      refine ⟨alone, ?_⟩
      rw [← Except.ok.inj wrote]
      exact (Target.path_out (t := .portableJson) rfl _).symm
  | empty target expected =>
    rw [← Except.ok.inj emitted] at made
    exact False.elim (List.not_mem_nil made)

end Emitter

/-- For every workflow the stem of its files is a slug, so what an emitter makes is one file that
stands directly in the directory of the target; and the slug of a slug is the slug itself. -/
theorem Workflow.files_named_by_slug (w : Workflow) :
    Text.IsSlug w.fileStem.toList ∧
    (∀ (e : Emitter) (m : Model) (p : Option Program) (o : Output) (f : OutputFile),
      e.emit ⟨w, m, p⟩ = .ok o → f ∈ o.files → o.files = [f] ∧
        Text.parts '/' f.path = e.target.directory ++ [w.fileStem ++ e.target.extension]) ∧
    ∀ name fallback : String, Text.IsSlug fallback.toList →
      Text.IsSlug (Text.slugify name fallback).toList ∧
      Text.slugify (Text.slugify name fallback) fallback = Text.slugify name fallback := by
  have stem := w.isSlug_fileStem
  refine ⟨stem, ?_, ?_⟩
  · intro e m p o f emitted made
    obtain ⟨alone, path⟩ := Emitter.path_of_emit emitted made
    rw [path]
    exact ⟨alone, e.target.parts_path stem⟩
  · intro name fallback slug
    have made := Text.isSlug_slugify name slug
    exact ⟨made, Text.slugify_of_isSlug made fallback⟩

/-- The name begins with a letter whose lower case has two characters, and neither it nor the id
could be the name of a file. -/
def Workflow.travelling : Workflow where
  id := "../etc"
  name := "İstanbul // Tour!"
  version := formatVersion
  createdAt := ""
  updatedAt := ""

theorem Workflow.travelling_named_by_slug :
    Text.IsSlug travelling.fileStem.toList ∧ travelling.fileStem = "i-stanbul-tour" ∧
    (∃ (m : Model) (o : Output) (f : OutputFile),
      Emitter.command.emit ⟨travelling, m, none⟩ = .ok o ∧ f ∈ o.files ∧ o.files = [f] ∧
      Text.parts '/' f.path = [".claude", "commands", "i-stanbul-tour.md"]) ∧
    Text.IsSlug "file".toList ∧ Text.slugify "C#" "file" = "c" ∧
    Text.slugify (Text.slugify "C#" "file") "file" = Text.slugify "C#" "file" := by
  obtain ⟨stem, files, again⟩ := travelling.files_named_by_slug
  have called : travelling.fileStem = "i-stanbul-tour" := by decide +kernel
  have fallback : Text.IsSlug "file".toList := Text.isSlug_of_all (by decide) (by decide)
  let m : Model :=
    { id := "m", displayName := "M", provider := "p", capabilities := { contextWindow := 1000 } }
  obtain ⟨alone, path⟩ := files .command m none _ _ rfl List.mem_cons_self
  rw [called] at path
  exact ⟨stem, called, ⟨m, _, _, rfl, List.mem_cons_self, alone, path⟩, fallback,
    by decide +kernel, (again "C#" "file" fallback).2⟩

end Flowgraph
