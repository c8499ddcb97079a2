import Flowgraph.Proofs.Lowering.StateAccess

/-!
# Which texts lead to the state

A text counts as a reference where the grammar has it, and where it is such a text with a line
break behind it. The second kind is outside the grammar: it leads to a place whose last segment
ends with the line break. The same holds of what the steps and the guards of a lowered program
read and write, since the check of a lowered program asks for no more than this.
-/
namespace Flowgraph

namespace Program

/-- A place that a step or a guard of a program leads to. -/
def Accesses (p : Program) (ref : Json) : Prop :=
  p.Writes ref ∨ p.Reads ref

end Program

namespace Workflow

/-- What a lowered program accesses is read as a reference. -/
theorem exists_read_of_accesses {table : LowererTable} {version : String} {rejectCycles : Bool}
    {w : Workflow} {lowered : Lowered} (h : w.lower table version rejectCycles = .ok lowered)
    {ref : Json} (accesses : lowered.program.Accesses ref) : ∃ r, StateRef.read ref = .ok r := by
  rcases accesses with writes | reads
  · obtain ⟨path, read⟩ := read_of_writes h writes
    exact ⟨_, read⟩
  · exact StateRef.exists_read_of_isRef (isRef_of_reads h reads)

end Workflow

namespace StateRef

/-- Exactly the texts of the grammar, and those with a line break behind them, are references, and
the grammar decides of all values but the second kind. What is read has names as segments except
for that line break, and the places to which a lowered program leads are read so. -/
theorem reference_texts_decided (v : Json) :
    (isRef v = true ↔ ∃ s, v = .str s ∧
      ((∃ r, Spells s r) ∨ ∃ t r, Spells t r ∧ s = t ++ "\n")) ∧
    ((isRef v = true ↔ ∃ s r, v = .str s ∧ Spells s r) ↔
      ¬∃ t r, Spells t r ∧ v = .str (t ++ "\n")) ∧
    (∀ r, read v = .ok r ↔ ∃ s, v = .str s ∧ Names s r) ∧
    (∀ r, read v = .ok r → r.path ≠ [] ∧ (∀ t ∈ r.path, t ≠ "") ∧
      ((∀ t ∈ r.path, IsName t) ↔ ∀ t, v ≠ .str (t ++ "\n"))) ∧
    ∀ (table : LowererTable) (version : String) (rejectCycles : Bool) (w : Workflow)
      (lowered : Lowered), w.lower table version rejectCycles = .ok lowered →
      lowered.program.Accesses v → ∃ s r, v = .str s ∧ read v = .ok r ∧ Names s r := by
  refine ⟨isRef_iff, grammar_decides_iff, fun r => read_eq_ok_iff, ?_, ?_⟩
  · intro r back
    obtain ⟨s, rfl, names⟩ := read_eq_ok_iff.mp back
    simpa using names.segments
  · intro table version rejectCycles w lowered h accesses
    obtain ⟨r, back⟩ := Workflow.exists_read_of_accesses h accesses
    obtain ⟨s, rfl, names⟩ := read_eq_ok_iff.mp back
    exact ⟨s, r, rfl, back, names⟩

/-- Keeps a value in a variable whose name ends with a line break. -/
def breakingNode : Node where
  id := "keep"
  type := .variableStore
  config := [("key", .str "kept.text\n"), ("value", .int 1)]

def breaking : Workflow where
  id := "breaking"
  name := "Breaking"
  version := Workflow.formatVersion
  createdAt := ""
  updatedAt := ""
  nodes := [{ id := "begin", type := .start }, breakingNode, { id := "done", type := .stop }]
  edges :=
    [{ id := "1", source := "begin", target := "keep" },
     { id := "2", source := "keep", target := "done" }]

/-- A reference of the grammar, and one with a line break behind it in a lowered program. -/
theorem breaking_texts_decided :
    read (.str "$in.a-b.7") = .ok ⟨.input, ["a-b", "7"]⟩ ∧ (∀ t ∈ ["a-b", "7"], IsName t) ∧
    ∃ lowered, breaking.lower .standard "0.1" true = .ok lowered ∧
      lowered.program.Accesses (.str "$vars.kept.text\n") ∧
      ∃ s r, Json.str "$vars.kept.text\n" = .str s ∧
        read (.str "$vars.kept.text\n") = .ok r ∧ Names s r := by
  refine ⟨by decide, ?_, ?_⟩
  · obtain ⟨_, _, _, segments, _⟩ := reference_texts_decided (.str "$in.a-b.7")
    refine (segments ⟨.input, ["a-b", "7"]⟩ (by decide)).2.2.mpr fun t whole => ?_
    have final := congrArg (List.getLast? ·.toList) (Json.str.inj whole)
    simp at final
  · obtain ⟨lowered, made, keeps⟩ : ∃ lowered, breaking.lower .standard "0.1" true = .ok lowered ∧
        Lowerer.variableStep breakingNode ∈ lowered.program.steps :=
      ⟨_, rfl, List.mem_cons_of_mem _ List.mem_cons_self⟩
    have accesses : lowered.program.Accesses (.str "$vars.kept.text\n") :=
      .inl ⟨_, keeps, .assigned rfl⟩
    obtain ⟨_, _, _, _, places⟩ := reference_texts_decided (.str "$vars.kept.text\n")
    exact ⟨lowered, made, accesses, places _ _ _ _ _ made accesses⟩

/-- A text with a line break behind it is read, and a lowered program writes where it leads. -/
theorem line_break_let_through :
    isRef (.str "$vars.kept.text\n") = true ∧ (¬∃ r, Spells "$vars.kept.text\n" r) ∧
    read (.str "$vars.kept.text\n") = .ok ⟨.vars, ["kept", "text\n"]⟩ ∧ ¬IsName "text\n" ∧
    ∃ lowered, breaking.lower .standard "0.1" true = .ok lowered ∧
      lowered.program.Writes (.str "$vars.kept.text\n") := by
  refine ⟨by decide, ?_, by decide, fun name => name.break_not_mem (by decide), _, rfl,
    _, List.mem_cons_of_mem _ List.mem_cons_self, .assigned rfl⟩
  rintro ⟨r, spells⟩
  exact not_spells_append_break "$vars.kept.text" r spells

end StateRef
end Flowgraph
