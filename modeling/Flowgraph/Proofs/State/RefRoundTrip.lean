import Flowgraph.Proofs.State.RefGrammar

/-!
# References written and read

The text of a reference is its namespace and its segments, with dots between them. Where the
segments are names the reference is read back from its text, and a value that is read is the text
of what it is read as. So two values never lead to one place. This includes the texts with a line
break behind them; the places to which texts lead are told here without any text.
-/
namespace Flowgraph.StateRef

/-- The places to which texts lead: the segments are names, but a line break may end the last. -/
inductive Addressed : StateRef → Prop
  | named {space : Namespace} {path : List String} (segments : path ≠ [])
      (names : ∀ t ∈ path, IsName t) : Addressed ⟨space, path⟩
  | broken {space : Namespace} {path : List String} {last : String}
      (names : ∀ t ∈ path ++ [last], IsName t) : Addressed ⟨space, path ++ [last ++ "\n"]⟩

/-- A reference is written as the grammar spells it. -/
theorem write_eq_spelling (r : StateRef) : r.write = r.spelling :=
  intercalate_dot r.space.name r.path

theorem Names.addressed {s : String} {r : StateRef} (h : Names s r) :
    s = r.write ∧ r.Addressed := by
  rw [write_eq_spelling]
  cases h with
  | spelled spells =>
    obtain ⟨segments, names, whole⟩ := spells
    exact ⟨whole, .named segments names⟩
  | broken spells =>
    obtain ⟨_, names, rfl⟩ := spells
    exact ⟨spelling_append_break _ _ _, .broken names⟩

theorem Addressed.names_write {r : StateRef} (h : r.Addressed) : Names r.write r := by
  rw [write_eq_spelling]
  cases h with
  | named segments names => exact .spelled ⟨segments, names, rfl⟩
  | broken names =>
    rw [← spelling_append_break]
    exact .broken ⟨by simp, names, rfl⟩

/-- Reading and writing undo each other on the places to which texts lead. -/
theorem read_eq_ok_iff_write {v : Json} {r : StateRef} :
    read v = .ok r ↔ v = .str r.write ∧ r.Addressed := by
  rw [read_eq_ok_iff]
  constructor
  · rintro ⟨s, rfl, names⟩
    obtain ⟨rfl, addressed⟩ := names.addressed
    exact ⟨rfl, addressed⟩
  · rintro ⟨rfl, addressed⟩
    exact ⟨r.write, rfl, addressed.names_write⟩

/-- A reference with names as segments is read back from its text; what is read is the text of
what it is read as, so that no two values lead to one place; and a place is read from its text
exactly where its segments are names but for a final line break. -/
theorem writing_inverts_reading :
    (∀ r : StateRef, r.path ≠ [] → (∀ t ∈ r.path, IsName t) → read (.str r.write) = .ok r) ∧
    (∀ v r, read v = .ok r → v = .str r.write) ∧
    (∀ v w r, read v = .ok r → read w = .ok r → v = w) ∧
    ∀ r : StateRef, read (.str r.write) = .ok r ↔ r.Addressed := by
  have whole (v : Json) (r : StateRef) (back : read v = .ok r) : v = .str r.write :=
    (read_eq_ok_iff_write.mp back).1
  refine ⟨?_, whole, ?_, fun r => ?_⟩
  · intro r segments names
    exact read_eq_ok_iff_write.mpr ⟨rfl, .named segments names⟩
  · intro v w r first second
    exact (whole v r first).trans (whole w r second).symm
  · exact read_eq_ok_iff_write.trans (and_iff_right rfl)

/-- Digits, hyphens and underscores in names, and a text with a line break behind it. -/
theorem hyphened_path_read_back :
    (∀ t ∈ ["a-b", "_", "7"], IsName t) ∧
    read (.str (write ⟨.input, ["a-b", "_", "7"]⟩)) = .ok ⟨.input, ["a-b", "_", "7"]⟩ ∧
    read (.str "$tmp.last\n") = .ok ⟨.tmp, ["last\n"]⟩ ∧
    Json.str "$tmp.last\n" = .str (write ⟨.tmp, ["last\n"]⟩) ∧
    read (.str "$vars.a.b") = .ok ⟨.vars, ["a", "b"]⟩ ∧
    read (.str (write ⟨.vars, ["a", "b"]⟩)) = .ok ⟨.vars, ["a", "b"]⟩ ∧
    Json.str "$vars.a.b" = .str (write ⟨.vars, ["a", "b"]⟩) := by
  obtain ⟨there, back, same, _⟩ := writing_inverts_reading
  have names : ∀ t ∈ ["a-b", "_", "7"], IsName t := by
    simp only [← isSegment_iff]
    decide
  have broken : read (.str "$tmp.last\n") = .ok ⟨.tmp, ["last\n"]⟩ := by decide
  have drawn : read (.str "$vars.a.b") = .ok ⟨.vars, ["a", "b"]⟩ := by decide
  have written : read (.str (write ⟨.vars, ["a", "b"]⟩)) = .ok ⟨.vars, ["a", "b"]⟩ := by decide
  exact ⟨names, there ⟨.input, ["a-b", "_", "7"]⟩ (by decide) names, broken, back _ _ broken,
    drawn, written, same _ _ _ drawn written⟩

/-- A dot in a segment is read as one between two segments. -/
example : read (.str (write ⟨.ctx, ["a.b"]⟩)) = .ok ⟨.ctx, ["a", "b"]⟩ := by decide

end Flowgraph.StateRef
