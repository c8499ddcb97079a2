import Flowgraph.Proofs.State.RefGrammar

/-!
# State references as texts

Where a text is well-formed as a reference, it begins with a dollar sign and can be read as
one. The text of a reference tells its namespace before the first dot and its path after it.
-/
namespace Flowgraph

namespace StateRef

/-- Parts with a dot behind each are the parts joined by dots, with one more dot at the end. -/
theorem flatMap_dot_behind {parts : List (List Char)} (some : parts ≠ []) :
    parts.flatMap (· ++ ['.']) = ['.'].intercalate parts ++ ['.'] := by
  induction parts with
  | nil => exact absurd rfl some
  | cons part rest ih =>
    cases rest with
    | nil => simp
    | cons next rest =>
      rw [List.flatMap_cons, ih (List.cons_ne_nil next rest), List.intercalate_cons_cons]
      simp

/-- The parts, each with a dot behind it, are the text with a dot behind it. -/
theorem flatMap_splitOn (s : List Char) :
    (s.splitOn '.').flatMap (· ++ ['.']) = s ++ ['.'] := by
  rw [flatMap_dot_behind (List.splitOn_ne_nil '.' s), List.intercalate_splitOn]

/-! ## Reading -/

theorem exists_read_of_isRef {v : Json} (h : isRef v = true) : ∃ r, read v = .ok r := by
  cases v with
  | str s =>
    obtain ⟨r, names⟩ := exists_names_of_isWellFormed h
    exact ⟨r, read_eq_ok_iff.mpr ⟨s, rfl, names⟩⟩
  | null | bool | int | float | arr | obj => cases h

theorem isRef_of_read {v : Json} {r : StateRef} (h : read v = .ok r) : isRef v = true := by
  obtain ⟨s, rfl, names⟩ := read_eq_ok_iff.mp h
  exact isWellFormed_of_parse? (parse?_of_names names)

/-- A reference that is read has a segment. -/
theorem path_ne_nil_of_read {v : Json} {r : StateRef} (h : read v = .ok r) : r.path ≠ [] := by
  obtain ⟨_, _, names⟩ := read_eq_ok_iff.mp h
  exact names.segments.1

/-- A well-formed text is read in the namespace that is named before its first dot. -/
theorem parse?_of_space {space : Namespace} {rest : String}
    (formed : isWellFormed (space.name ++ "." ++ rest) = true) :
    parse? (space.name ++ "." ++ rest) =
      some ⟨space, (rest.toList.splitOn '.').map String.ofList⟩ := by
  have named : space.name.toList.splitOn '.' = [space.name.toList] := by cases space <;> rfl
  have whole : (space.name ++ "." ++ rest).toList = space.name.toList ++ '.' :: rest.toList := by
    simp
  rw [parse?, if_pos formed, whole, List.splitOn_append_cons_self, named, List.singleton_append,
    List.map_cons, String.ofList_toList]
  simp only [space.ofName?_name, Option.map_some]

theorem read_of_space {space : Namespace} {rest : String}
    (formed : isRef (.str (space.name ++ "." ++ rest)) = true) :
    read (.str (space.name ++ "." ++ rest)) =
      .ok ⟨space, (rest.toList.splitOn '.').map String.ofList⟩ := by
  simp only [read, parse?_of_space formed]

theorem Spells.dollar {s : String} {r : StateRef} (h : Spells s r) :
    ∃ rest, s.toList = '$' :: rest := by
  obtain ⟨_, _, rfl⟩ := h
  rw [toList_spelling]
  cases r.space <;> exact ⟨_, rfl⟩

theorem dollar_of_isWellFormed {s : String} (h : isWellFormed s = true) :
    ∃ rest, s.toList = '$' :: rest := by
  rcases isWellFormed_iff.mp h with ⟨r, spells⟩ | ⟨t, r, spells, rfl⟩
  · exact spells.dollar
  · obtain ⟨rest, begins⟩ := spells.dollar
    exact ⟨rest ++ ['\n'], by rw [String.toList_append, begins]; rfl⟩

end StateRef
end Flowgraph
