import Mathlib.Data.List.Basic

/-!
# The parts of a text

A text is split at the occurrences of a character. Texts that were joined with this character
are the parts again where none of them has it.
-/
namespace Flowgraph.Text

/-- The parts of a text between the occurrences of a character. -/
def parts (c : Char) (s : String) : List String :=
  (s.toList.splitOn c).map String.ofList

variable {c d : Char} {s sep part : String}

/-- A part has characters of the text only, and not the one that separates. -/
theorem mem_of_mem_splitOn {l chars : List Char} (member : chars ∈ l.splitOn c)
    (inside : d ∈ chars) : d ≠ c ∧ d ∈ l := by
  induction l generalizing chars with
  | nil =>
    rw [List.splitOn_nil, List.mem_singleton] at member
    exact False.elim (List.not_mem_nil (member ▸ inside))
  | cons e l ih =>
    rw [List.splitOn_cons_eq_if_modifyHead] at member
    by_cases here : e = c
    · rw [if_pos (beq_iff_eq.mpr here)] at member
      rcases List.mem_cons.mp member with rfl | member
      · exact False.elim (List.not_mem_nil inside)
      · exact (ih member inside).imp_right (List.mem_cons_of_mem e)
    · rw [if_neg (by simpa using here)] at member
      obtain ⟨first, others, split⟩ := List.exists_cons_of_ne_nil (List.splitOn_ne_nil c l)
      rw [split] at ih
      rw [split, List.modifyHead_cons] at member
      rcases List.mem_cons.mp member with rfl | member
      · rcases List.mem_cons.mp inside with rfl | inside
        · exact ⟨here, List.mem_cons_self⟩
        · exact (ih List.mem_cons_self inside).imp_right (List.mem_cons_of_mem e)
      · exact (ih (List.mem_cons_of_mem first member) inside).imp_right (List.mem_cons_of_mem e)

theorem mem_of_mem_parts (member : part ∈ parts c s) (inside : d ∈ part.toList) :
    d ≠ c ∧ d ∈ s.toList := by
  obtain ⟨chars, listed, rfl⟩ := List.mem_map.mp member
  rw [String.toList_ofList] at inside
  exact mem_of_mem_splitOn listed inside

theorem not_mem_of_mem_parts (member : part ∈ parts c s) : c ∉ part.toList :=
  fun inside => (mem_of_mem_parts member inside).1 rfl

theorem parts_eq_singleton (plain : c ∉ s.toList) : parts c s = [s] := by
  rw [parts, List.splitOn_eq_singleton plain, List.map_singleton, String.ofList_toList]

/-- Of joined texts each is split for itself. -/
theorem parts_intercalate_cons (single : sep.toList = [c]) (a b : String) (rest : List String) :
    parts c (sep.intercalate (a :: b :: rest)) =
      parts c a ++ parts c (sep.intercalate (b :: rest)) := by
  rw [parts, String.intercalate_cons_cons, String.toList_append, String.toList_append, single,
    List.append_assoc, List.singleton_append, List.splitOn_append_cons_self, List.map_append]
  rfl

/-- What was joined is split again where no part has the separator. -/
theorem parts_intercalate (single : sep.toList = [c]) {texts : List String}
    (nonempty : texts ≠ []) (plain : ∀ t ∈ texts, c ∉ t.toList) :
    parts c (sep.intercalate texts) = texts := by
  have apart : ∀ l ∈ texts.map String.toList, c ∉ l := List.forall_mem_map.mpr plain
  rw [parts, String.toList_intercalate, single, List.splitOn_intercalate c apart (by simpa),
    List.map_map]
  exact (List.map_congr_left fun t _ => String.ofList_toList).trans texts.map_id

theorem mem_intercalate {texts : List String} (inside : d ∈ (sep.intercalate texts).toList) :
    d ∈ sep.toList ∨ ∃ t ∈ texts, d ∈ t.toList := by
  induction texts with
  | nil => exact False.elim (List.not_mem_nil inside)
  | cons a rest ih =>
    cases rest with
    | nil => exact .inr ⟨a, List.mem_cons_self, inside⟩
    | cons b rest =>
      rw [String.intercalate_cons_cons, String.toList_append, String.toList_append,
        List.mem_append, List.mem_append] at inside
      rcases inside with (inside | inside) | inside
      · exact .inr ⟨a, List.mem_cons_self, inside⟩
      · exact .inl inside
      · refine (ih inside).imp_right ?_
        rintro ⟨t, member, inside⟩
        exact ⟨t, List.mem_cons_of_mem a member, inside⟩

end Flowgraph.Text
