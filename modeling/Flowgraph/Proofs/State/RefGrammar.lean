import Flowgraph.State.Ref
import Mathlib.Data.List.Basic

/-!
# The grammar of state references

A reference is the name of a namespace with one or more segments behind it, each a dot and at
least one ASCII letter, digit, underscore or hyphen. These texts are read as what they spell.
One more kind of text is read: a reference with a line break behind it, where the line break
counts to the last segment. No other text is.
-/
namespace Flowgraph

theorem Namespace.ofName?_name (space : Namespace) : ofName? space.name = some space := by
  cases space <;> rfl

namespace StateRef

/-- ASCII letters and digits, underscores and hyphens. -/
def IsNameChar (c : Char) : Prop :=
  'A' ≤ c ∧ c ≤ 'Z' ∨ 'a' ≤ c ∧ c ≤ 'z' ∨ '0' ≤ c ∧ c ≤ '9' ∨ c = '_' ∨ c = '-'

def IsName (t : String) : Prop :=
  t ≠ "" ∧ ∀ c ∈ t.toList, IsNameChar c

/-- The name of a namespace and the segments, a dot before each. -/
def spelling (r : StateRef) : String :=
  r.space.name ++ String.join (r.path.map ("." ++ ·))

/-- The grammar: at least one segment, and each of them a name. -/
def Spells (s : String) (r : StateRef) : Prop :=
  r.path ≠ [] ∧ (∀ t ∈ r.path, IsName t) ∧ s = r.spelling

/-- The texts that are read, and what they are read as. -/
inductive Names : String → StateRef → Prop
  | spelled {s : String} {r : StateRef} (spells : Spells s r) : Names s r
  | broken {s : String} {space : Namespace} {path : List String} {last : String}
      (spells : Spells s ⟨space, path ++ [last]⟩) :
      Names (s ++ "\n") ⟨space, path ++ [last ++ "\n"]⟩

/-! ## Characters -/

theorem isSegmentChar_iff (c : Char) : isSegmentChar c = true ↔ IsNameChar c := by
  have ranges : isSegmentChar c = (decide ('A' ≤ c ∧ c ≤ 'Z') || ('a' ≤ c && c ≤ 'z') ||
      ('0' ≤ c && c ≤ '9') || c == '_' || c == '-') := rfl
  simp only [ranges, Bool.or_eq_true, Bool.and_eq_true, decide_eq_true_eq, beq_iff_eq,
    IsNameChar, or_assoc]

theorem isSegment_iff (t : String) : isSegment t.toList = true ↔ IsName t := by
  simp [isSegment, IsName, isSegmentChar_iff]

theorem IsName.dot_not_mem {t : String} (h : IsName t) : '.' ∉ t.toList := by
  intro member
  have char := (isSegmentChar_iff '.').mpr (h.2 '.' member)
  revert char
  decide

theorem IsName.break_not_mem {t : String} (h : IsName t) : '\n' ∉ t.toList := by
  intro member
  have char := (isSegmentChar_iff '\n').mpr (h.2 '\n' member)
  revert char
  decide

/-! ## Parts behind dots -/

/-- Dots between the parts are dots before all parts but the first. -/
theorem intercalate_dot (first : String) (parts : List String) :
    ".".intercalate (first :: parts) = first ++ String.join (parts.map ("." ++ ·)) := by
  induction parts generalizing first with
  | nil => simp
  | cons part parts ih =>
    rw [String.intercalate_cons_cons, ih, List.map_cons, String.join_cons, String.append_assoc,
      String.append_assoc]

theorem toList_spelling (r : StateRef) : r.spelling.toList =
    r.space.name.toList ++ (r.path.map String.toList).flatMap ('.' :: ·) := by
  simp [spelling, String.toList_join, List.flatMap_map]

theorem toList_spelling_joined (r : StateRef) : r.spelling.toList =
    ['.'].intercalate (r.space.name.toList :: r.path.map String.toList) := by
  rw [spelling, ← intercalate_dot, String.toList_intercalate]
  rfl

/-- What is spelled is split where it should be, whatever other characters than dots there are. -/
theorem splitOn_spelling {r : StateRef} (dots : ∀ t ∈ r.path, '.' ∉ t.toList) :
    r.spelling.toList.splitOn '.' = r.space.name.toList :: r.path.map String.toList := by
  rw [toList_spelling_joined]
  have named : '.' ∉ r.space.name.toList := by cases r.space <;> decide
  exact List.splitOn_intercalate '.'
    (List.forall_mem_cons.mpr ⟨named, List.forall_mem_map.mpr dots⟩) (List.cons_ne_nil _ _)

theorem Spells.splitOn {s : String} {r : StateRef} (h : Spells s r) :
    s.toList.splitOn '.' = r.space.name.toList :: r.path.map String.toList := by
  obtain ⟨_, names, rfl⟩ := h
  exact splitOn_spelling fun t ht => (names t ht).dot_not_mem

/-! ## Final line breaks -/

theorem Spells.break_not_mem {s : String} {r : StateRef} (h : Spells s r) : '\n' ∉ s.toList := by
  obtain ⟨_, names, rfl⟩ := h
  rw [toList_spelling, List.mem_append, List.mem_flatMap]
  rintro (first | ⟨part, member, inside⟩)
  · revert first
    cases r.space <;> decide
  · obtain ⟨t, ht, rfl⟩ := List.mem_map.mp member
    rcases List.mem_cons.mp inside with dot | inside
    · cases dot
    · exact (names t ht).break_not_mem inside

/-- A text with a line break behind it is none of the grammar. -/
theorem not_spells_append_break (t : String) (r : StateRef) : ¬Spells (t ++ "\n") r :=
  fun spells => spells.break_not_mem (by simp)

theorem dropFinalBreak_of_not_mem {s : List Char} (h : '\n' ∉ s) : dropFinalBreak s = s := by
  refine if_neg fun final => h ?_
  exact List.mem_of_getLast? (by simpa using final)

theorem dropFinalBreak_append_break (s : List Char) : dropFinalBreak (s ++ ['\n']) = s := by
  simp [dropFinalBreak]

theorem dropFinalBreak_cases (s : List Char) :
    s = dropFinalBreak s ∨ s = dropFinalBreak s ++ ['\n'] := by
  unfold dropFinalBreak
  split
  · rename_i final
    exact .inr (List.dropLast_append_getLast? _ (by simpa using final)).symm
  · exact .inl rfl

/-! ## Reading -/

theorem isWellFormed_of_spells {s t : String} {r : StateRef} (h : Spells t r)
    (final : dropFinalBreak s.toList = t.toList) : isWellFormed s = true := by
  obtain ⟨segment, rest, some⟩ := List.exists_cons_of_ne_nil h.1
  have segments : ∀ part ∈ r.path.map String.toList, isSegment part = true :=
    List.forall_mem_map.mpr fun t ht => (isSegment_iff t).mpr (h.2.1 t ht)
  rw [some] at segments
  rw [isWellFormed, final, h.splitOn, some]
  simp only [List.map_cons, String.ofList_toList, Namespace.ofName?_name, Option.isSome_some,
    Bool.true_and, List.all_eq_true]
  exact segments

/-- Without the final line break, a well-formed text is one of the grammar. -/
theorem exists_spells_of_isWellFormed {s : String} (h : isWellFormed s = true) :
    ∃ r, Spells (String.ofList (dropFinalBreak s.toList)) r := by
  unfold isWellFormed at h
  split at h
  · rename_i name segment rest parts
    obtain ⟨known, segments⟩ := Bool.and_eq_true_iff.mp h
    obtain ⟨space, named⟩ := Option.isSome_iff_exists.mp known
    have same : space.name = String.ofList name := by simpa using List.find?_some named
    refine ⟨⟨space, (segment :: rest).map String.ofList⟩, by simp, ?_, ?_⟩
    · refine List.forall_mem_map.mpr fun part member => (isSegment_iff _).mp ?_
      rw [String.toList_ofList]
      exact List.all_eq_true.mp segments part member
    · have joined : ['.'].intercalate (name :: segment :: rest) = dropFinalBreak s.toList := by
        rw [← parts, List.intercalate_splitOn]
      apply String.toList_injective
      rw [toList_spelling_joined, String.toList_ofList, ← joined, same, String.toList_ofList,
        List.map_map]
      simp [Function.comp_def]
  · cases h

theorem parse?_spelling {r : StateRef} (dots : ∀ t ∈ r.path, '.' ∉ t.toList)
    (formed : isWellFormed r.spelling = true) : parse? r.spelling = some r := by
  have back : (r.path.map String.toList).map String.ofList = r.path := by
    simp [Function.comp_def]
  rw [parse?, if_pos formed, splitOn_spelling dots, List.map_cons, String.ofList_toList, back]
  simp only [Namespace.ofName?_name, Option.map_some]

theorem spelling_append_break (space : Namespace) (path : List String) (last : String) :
    spelling ⟨space, path ++ [last]⟩ ++ "\n" = spelling ⟨space, path ++ [last ++ "\n"]⟩ := by
  simp [spelling, String.append_assoc]

theorem parse?_of_names {s : String} {r : StateRef} (h : Names s r) : parse? s = some r := by
  cases h with
  | spelled spells =>
    have formed : isWellFormed s = true :=
      isWellFormed_of_spells spells (dropFinalBreak_of_not_mem spells.break_not_mem)
    obtain ⟨_, names, rfl⟩ := spells
    exact parse?_spelling (fun t ht => (names t ht).dot_not_mem) formed
  | @broken s space path last spells =>
    have formed : isWellFormed (s ++ "\n") = true := by
      refine isWellFormed_of_spells spells ?_
      rw [String.toList_append]
      exact dropFinalBreak_append_break s.toList
    obtain ⟨_, names, rfl⟩ := spells
    rw [spelling_append_break] at formed ⊢
    refine parse?_spelling ?_ formed
    rw [List.forall_mem_append, List.forall_mem_singleton, String.toList_append]
    rw [List.forall_mem_append, List.forall_mem_singleton] at names
    refine ⟨fun t ht => (names.1 t ht).dot_not_mem, fun member => ?_⟩
    rcases List.mem_append.mp member with inside | final
    · exact names.2.dot_not_mem inside
    · revert final
      decide

theorem exists_names_of_isWellFormed {s : String} (h : isWellFormed s = true) :
    ∃ r, Names s r := by
  obtain ⟨r, spells⟩ := exists_spells_of_isWellFormed h
  rcases dropFinalBreak_cases s.toList with plain | final
  · rw [← plain, String.ofList_toList] at spells
    exact ⟨r, .spelled spells⟩
  · obtain ⟨space, segments⟩ := r
    obtain ⟨path, last, rfl⟩ := (List.eq_nil_or_concat' segments).resolve_left spells.1
    refine ⟨⟨space, path ++ [last ++ "\n"]⟩, ?_⟩
    have whole : s = String.ofList (dropFinalBreak s.toList) ++ "\n" := by
      apply String.toList_injective
      rw [String.toList_append, String.toList_ofList]
      exact final
    rw [whole]
    exact .broken spells

theorem isWellFormed_of_parse? {s : String} {r : StateRef} (h : parse? s = some r) :
    isWellFormed s = true := by
  by_contra bad
  have none : parse? s = none := if_neg bad
  rw [none] at h
  cases h

/-- A text is read as what it names, and only if it names something. -/
theorem parse?_eq_some_iff {s : String} {r : StateRef} : parse? s = some r ↔ Names s r := by
  refine ⟨fun h => ?_, parse?_of_names⟩
  obtain ⟨r', names⟩ := exists_names_of_isWellFormed (isWellFormed_of_parse? h)
  obtain rfl := Option.some.inj (h.symm.trans (parse?_of_names names))
  exact names

theorem isWellFormed_iff {s : String} : isWellFormed s = true ↔
    (∃ r, Spells s r) ∨ ∃ t r, Spells t r ∧ s = t ++ "\n" := by
  constructor
  · intro formed
    obtain ⟨r, names⟩ := exists_names_of_isWellFormed formed
    cases names with
    | spelled spells => exact .inl ⟨r, spells⟩
    | broken spells => exact .inr ⟨_, _, spells, rfl⟩
  · rintro (⟨r, spells⟩ | ⟨t, r, spells, rfl⟩)
    · exact isWellFormed_of_parse? (parse?_of_names (.spelled spells))
    · refine isWellFormed_of_spells spells ?_
      rw [String.toList_append]
      exact dropFinalBreak_append_break t.toList

/-- What is named has segments. They are names but where a line break stands at the end. -/
theorem Names.segments {s : String} {r : StateRef} (h : Names s r) :
    r.path ≠ [] ∧ (∀ t ∈ r.path, t ≠ "") ∧
      ((∀ t ∈ r.path, IsName t) ↔ ∀ t, s ≠ t ++ "\n") := by
  cases h with
  | spelled spells =>
    refine ⟨spells.1, fun t ht => (spells.2.1 t ht).1, iff_of_true spells.2.1 ?_⟩
    rintro t rfl
    exact not_spells_append_break t r spells
  | @broken s space path last spells =>
    have names := List.forall_mem_append.mp spells.2.1
    refine ⟨by simp, ?_, iff_of_false (fun all => ?_) fun other => other s rfl⟩
    · rw [List.forall_mem_append, List.forall_mem_singleton]
      exact ⟨fun t ht => (names.1 t ht).1, by simp⟩
    · have final := all (last ++ "\n") (List.mem_append_right _ List.mem_cons_self)
      exact final.break_not_mem (by simp)

/-! ## Values -/

theorem isRef_iff {v : Json} : isRef v = true ↔ ∃ s, v = .str s ∧
    ((∃ r, Spells s r) ∨ ∃ t r, Spells t r ∧ s = t ++ "\n") := by
  cases v with
  | str s =>
    refine isWellFormed_iff.trans ⟨fun formed => ⟨s, rfl, formed⟩, ?_⟩
    rintro ⟨_, same, formed⟩
    obtain rfl := Json.str.inj same
    exact formed
  | null | bool | int | float | arr | obj =>
    refine iff_of_false (fun h => by cases h) ?_
    rintro ⟨_, same, _⟩
    cases same

/-- The grammar decides of every value but a reference with a line break behind it. -/
theorem grammar_decides_iff {v : Json} : (isRef v = true ↔ ∃ s r, v = .str s ∧ Spells s r) ↔
    ¬∃ t r, Spells t r ∧ v = .str (t ++ "\n") := by
  rw [isRef_iff]
  constructor
  · rintro same ⟨t, r, spells, rfl⟩
    obtain ⟨s, r', whole, spells'⟩ := same.mp ⟨_, rfl, .inr ⟨t, r, spells, rfl⟩⟩
    obtain rfl := Json.str.inj whole
    exact not_spells_append_break t r' spells'
  · intro plain
    constructor
    · rintro ⟨s, rfl, ⟨r, spells⟩ | ⟨t, r, spells, rfl⟩⟩
      · exact ⟨s, r, rfl, spells⟩
      · exact False.elim (plain ⟨t, r, spells, rfl⟩)
    · rintro ⟨s, r, rfl, spells⟩
      exact ⟨s, rfl, .inl ⟨r, spells⟩⟩

theorem read_eq_ok_iff {v : Json} {r : StateRef} :
    read v = .ok r ↔ ∃ s, v = .str s ∧ Names s r := by
  cases v with
  | str s =>
    simp only [Json.str.injEq, exists_eq_left', ← parse?_eq_some_iff, read]
    cases parse? s <;> simp
  | null | bool | int | float | arr | obj =>
    refine iff_of_false (fun h => by cases h) ?_
    rintro ⟨_, same, _⟩
    cases same

end StateRef
end Flowgraph
