import Flowgraph.Proofs.Sequencing
import Flowgraph.Text.Slug
import Mathlib.Data.List.DropRight

/-!
# Trimmed texts and replaced runs

A text that is trimmed loses the members of a class at its two ends, whichever end comes first,
and nothing between them. A text whose runs are replaced has only characters that are kept and
the mark, and it begins as it did as far as characters are kept.
-/
namespace Flowgraph.Text

variable {p q keep : Char → Bool} {mark c : Char} {s t : List Char}

/-! ## Trimmed texts -/

theorem dropWhile_eq_self (head : ∀ c, s.head? = some c → p c = false) : s.dropWhile p = s := by
  cases s with
  | nil => rfl
  | cons c rest => rw [List.dropWhile_cons_of_neg (by simp [head c rfl])]

/-- Where all of a class was trimmed, nothing of a smaller class is left to be. -/
theorem trimBy_trimBy (smaller : ∀ c, p c = true → q c = true) (s : List Char) :
    trimBy p (trimBy q s) = trimBy q s := by
  have other : ∀ c, q c = false → p c = false := by
    intro c hq
    by_contra hp
    rw [smaller c (Bool.of_not_eq_false hp)] at hq
    cases hq
  unfold trimBy
  generalize front : s.dropWhile q = t
  generalize back : t.reverse.dropWhile q = u
  have first : u.reverse.dropWhile p = u.reverse := by
    apply dropWhile_eq_self
    intro c head
    rw [List.head?_reverse] at head
    obtain ⟨cut, whole⟩ := List.dropWhile_suffix (l := t.reverse) q
    rw [back] at whole
    have last : t.reverse.getLast? = some c := by
      rw [← whole, List.getLast?_append, head]
      rfl
    rw [List.getLast?_reverse, ← front] at last
    exact other c (head_dropWhile last)
  have second : u.dropWhile p = u := by
    apply dropWhile_eq_self
    intro c head
    rw [← back] at head
    exact other c (head_dropWhile head)
  rw [first, List.reverse_reverse, second]

theorem rdropWhile_append (s t : List Char) : (s ++ t).rdropWhile p =
    if t.rdropWhile p = [] then s.rdropWhile p else s ++ t.rdropWhile p := by
  simp only [List.rdropWhile, List.reverse_append, List.dropWhile_append, List.reverse_eq_nil_iff,
    List.isEmpty_iff]
  split <;> simp

theorem rdropWhile_cons (c : Char) (s : List Char) : (c :: s).rdropWhile p =
    if s.rdropWhile p = [] then if p c then [] else [c] else c :: s.rdropWhile p := by
  rw [← List.singleton_append, rdropWhile_append, List.rdropWhile_singleton, List.singleton_append]

/-- The end may be trimmed before the beginning. -/
theorem trimBy_eq (p : Char → Bool) (s : List Char) :
    trimBy p s = (s.rdropWhile p).dropWhile p := by
  change (s.dropWhile p).rdropWhile p = _
  induction s with
  | nil => rfl
  | cons c s ih =>
    by_cases here : p c = true
    · rw [List.dropWhile_cons_of_pos here, ih, rdropWhile_cons, if_pos here]
      split
      · rename_i none
        rw [none]
      · rw [List.dropWhile_cons_of_pos here]
    · rw [List.dropWhile_cons_of_neg here, rdropWhile_cons, if_neg here]
      split <;> rw [List.dropWhile_cons_of_neg here]

theorem mem_of_mem_trimBy (member : c ∈ trimBy p s) : c ∈ s := by
  have inner : c ∈ s.dropWhile p := (List.rdropWhile_prefix p (s.dropWhile p)).subset member
  exact List.dropWhile_subset p inner

/-! ## Replaced runs -/

theorem replaceRuns_cons_kept (kept : keep c = true) (s : List Char) :
    replaceRuns keep mark (c :: s) = c :: replaceRuns keep mark s := by
  cases s <;> simp [replaceRuns, kept]

theorem replaceRuns_singleton (dropped : keep c = false) :
    replaceRuns keep mark [c] = [mark] := by
  simp [replaceRuns, dropped]

/-- A run becomes its mark where it ends. -/
theorem replaceRuns_cons_dropped (dropped : keep c = false) (d : Char) (s : List Char) :
    replaceRuns keep mark (c :: d :: s) =
      if keep d then mark :: replaceRuns keep mark (d :: s)
      else replaceRuns keep mark (d :: s) := by
  rw [replaceRuns, if_neg (by simp [dropped])]

theorem replaceRuns_append_kept (kept : ∀ c ∈ s, keep c = true) (t : List Char) :
    replaceRuns keep mark (s ++ t) = s ++ replaceRuns keep mark t := by
  induction s with
  | nil => rfl
  | cons c s ih =>
    obtain ⟨first, others⟩ := List.forall_mem_cons.mp kept
    rw [List.cons_append, replaceRuns_cons_kept first, ih others, List.cons_append]

theorem replaceRuns_eq_self (kept : ∀ c ∈ s, keep c = true) : replaceRuns keep mark s = s := by
  have whole : replaceRuns keep mark (s ++ []) = s ++ replaceRuns keep mark [] :=
    replaceRuns_append_kept kept []
  rwa [List.append_nil, replaceRuns, List.append_nil] at whole

theorem mem_replaceRuns (member : c ∈ replaceRuns keep mark s) : keep c = true ∨ c = mark := by
  induction s with
  | nil => exact False.elim (List.not_mem_nil member)
  | cons d s ih =>
    by_cases kept : keep d = true
    · rw [replaceRuns_cons_kept kept] at member
      rcases List.mem_cons.mp member with rfl | member
      · exact .inl kept
      · exact ih member
    · have dropped : keep d = false := by simpa using kept
      cases s with
      | nil =>
        rw [replaceRuns_singleton dropped] at member
        exact .inr (List.mem_singleton.mp member)
      | cons e s =>
        rw [replaceRuns_cons_dropped dropped] at member
        split at member
        · exact (List.mem_cons.mp member).elim .inr ih
        · exact ih member

end Flowgraph.Text
