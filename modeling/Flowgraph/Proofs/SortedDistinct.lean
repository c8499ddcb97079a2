import Flowgraph.Rejection
import Mathlib.Data.String.Basic

/-!
# Texts in order, each once

A list of texts is sorted, and what is repeated in it is dropped. The result has the members
of the list, in strictly ascending order. An ascending list is fixed by its members, so
nothing more need be said of it.
-/
namespace Flowgraph

/-- A sort by a total and transitive relation puts a list in order. -/
theorem pairwise_mergeSort_of_total {α : Type} {r : α → α → Prop} [DecidableRel r]
    (trans : ∀ a b c, r a b → r b c → r a c) (total : ∀ a b, r a b ∨ r b a) (l : List α) :
    (l.mergeSort fun a b => decide (r a b)).Pairwise r := by
  refine (List.pairwise_mergeSort ?_ ?_ l).imp of_decide_eq_true
  · intro a b c hab hbc
    simp only [decide_eq_true_eq] at hab hbc ⊢
    exact trans a b c hab hbc
  · intro a b
    simpa using total a b

theorem pairwise_eraseDups {α : Type} [BEq α] [LawfulBEq α] {R : α → α → Prop} (l : List α)
    (h : l.Pairwise R) : l.eraseDups.Pairwise fun a b => R a b ∧ a ≠ b := by
  cases l with
  | nil => exact List.Pairwise.nil
  | cons a rest =>
    obtain ⟨first, later⟩ := List.pairwise_cons.mp h
    rw [List.eraseDups_cons]
    refine List.pairwise_cons.mpr ⟨?_, pairwise_eraseDups _ (later.filter _)⟩
    intro b hb
    obtain ⟨member, other⟩ := List.mem_filter.mp (List.mem_eraseDups.mp hb)
    exact ⟨first b member, fun same => by simp [same] at other⟩
termination_by l.length
decreasing_by
  subst l
  exact Nat.lt_succ_of_le (List.length_filter_le _ rest)

theorem mem_sortedDistinct (texts : List String) (t : String) :
    t ∈ sortedDistinct texts ↔ t ∈ texts := by
  rw [sortedDistinct, List.mem_eraseDups, List.mem_mergeSort]

theorem sortedDistinct_ascending (texts : List String) :
    (sortedDistinct texts).Pairwise (· < ·) := by
  have sorted : (texts.mergeSort (· ≤ ·)).Pairwise (· ≤ ·) :=
    pairwise_mergeSort_of_total (r := (· ≤ ·)) (fun _ _ _ => le_trans) le_total texts
  refine (pairwise_eraseDups _ sorted).imp ?_
  rintro a b ⟨hle, hne⟩
  exact lt_of_le_of_ne hle hne

end Flowgraph
