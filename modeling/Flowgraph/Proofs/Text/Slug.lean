import Flowgraph.Proofs.Text.Runs

/-!
# Slugs

Groups of lower-case letters and digits with single hyphens between them. What a name is made
into is a slug, whatever its letters become in lower case, or it has nothing to keep and a
fallback stands for it. A slug is its own slug.
-/
namespace Flowgraph.Text

/-- Lower-case ASCII letters and digits, at least one. -/
def IsGroup (s : List Char) : Prop :=
  s ≠ [] ∧ ∀ c ∈ s, 'a' ≤ c ∧ c ≤ 'z' ∨ '0' ≤ c ∧ c ≤ '9'

/-- One or more groups, joined by single hyphens. -/
inductive IsSlug : List Char → Prop
  | group {s : List Char} (plain : IsGroup s) : IsSlug s
  | joined {s rest : List Char} (plain : IsGroup s) (more : IsSlug rest) :
      IsSlug (s ++ '-' :: rest)

variable {c : Char} {s : List Char}

/-! ## Characters -/

theorem isSlugChar_iff (c : Char) :
    isSlugChar c = true ↔ 'a' ≤ c ∧ c ≤ 'z' ∨ '0' ≤ c ∧ c ≤ '9' := by
  have ranges : isSlugChar c = (('a' ≤ c && c ≤ 'z') || ('0' ≤ c && c ≤ '9')) := rfl
  simp [ranges]

theorem not_isSlugChar_hyphen : isSlugChar '-' = false := by decide

theorem ne_hyphen (letter : isSlugChar c = true) : ¬(c == '-') = true := by
  intro hyphen
  rw [eq_of_beq hyphen, not_isSlugChar_hyphen] at letter
  cases letter

/-- What a slug is made of has no other lower case. -/
theorem lowerChar_eq_self (plain : isSlugChar c = true ∨ c = '-') :
    c.toNat ≠ 304 ∧ lowerChar c = c := by
  have small : c.toNat < 128 ∧ ¬(c.val ≥ 'A'.val ∧ c.val ≤ 'Z'.val) := by
    rcases plain with letter | rfl
    · rw [isSlugChar_iff] at letter
      simp only [Char.le_def, UInt32.le_iff_toNat_le, ge_iff_le] at letter ⊢
      change (97 ≤ c.toNat ∧ c.toNat ≤ 122) ∨ (48 ≤ c.toNat ∧ c.toNat ≤ 57) at letter
      change c.toNat < 128 ∧ ¬(65 ≤ c.toNat ∧ c.toNat ≤ 90)
      omega
    · decide
  constructor
  · omega
  · rw [lowerChar, if_pos small.1]
    exact dif_neg small.2

theorem lower_eq_self (plain : ∀ c ∈ s, isSlugChar c = true ∨ c = '-') : lower s = s := by
  induction s with
  | nil => rfl
  | cons c s ih =>
    obtain ⟨first, others⟩ := List.forall_mem_cons.mp plain
    obtain ⟨undotted, same⟩ := lowerChar_eq_self first
    have own : lower (c :: s) = lowerChar c :: lower s := by
      simp [lower, undotted]
    rw [own, same, ih others]

/-! ## Slugs -/

theorem isGroup_iff (s : List Char) : IsGroup s ↔ s ≠ [] ∧ ∀ c ∈ s, isSlugChar c = true := by
  simp only [IsGroup, isSlugChar_iff]

theorem isSlug_of_all (some : s ≠ []) (plain : s.all isSlugChar = true) : IsSlug s :=
  .group ((isGroup_iff _).mpr ⟨some, List.all_eq_true.mp plain⟩)

namespace IsSlug

theorem single (letter : isSlugChar c = true) : IsSlug [c] :=
  .group ((isGroup_iff _).mpr ⟨by simp, by simpa using letter⟩)

theorem cons (letter : isSlugChar c = true) (slug : IsSlug s) : IsSlug (c :: s) := by
  have longer {g : List Char} (plain : IsGroup g) : IsGroup (c :: g) := by
    rw [isGroup_iff] at plain ⊢
    exact ⟨by simp, List.forall_mem_cons.mpr ⟨letter, plain.2⟩⟩
  cases slug with
  | group plain => exact .group (longer plain)
  | joined plain more => exact .joined (longer plain) more

theorem hyphen (letter : isSlugChar c = true) (slug : IsSlug s) : IsSlug (c :: '-' :: s) :=
  .joined (s := [c]) ((isGroup_iff _).mpr ⟨by simp, by simpa using letter⟩) slug

theorem head (slug : IsSlug s) : ∃ c rest, s = c :: rest ∧ isSlugChar c = true := by
  have first {g : List Char} (plain : IsGroup g) :
      ∃ c rest, g = c :: rest ∧ isSlugChar c = true := by
    rw [isGroup_iff] at plain
    obtain ⟨c, rest, rfl⟩ := List.exists_cons_of_ne_nil plain.1
    exact ⟨c, rest, rfl, plain.2 c List.mem_cons_self⟩
  cases slug with
  | group plain => exact first plain
  | joined plain more =>
    obtain ⟨c, rest, rfl, letter⟩ := first plain
    exact ⟨c, rest ++ '-' :: _, rfl, letter⟩

theorem chars (slug : IsSlug s) : ∀ c ∈ s, isSlugChar c = true ∨ c = '-' := by
  induction slug with
  | group plain => exact fun c member => .inl (((isGroup_iff _).mp plain).2 c member)
  | joined plain _ ih =>
    intro c member
    rcases List.mem_append.mp member with member | member
    · exact .inl (((isGroup_iff _).mp plain).2 c member)
    · rcases List.mem_cons.mp member with rfl | member
      · exact .inr rfl
      · exact ih c member

theorem replaceRuns (slug : IsSlug s) : replaceRuns isSlugChar '-' s = s := by
  induction slug with
  | group plain => exact replaceRuns_eq_self ((isGroup_iff _).mp plain).2
  | joined plain more ih =>
    obtain ⟨c, rest, rfl, letter⟩ := more.head
    rw [replaceRuns_append_kept ((isGroup_iff _).mp plain).2,
      replaceRuns_cons_dropped not_isSlugChar_hyphen, if_pos letter, ih]

theorem rdropWhile (slug : IsSlug s) : s.rdropWhile (· == '-') = s := by
  induction slug with
  | group plain =>
    apply List.rdropWhile_eq_self_iff.mpr
    intro some
    exact ne_hyphen (((isGroup_iff _).mp plain).2 _ (List.getLast_mem some))
  | joined plain more ih =>
    obtain ⟨c, rest, rfl, letter⟩ := more.head
    rw [rdropWhile_append, rdropWhile_cons, ih, if_neg (List.cons_ne_nil c rest),
      if_neg (List.cons_ne_nil '-' _)]

theorem dropWhile (slug : IsSlug s) : s.dropWhile (· == '-') = s := by
  obtain ⟨c, rest, rfl, letter⟩ := slug.head
  exact List.dropWhile_cons_of_neg (ne_hyphen letter)

end IsSlug

/-! ## The slug of a name -/

theorem slugChars_of_isSlug (slug : IsSlug s) : slugChars s = s := by
  rw [slugChars, lower_eq_self slug.chars, slug.replaceRuns, trimBy_eq, slug.rdropWhile,
    slug.dropWhile]

/-- What is left of a text with its runs replaced, when its end is trimmed: nothing, a slug, or
a slug behind the mark of a first run. -/
def Trailed (s : List Char) : Prop :=
  s = [] ∨ IsSlug s ∨ ∃ rest, s = '-' :: rest ∧ IsSlug rest

theorem Trailed.cons (letter : isSlugChar c = true) (trailed : Trailed s) : IsSlug (c :: s) := by
  rcases trailed with rfl | slug | ⟨rest, rfl, slug⟩
  · exact .single letter
  · exact slug.cons letter
  · exact slug.hyphen letter

/-- A slug behind a first mark has the mark at its head. -/
theorem Trailed.slug (letter : isSlugChar c = true) (trailed : Trailed (c :: s)) :
    IsSlug (c :: s) := by
  rcases trailed with none | slug | ⟨rest, behind, -⟩
  · cases none
  · exact slug
  · obtain ⟨rfl, -⟩ := List.cons.inj behind
    cases letter

theorem trailed_replaceRuns (s : List Char) :
    Trailed ((replaceRuns isSlugChar '-' s).rdropWhile (· == '-')) := by
  induction s with
  | nil => exact .inl rfl
  | cons c s ih =>
    by_cases letter : isSlugChar c = true
    · have slug := ih.cons letter
      rw [replaceRuns_cons_kept letter, rdropWhile_cons, if_neg (ne_hyphen letter)]
      split
      · rename_i none
        rw [none] at slug
        exact .inr (.inl slug)
      · exact .inr (.inl slug)
    · have dropped : isSlugChar c = false := by simpa using letter
      cases s with
      | nil =>
        rw [replaceRuns_singleton dropped]
        exact .inl rfl
      | cons d s =>
        rw [replaceRuns_cons_dropped dropped]
        split
        · rename_i next
          -- what stands behind the mark begins with a letter, so it is a slug
          obtain ⟨rest, begins⟩ : ∃ rest,
              (replaceRuns isSlugChar '-' (d :: s)).rdropWhile (· == '-') = d :: rest := by
            rw [replaceRuns_cons_kept next, rdropWhile_cons, if_neg (ne_hyphen next)]
            split <;> exact ⟨_, rfl⟩
          rw [begins] at ih
          rw [rdropWhile_cons, begins, if_neg (List.cons_ne_nil d rest)]
          exact .inr (.inr ⟨_, rfl, ih.slug next⟩)
        · exact ih

theorem slugChars_cases (s : List Char) : slugChars s = [] ∨ IsSlug (slugChars s) := by
  rw [slugChars, trimBy_eq]
  rcases trailed_replaceRuns (lower s) with none | slug | ⟨rest, behind, slug⟩
  · rw [none]
    exact .inl rfl
  · rw [slug.dropWhile]
    exact .inr slug
  · rw [behind, List.dropWhile_cons_of_pos (by rfl), slug.dropWhile]
    exact .inr slug

theorem slugify_eq (name fallback : String) : slugify name fallback =
    if slugChars name.toList = [] then fallback else String.ofList (slugChars name.toList) := by
  unfold slugify
  split
  · rename_i none
    rw [if_pos none]
  · rename_i some
    rw [if_neg some]

theorem isSlug_slugify (name : String) {fallback : String} (slug : IsSlug fallback.toList) :
    IsSlug (slugify name fallback).toList := by
  rw [slugify_eq]
  split
  · exact slug
  · rename_i some
    rw [String.toList_ofList]
    exact (slugChars_cases name.toList).resolve_left some

theorem slugify_of_isSlug {name : String} (slug : IsSlug name.toList) (fallback : String) :
    slugify name fallback = name := by
  rw [slugify_eq, slugChars_of_isSlug slug, if_neg, String.ofList_toList]
  obtain ⟨c, rest, same, -⟩ := slug.head
  rw [same]
  exact List.cons_ne_nil c rest

end Flowgraph.Text
