import Flowgraph.Proofs.Redaction.Credential

/-!
# What scrubbing replaces

From left to right, wherever a word begins, the longest credential that begins there gives way
to the mark, and the search goes on behind it. This is said by a relation that has one form for
a character that stays and one for a credential that goes; scrubbing is the function that it
describes. A text stays as it is exactly where it holds no credential, so that scrubbing twice is
scrubbing once.
-/
namespace Flowgraph.Credential

/-- A credential at the head of a text that no longer one begins with. -/
structure Longest (found s : List Char) : Prop where
  credential : IsCredential found
  head : List.IsPrefix found s
  greatest : ∀ other, List.IsPrefix other s → IsCredential other → other.length ≤ found.length

/-- A text that follows a character, and what is left of it when its credentials are replaced. -/
inductive Scrubbed : Option Char → List Char → List Char → Prop
  | done (previous : Option Char) : Scrubbed previous [] []
  | kept {previous : Option Char} {c : Char} {s t : List Char}
      (none : ¬(Boundary previous ∧ Begins (c :: s))) (rest : Scrubbed (some c) s t) :
      Scrubbed previous (c :: s) (c :: t)
  | replaced {previous : Option Char} {found s t : List Char} (boundary : Boundary previous)
      (longest : Longest found (found ++ s)) (rest : Scrubbed found.getLast? s t) :
      Scrubbed previous (found ++ s) (mark ++ t)

variable {previous : Option Char} {s t : List Char}

/-- What the search finds at the head of a text is the longest credential there. -/
theorem longest_of_length {n : Nat} (found : length previous s = n + 1) :
    Boundary previous ∧ ∃ credential after, s = credential ++ after ∧
      credential.length = n + 1 ∧ Longest credential s := by
  obtain ⟨boundary, credential, after, split, long, form, -⟩ := length_eq_succ found
  refine ⟨boundary, credential, after, split, long, form, ⟨after, split.symm⟩, ?_⟩
  rintro other ⟨rest, same⟩ otherForm
  rw [long, ← found, ← same]
  exact le_length boundary otherForm rest

theorem Longest.length_eq {found : List Char} (longest : Longest found s)
    (boundary : Boundary previous) : length previous s = found.length := by
  obtain ⟨after, split⟩ := longest.head
  have least : found.length ≤ length previous s := by
    rw [← split]
    exact le_length boundary longest.credential after
  cases same : length previous s with
  | zero =>
    rw [same] at least
    omega
  | succ n =>
    obtain ⟨-, credential, -, -, long, own⟩ := longest_of_length same
    have most := longest.greatest credential own.head own.credential
    omega

/-- Scrubbing replaces the longest credentials, from left to right. -/
theorem scrubbed_scrubFrom (previous : Option Char) (s : List Char) :
    Scrubbed previous s (scrubFrom 0 previous s) := by
  cases s with
  | nil => exact .done previous
  | cons c s =>
    cases found : length previous (c :: s) with
    | zero =>
      rw [scrubFrom, found]
      exact .kept (length_eq_zero_iff.mp found) (scrubbed_scrubFrom (some c) s)
    | succ n =>
      obtain ⟨boundary, credential, after, split, long, longest⟩ := longest_of_length found
      have shorter : after.length < (c :: s).length := by
        rw [split, List.length_append]
        omega
      rw [split] at found longest ⊢
      rw [scrubFrom_found found long]
      exact .replaced boundary longest (scrubbed_scrubFrom credential.getLast? after)
termination_by s.length
decreasing_by
  · exact Nat.lt_succ_self s.length
  · exact shorter

theorem Scrubbed.eq_scrubFrom (scrubbed : Scrubbed previous s t) :
    t = scrubFrom 0 previous s := by
  induction scrubbed with
  | done => rfl
  | kept none _ ih =>
    rw [scrubFrom, length_eq_zero_iff.mpr none]
    exact congrArg _ ih
  | @replaced previous found s t boundary longest _ ih =>
    have long := longest.length_eq boundary
    obtain ⟨c, rest, same, -⟩ := longest.credential.first
    have size : found.length = rest.length + 1 := by rw [same, List.length_cons]
    rw [scrubFrom_found (long.trans size) size, ih]

/-- The relation holds of a text and what scrubbing makes of it, and of nothing else. -/
theorem scrubbed_iff : Scrubbed previous s t ↔ t = scrubFrom 0 previous s := by
  refine ⟨Scrubbed.eq_scrubFrom, ?_⟩
  rintro rfl
  exact scrubbed_scrubFrom previous s

/-- Where no credential stands, nothing is replaced. -/
theorem scrubFrom_eq_self (clean : ¬Holds previous s) : scrubFrom 0 previous s = s := by
  induction s generalizing previous with
  | nil => rfl
  | cons c s ih =>
    rw [holds_cons, not_or] at clean
    rw [scrubFrom, length_eq_zero_iff.mpr clean.1]
    exact congrArg _ (ih clean.2)

/-- A text stays as it is exactly where it holds no credential. -/
theorem scrub_eq_self_iff {s : String} : scrub s = s ↔ occurs s = false := by
  constructor
  · intro same
    rw [← same]
    exact occurs_scrub s
  · intro clean
    rw [← Bool.not_eq_true, occurs_iff] at clean
    rw [scrub, scrubFrom_eq_self clean, String.ofList_toList]

theorem scrub_scrub (s : String) : scrub (scrub s) = scrub s :=
  scrub_eq_self_iff.mpr (occurs_scrub s)

end Flowgraph.Credential
