import Flowgraph.Decimal.Shortest

/-!
# The texts of numbers

Which characters the text of a number is made of. An integer has a sign and digits; a
finite binary number also has a decimal point or a power of ten, so that the two kinds of
text are never the same. Which number a text stands for is not said here.
-/
namespace Flowgraph

/-- The characters of integers. -/
def IntegerChar (c : Char) : Prop :=
  c = '-' ∨ c.isDigit = true

/-- The characters of finite binary numbers. -/
def NumberChar (c : Char) : Prop :=
  IntegerChar c ∨ c = '+' ∨ c = '.' ∨ c = 'e'

/-- What tells a binary number from an integer. -/
def HasPoint (s : List Char) : Prop :=
  '.' ∈ s ∨ 'e' ∈ s

theorem IntegerChar.ne {c d : Char} (h : IntegerChar c) (minus : d ≠ '-')
    (digit : d.isDigit = false) : c ≠ d := by
  rintro rfl
  rcases h with h | h
  · exact minus h
  · rw [h] at digit
    cases digit

theorem NumberChar.ne {c d : Char} (h : NumberChar c) (minus : d ≠ '-')
    (digit : d.isDigit = false) (other : d ∉ ['+', '.', 'e']) : c ≠ d := by
  rcases h with h | h
  · exact h.ne minus digit
  · rintro rfl
    simp [h] at other

theorem integerChar_of_mem_toDigits {n : Nat} {c : Char} (h : c ∈ Nat.toDigits 10 n) :
    IntegerChar c :=
  Or.inr (Nat.isDigit_of_mem_toDigits (by decide) (by decide) h)

theorem integerChar_of_mem_toString {i : Int} {c : Char} (h : c ∈ (toString i).toList) :
    IntegerChar c := by
  rw [Int.toString_eq_repr, Int.repr_eq_if] at h
  split at h
  · rw [Nat.toList_repr] at h
    exact integerChar_of_mem_toDigits h
  · rw [String.toList_append, Nat.toList_repr] at h
    rcases List.mem_append.mp h with h | h
    · exact Or.inl (by simpa using h)
    · exact integerChar_of_mem_toDigits h

theorem toString_int_ne_nil (i : Int) : (toString i).toList ≠ [] := by
  rw [Int.toString_eq_repr, Int.repr_eq_if]
  split
  · rw [Nat.toList_repr]
    exact Nat.toDigits_ne_nil
  · simp

/-- The text of an integer has neither a decimal point nor a power of ten. -/
theorem not_hasPoint_int (i : Int) : ¬HasPoint (toString i).toList := by
  rintro (h | h)
  · exact (integerChar_of_mem_toString h).ne (by decide) (by decide) rfl
  · exact (integerChar_of_mem_toString h).ne (by decide) (by decide) rfl

namespace Binary64

theorem integerChar_of_mem_zeros {n : Nat} {c : Char} (h : c ∈ zeros n) : IntegerChar c := by
  rw [List.eq_of_mem_replicate h]
  exact Or.inr (by decide)

theorem mem_of_mem_dropTrailingZeros {s : List Char} {c : Char} (h : c ∈ dropTrailingZeros s) :
    c ∈ s := by
  have kept := (List.dropWhile_sublist _).mem (List.mem_reverse.mp h)
  exact List.mem_reverse.mp kept

theorem numberChar_of_mem_writeDigits {style : Layout} {digits : List Char} {power : Int}
    (plain : ∀ d ∈ digits, IntegerChar d) {c : Char} (h : c ∈ writeDigits style digits power) :
    NumberChar c := by
  have zero : NumberChar '0' := Or.inl (Or.inr (by decide))
  have point : NumberChar '.' := Or.inr (by decide)
  unfold writeDigits at h
  split at h
  · rcases List.mem_append.mp h with h | h
    · split at h
      · simp only [List.mem_cons] at h
        rcases h with rfl | rfl | h
        · exact Or.inl (plain c List.mem_cons_self)
        · exact point
        · exact Or.inl (plain c (List.mem_cons_of_mem _ (List.mem_cons.mpr h)))
      · exact Or.inl (plain c h)
    · rcases List.mem_cons.mp h with rfl | h
      · exact Or.inr (by decide)
      rcases List.mem_cons.mp h with rfl | h
      · split
        · exact Or.inl (Or.inl rfl)
        · exact Or.inr (by decide)
      rcases List.mem_append.mp h with h | h
      · exact Or.inl (integerChar_of_mem_zeros h)
      · exact Or.inl (integerChar_of_mem_toDigits h)
  · split at h
    · rcases List.mem_cons.mp h with rfl | h
      · exact zero
      rcases List.mem_cons.mp h with rfl | h
      · exact point
      rcases List.mem_append.mp h with h | h
      · exact Or.inl (integerChar_of_mem_zeros h)
      · exact Or.inl (plain c h)
    · dsimp only at h
      split at h
      · rcases List.mem_append.mp h with h | h
        · rcases List.mem_append.mp h with h | h
          · exact Or.inl (plain c h)
          · exact Or.inl (integerChar_of_mem_zeros h)
        · simp only [List.mem_cons, List.not_mem_nil, or_false] at h
          rcases h with rfl | rfl
          · exact point
          · exact zero
      · rcases List.mem_append.mp h with h | h
        · exact Or.inl (plain c (List.mem_of_mem_take h))
        · rcases List.mem_cons.mp h with rfl | h
          · exact point
          · exact Or.inl (plain c (List.mem_of_mem_drop h))

theorem hasPoint_writeDigits (style : Layout) (digits : List Char) (power : Int) :
    HasPoint (writeDigits style digits power) := by
  unfold writeDigits
  split
  · exact Or.inr (List.mem_append_right _ List.mem_cons_self)
  · split
    · exact Or.inl (List.mem_cons_of_mem _ List.mem_cons_self)
    · dsimp only
      split
      · exact Or.inl (List.mem_append_right _ List.mem_cons_self)
      · exact Or.inl (List.mem_append_right _ List.mem_cons_self)

/-- The text of a finite number without its sign. -/
theorem write_finite (negative : Bool) (m : Nat) (e : Int) (infinity nan : List Char) :
    ∃ s, (finite negative m e).write infinity nan = (if negative then '-' :: s else s) ∧
      HasPoint s ∧ ∀ c ∈ s, NumberChar c := by
  cases m with
  | zero =>
    refine ⟨['0', '.', '0'], rfl, Or.inl (by decide), ?_⟩
    intro c hc
    simp only [List.mem_cons, List.not_mem_nil, or_false] at hc
    rcases hc with rfl | rfl | rfl
    · exact Or.inl (Or.inr (by decide))
    · exact Or.inr (by decide)
    · exact Or.inl (Or.inr (by decide))
  | succ m =>
    refine ⟨_, rfl, hasPoint_writeDigits _ _ _, fun c hc => ?_⟩
    exact numberChar_of_mem_writeDigits
      (fun d hd => integerChar_of_mem_toDigits (mem_of_mem_dropTrailingZeros hd)) hc

theorem numberChar_of_mem_write {negative : Bool} {m : Nat} {e : Int} {infinity nan : List Char}
    {c : Char} (h : c ∈ (finite negative m e).write infinity nan) : NumberChar c := by
  obtain ⟨s, written, _, plain⟩ := write_finite negative m e infinity nan
  rw [written] at h
  split at h
  · rcases List.mem_cons.mp h with rfl | h
    · exact Or.inl (Or.inl rfl)
    · exact plain c h
  · exact plain c h

theorem hasPoint_write (negative : Bool) (m : Nat) (e : Int) (infinity nan : List Char) :
    HasPoint ((finite negative m e).write infinity nan) := by
  obtain ⟨s, written, point, _⟩ := write_finite negative m e infinity nan
  rw [written]
  split
  · exact point.imp (List.mem_cons_of_mem _) (List.mem_cons_of_mem _)
  · exact point

end Binary64
end Flowgraph
