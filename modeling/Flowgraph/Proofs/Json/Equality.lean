import Flowgraph.Json.Basic
import Flowgraph.Proofs.Decimal.Rounding
import Mathlib.Data.List.Forall2

/-!
# Equality by value

Two values are equal by value where they are the same text, the same number, lists that are equal
place by place, or objects with the same keys and equal values. A truth value is a number here,
and so true is a member of the list of the single number 1.0. What is not a number is not equal
to itself. That this is decided by `Json.alike` asks nothing of the values.
-/
namespace Flowgraph

/-- The number that a finite one stands for. -/
def Binary64.value? : Binary64 → Option ℚ
  | .finite negative m e => some ((if negative then -(m : ℚ) else m) * 2 ^ e)
  | _ => none

namespace Json

/-- The number that a value counts as; true is one and false is zero. -/
def number? : Json → Option ℚ
  | bool b => some (if b then 1 else 0)
  | int i => some i
  | float x => x.value?
  | _ => none

inductive Equals : Json → Json → Prop
  | null : Equals null null
  | text (s : String) : Equals (str s) (str s)
  | number {v w : Json} {q : ℚ} (first : v.number? = some q) (second : w.number? = some q) :
      Equals v w
  | infinity (negative : Bool) :
      Equals (float (.infinity negative)) (float (.infinity negative))
  | list {xs ys : List Json} (each : List.Forall₂ Equals xs ys) : Equals (arr xs) (arr ys)
  | object {fs gs : List (String × Json)} (size : fs.length = gs.length)
      (keys : ∀ f ∈ fs, (gs.lookup f.1).isSome)
      (each : ∀ f ∈ fs, ∀ w, gs.lookup f.1 = some w → Equals f.2 w) : Equals (obj fs) (obj gs)

variable {v w : Json}

/-! ## Numbers -/

theorem number?_eq (v : Json) :
    v.number? = v.asNumber.ratio?.map fun p => (p.1 : ℚ) / p.2 := by
  cases v with
  | bool b => cases b <;> simp [number?, asNumber, ratio?]
  | int i => simp [number?, asNumber, ratio?]
  | float x =>
    cases x with
    | finite negative m e =>
      have positive : ((Binary64.scaled 2 m e).2 : ℚ) ≠ 0 := by
        exact_mod_cast (Binary64.scaled_pos two_pos m e).ne'
      have value := Binary64.scaled_eq two_pos m e
      cases negative <;>
        simp [number?, asNumber, ratio?, Binary64.value?, Binary64.ratio?, value, neg_div, positive]
    | infinity | nan => rfl
  | null | str | arr | obj => rfl

theorem ratio?_pos {p : ℤ × ℕ} (found : v.ratio? = some p) : 0 < p.2 := by
  cases v with
  | int i =>
    obtain rfl := Option.some.inj found
    exact Nat.one_pos
  | float x =>
    cases x with
    | finite negative m e =>
      obtain rfl := Option.some.inj found
      exact Binary64.scaled_pos two_pos m e
    | infinity | nan => cases found
  | null | bool | str | arr | obj => cases found

theorem sameRatio_iff {p q : ℤ × ℕ} (first : 0 < p.2) (second : 0 < q.2) :
    sameRatio p q = true ↔ (p.1 : ℚ) / p.2 = q.1 / q.2 := by
  rw [div_eq_div_iff (by positivity) (by positivity), sameRatio, beq_iff_eq]
  exact_mod_cast Iff.rfl

theorem sameNumber_iff : (∃ p q, v.asNumber.ratio? = some p ∧ w.asNumber.ratio? = some q ∧
    sameRatio p q = true) ↔ ∃ x, v.number? = some x ∧ w.number? = some x := by
  simp only [number?_eq, Option.map_eq_some_iff]
  constructor
  · rintro ⟨p, q, first, second, same⟩
    exact ⟨_, ⟨p, first, rfl⟩, q, second,
      ((sameRatio_iff (ratio?_pos first) (ratio?_pos second)).mp same).symm⟩
  · rintro ⟨x, ⟨p, first, rfl⟩, q, second, same⟩
    exact ⟨p, q, first, second,
      (sameRatio_iff (ratio?_pos first) (ratio?_pos second)).mpr same.symm⟩

/-! ## Values that hold no others -/

theorem sameScalar_of_ratios {a b : Json} {p q : ℤ × ℕ} (first : a.ratio? = some p)
    (second : b.ratio? = some q) : sameScalar a b = sameRatio p q := by
  fun_cases sameScalar a b with
  | case1 | case2 | case3 => cases first
  | case4 a b _ _ _ p' q' second' first' =>
    obtain rfl := Option.some.inj (first.symm.trans first')
    obtain rfl := Option.some.inj (second.symm.trans second')
    rfl
  | case5 a b _ _ _ none => exact False.elim (none p q first second)

theorem sameScalar_iff {a b : Json} : sameScalar a b = true ↔
    a = null ∧ b = null ∨ (∃ s, a = str s ∧ b = str s) ∨
      (∃ n, a = float (.infinity n) ∧ b = float (.infinity n)) ∨
      ∃ p q, a.ratio? = some p ∧ b.ratio? = some q ∧ sameRatio p q = true := by
  constructor
  · fun_cases sameScalar a b with
    | case1 => exact fun _ => .inl ⟨rfl, rfl⟩
    | case2 s t => exact fun same => .inr (.inl ⟨s, rfl, by rw [beq_iff_eq.mp same]⟩)
    | case3 m n => exact fun same => .inr (.inr (.inl ⟨m, rfl, by rw [beq_iff_eq.mp same]⟩))
    | case4 a b _ _ _ p q second first =>
      exact fun same => .inr (.inr (.inr ⟨p, q, first, second, same⟩))
    | case5 => exact fun same => Bool.noConfusion same
  · rintro (⟨rfl, rfl⟩ | ⟨s, rfl, rfl⟩ | ⟨n, rfl, rfl⟩ | ⟨p, q, first, second, same⟩)
    · rfl
    · exact beq_self_eq_true s
    · exact beq_self_eq_true n
    · exact (sameScalar_of_ratios first second).trans same

theorem asNumber_eq_iff : (v.asNumber = null ↔ v = null) ∧ (∀ s, v.asNumber = str s ↔ v = str s) ∧
    ∀ x, v.asNumber = float x ↔ v = float x := by
  cases v <;> simp [asNumber]

/-- Values that are not both lists, and not both objects, are compared alone. -/
theorem alike_iff_of_apart (lists : ∀ xs ys, v = arr xs → w ≠ arr ys)
    (objects : ∀ fs gs, v = obj fs → w ≠ obj gs) :
    v.alike w = true ↔ Equals v w := by
  -- A truth value is turned into a number before the two are compared.
  have alone : v.alike w = sameScalar v.asNumber w.asNumber := by
    fun_cases alike v w with
    | case1 xs ys => exact False.elim (lists xs ys rfl rfl)
    | case2 fs gs => exact False.elim (objects fs gs rfl rfl)
    | case3 => rfl
  rw [alone]
  obtain ⟨null_v, text_v, float_v⟩ := asNumber_eq_iff (v := v)
  obtain ⟨null_w, text_w, float_w⟩ := asNumber_eq_iff (v := w)
  simp only [sameScalar_iff, sameNumber_iff, null_v, null_w, text_v, text_w, float_v, float_w]
  constructor
  · rintro (⟨rfl, rfl⟩ | ⟨s, rfl, rfl⟩ | ⟨n, rfl, rfl⟩ | ⟨x, first, second⟩)
    · exact .null
    · exact .text s
    · exact .infinity n
    · exact .number first second
  · intro equal
    cases equal with
    | null => exact .inl ⟨rfl, rfl⟩
    | text s => exact .inr (.inl ⟨s, rfl, rfl⟩)
    | infinity n => exact .inr (.inr (.inl ⟨n, rfl, rfl⟩))
    | number first second => exact .inr (.inr (.inr ⟨_, first, second⟩))
    | list each => exact False.elim (lists _ _ rfl rfl)
    | object size keys each => exact False.elim (objects _ _ rfl rfl)

/-! ## All values -/

theorem equals_arr_iff {xs ys : List Json} :
    Equals (arr xs) (arr ys) ↔ List.Forall₂ Equals xs ys := by
  refine ⟨fun equal => ?_, .list⟩
  cases equal with
  | list each => exact each
  | number first => cases first

theorem equals_obj_iff {fs gs : List (String × Json)} : Equals (obj fs) (obj gs) ↔
    fs.length = gs.length ∧
      ∀ f ∈ fs, (gs.lookup f.1).isSome ∧ ∀ w, gs.lookup f.1 = some w → Equals f.2 w := by
  constructor
  · intro equal
    cases equal with
    | object size keys each => exact ⟨size, fun f member => ⟨keys f member, each f member⟩⟩
    | number first => cases first
  · rintro ⟨size, each⟩
    exact .object size (fun f member => (each f member).1) fun f member => (each f member).2

mutual

/-- What is taken for alike is what is equal by value. -/
theorem alike_iff (v w : Json) : v.alike w = true ↔ Equals v w := by
  match v, w with
  | arr xs, arr ys => rw [alike, equals_arr_iff, allAlike_iff xs ys]
  | obj fs, obj gs =>
    rw [alike, equals_obj_iff, Bool.and_eq_true, beq_iff_eq, fieldsAlike_iff fs gs]
  | arr xs, null | arr xs, bool _ | arr xs, int _ | arr xs, float _ | arr xs, str _
  | arr xs, obj _ | obj fs, null | obj fs, bool _ | obj fs, int _ | obj fs, float _
  | obj fs, str _ | obj fs, arr _ | null, _ | bool _, _ | int _, _ | float _, _ | str _, _ =>
    exact alike_iff_of_apart (by simp) (by simp)

theorem allAlike_iff (xs ys : List Json) : allAlike xs ys = true ↔ List.Forall₂ Equals xs ys := by
  match xs, ys with
  | [], [] => exact iff_of_true rfl .nil
  | x :: xs, y :: ys =>
    rw [allAlike, Bool.and_eq_true, alike_iff x y, allAlike_iff xs ys, List.forall₂_cons]
  | [], y :: ys | x :: xs, [] => exact iff_of_false Bool.false_ne_true (fun each => by cases each)

theorem fieldsAlike_iff (fs gs : List (String × Json)) : fieldsAlike fs gs = true ↔
    ∀ f ∈ fs, (gs.lookup f.1).isSome ∧ ∀ w, gs.lookup f.1 = some w → Equals f.2 w := by
  match fs with
  | [] => exact iff_of_true rfl fun f member => False.elim (List.not_mem_nil member)
  | (k, v) :: rest =>
    rw [fieldsAlike, Bool.and_eq_true, fieldsAlike_iff rest gs, List.forall_mem_cons]
    cases gs.lookup k with
    | none => simp
    | some w => simp [alike_iff v w]

end

end Json
end Flowgraph
