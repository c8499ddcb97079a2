import Flowgraph.Decimal.Shortest
import Mathlib.Algebra.Order.Field.Power
import Mathlib.Data.Nat.Log
import Mathlib.Data.Rat.Cast.Order
import Mathlib.Tactic.FieldSimp
import Mathlib.Tactic.Linarith
import Mathlib.Tactic.NormNum
import Mathlib.Tactic.Positivity
import Mathlib.Tactic.Ring

/-!
# Rounding to binary numbers

What rounds to a binary number is an interval of fractions around it. It ends halfway to
the neighbours, and the ends belong to it where the significand is even. Below a power of
two the neighbour is nearer, so that the interval ends at a quarter there.
-/
namespace Flowgraph

namespace Binary64

/-- A finite number in the one form in which it comes about: its power of two lies in range,
and its significand has 53 bits unless the power is the least one. -/
def Canonical : Binary64 → Prop
  | .finite _ m e =>
    m < 2 * leastSignificand ∧ leastExponent ≤ e ∧ e ≤ greatestExponent ∧
      (leastSignificand ≤ m ∨ e = leastExponent)
  | _ => True

instance (x : Binary64) : Decidable x.Canonical := by
  cases x <;> unfold Canonical <;> infer_instance

/-! ## Fractions -/

theorem scaled_pos {b : ℕ} (positive : 0 < b) (m : ℕ) (e : ℤ) : 0 < (scaled b m e).2 := by
  unfold scaled
  split
  · exact Nat.one_pos
  · exact Nat.pow_pos positive

/-- The fraction is `m * b ^ e`. -/
theorem scaled_eq {b : ℕ} (positive : 0 < b) (m : ℕ) (e : ℤ) :
    ((scaled b m e).1 : ℚ) = m * (b : ℚ) ^ e * (scaled b m e).2 := by
  have nonzero : (b : ℚ) ≠ 0 := by positivity
  unfold scaled
  split
  · rename_i up
    obtain ⟨n, rfl⟩ := Int.eq_ofNat_of_zero_le up
    simp
  · rename_i down
    obtain ⟨n, hn⟩ := Int.eq_ofNat_of_zero_le (show 0 ≤ -e by omega)
    obtain rfl : e = -(n : ℤ) := by omega
    have cancel : (b : ℚ) ^ (-(n : ℤ)) * (b : ℚ) ^ n = 1 := by
      rw [zpow_neg, zpow_natCast]
      exact inv_mul_cancel₀ (pow_ne_zero n nonzero)
    simp only [neg_neg, Int.toNat_natCast, Nat.pow_eq, Nat.cast_pow]
    rw [mul_assoc, cancel, mul_one]

section Compare

variable {c a : ℕ} {q f : ℤ}

theorem compareDecimal_cross (c : ℕ) (q : ℤ) (a : ℕ) (f : ℤ) :
    ∃ d : ℚ, 0 < d ∧ (((scaled 10 c q).1 * (scaled 2 a f).2 : ℕ) : ℚ) = c * 10 ^ q * d ∧
      (((scaled 2 a f).1 * (scaled 10 c q).2 : ℕ) : ℚ) = a * 2 ^ f * d := by
  have decimal := scaled_eq (show 0 < 10 by decide) c q
  have binary := scaled_eq (show 0 < 2 by decide) a f
  have decimal' := scaled_pos (show 0 < 10 by decide) c q
  have binary' := scaled_pos (show 0 < 2 by decide) a f
  refine ⟨((scaled 10 c q).2 : ℚ) * (scaled 2 a f).2, by positivity, ?_, ?_⟩
  · push_cast at decimal ⊢
    rw [decimal]
    ring
  · push_cast at binary ⊢
    rw [binary]
    ring

theorem compareDecimal_lt_iff : compareDecimal c q a f = .lt ↔ (c : ℚ) * 10 ^ q < a * 2 ^ f := by
  obtain ⟨d, positive, left, right⟩ := compareDecimal_cross c q a f
  simp only [compareDecimal]
  rw [compare_lt_iff_lt, ← Nat.cast_lt (α := ℚ), left, right, mul_lt_mul_iff_left₀ positive]

theorem compareDecimal_gt_iff : compareDecimal c q a f = .gt ↔ (a : ℚ) * 2 ^ f < c * 10 ^ q := by
  obtain ⟨d, positive, left, right⟩ := compareDecimal_cross c q a f
  simp only [compareDecimal]
  rw [compare_gt_iff_gt, ← Nat.cast_lt (α := ℚ), left, right,
    mul_lt_mul_iff_left₀ positive]

theorem compareDecimal_eq_iff : compareDecimal c q a f = .eq ↔ (c : ℚ) * 10 ^ q = a * 2 ^ f := by
  obtain ⟨d, positive, left, right⟩ := compareDecimal_cross c q a f
  simp only [compareDecimal]
  rw [compare_eq_iff_eq, ← Nat.cast_inj (R := ℚ), left, right, mul_left_inj' positive.ne']

end Compare

/-! ## The interval of a number -/

/-- The lower end of what rounds to `m * 2 ^ e`, in quarters of `2 ^ e`. -/
def lowerQuarters (m : ℕ) (e : ℤ) : ℕ :=
  if m == leastSignificand && leastExponent < e then 4 * m - 1 else 4 * m - 2

/-- A fraction rounds to the positive number `m * 2 ^ e`. -/
structure RoundsTo (x : ℚ) (m : ℕ) (e : ℤ) : Prop where
  lower : (lowerQuarters m e : ℚ) * 2 ^ (e - 2) ≤ x
  upper : x ≤ ((4 * m + 2 : ℕ) : ℚ) * 2 ^ (e - 2)
  /-- The ends belong to the even significand. -/
  tie : m % 2 = 0 ∨
    (lowerQuarters m e : ℚ) * 2 ^ (e - 2) < x ∧ x < ((4 * m + 2 : ℕ) : ℚ) * 2 ^ (e - 2)

theorem readsBack_iff {m : ℕ} {e : ℤ} {c : ℕ} {q : ℤ} :
    readsBack m e c q = true ↔ RoundsTo ((c : ℚ) * 10 ^ q) m e := by
  have inside (o out : Ordering) (even : Bool) :
      (o != out && (o != .eq || even)) = true ↔ o ≠ out ∧ (o = .eq → even = true) := by
    cases o <;> cases out <;> cases even <;> simp
  have reads : readsBack m e c q = true ↔
      ¬(c : ℚ) * 10 ^ q < lowerQuarters m e * 2 ^ (e - 2) ∧
      ((c : ℚ) * 10 ^ q = lowerQuarters m e * 2 ^ (e - 2) → m % 2 = 0) ∧
      ¬((4 * m + 2 : ℕ) : ℚ) * 2 ^ (e - 2) < c * 10 ^ q ∧
      ((c : ℚ) * 10 ^ q = ((4 * m + 2 : ℕ) : ℚ) * 2 ^ (e - 2) → m % 2 = 0) := by
    have opened : readsBack m e c q =
        (((compareDecimal c q (lowerQuarters m e) (e - 2) != .lt) &&
          (compareDecimal c q (lowerQuarters m e) (e - 2) != .eq || m % 2 == 0)) &&
        ((compareDecimal c q (4 * m + 2) (e - 2) != .gt) &&
          (compareDecimal c q (4 * m + 2) (e - 2) != .eq || m % 2 == 0))) := rfl
    rw [opened, Bool.and_eq_true, inside, inside, ne_eq, ne_eq, compareDecimal_lt_iff,
      compareDecimal_gt_iff, compareDecimal_eq_iff, compareDecimal_eq_iff, and_assoc, beq_iff_eq]
  rw [reads, not_lt, not_lt]
  constructor
  · rintro ⟨lower, lowerTie, upper, upperTie⟩
    refine ⟨lower, upper, ?_⟩
    by_cases even : m % 2 = 0
    · exact .inl even
    · exact .inr ⟨lt_of_le_of_ne lower fun same => even (lowerTie same.symm),
        lt_of_le_of_ne upper fun same => even (upperTie same)⟩
  · rintro ⟨lower, upper, tie⟩
    refine ⟨lower, fun same => ?_, upper, fun same => ?_⟩
    · exact tie.resolve_right fun strict => strict.1.ne same.symm
    · exact tie.resolve_right fun strict => strict.2.ne same

/-! ## The significand -/

theorem roundDiv_eq {num den m : ℕ} (positive : 0 < den) (lower : 2 * (den * m) ≤ 2 * num + den)
    (upper : 2 * num ≤ 2 * (den * m) + den)
    (tie : m % 2 = 0 ∨ 2 * (den * m) < 2 * num + den ∧ 2 * num < 2 * (den * m) + den) :
    roundDiv num den = m := by
  have whole := Nat.div_add_mod num den
  have small := Nat.mod_lt num positive
  simp only [roundDiv]
  generalize num / den = q at whole ⊢
  generalize num % den = r at whole small ⊢
  have below : q ≤ m := by
    by_contra beyond
    have step : den * (m + 1) ≤ den * q := Nat.mul_le_mul_left den (by omega)
    rw [Nat.mul_add] at step
    omega
  have above : m ≤ q + 1 := by
    by_contra beyond
    have step : den * (q + 2) ≤ den * m := Nat.mul_le_mul_left den (by omega)
    rw [Nat.mul_add] at step
    omega
  rcases Nat.lt_or_ge q m with less | same
  · obtain rfl : m = q + 1 := by omega
    rw [Nat.mul_add] at lower upper tie
    rw [if_neg (by omega)]
    split
    · rfl
    · rw [if_neg (by simp; omega)]
  · obtain rfl : m = q := by omega
    split
    · rfl
    · rw [if_neg (by omega), if_pos (by simp; omega)]

section Fraction

variable {num den m : ℕ} {e : ℤ} {x y : ℚ}

/-- A fraction of which `y` is the multiple of `2 ^ e` has the significand nearest to `y`. -/
theorem significand_eq (positive : 0 < den) (value : (num : ℚ) = x * den) (scale : x = y * 2 ^ e)
    (lower : (m : ℚ) - 1 / 2 ≤ y) (upper : y ≤ m + 1 / 2)
    (tie : m % 2 = 0 ∨ (m : ℚ) - 1 / 2 < y ∧ y < m + 1 / 2) :
    roundDiv (num * (scaled 2 den e).2) (scaled 2 den e).1 = m := by
  have form := scaled_eq (show 0 < 2 by decide) den e
  have unit := scaled_pos (show 0 < 2 by decide) den e
  generalize (scaled 2 den e).1 = a at form ⊢
  generalize (scaled 2 den e).2 = b at form unit ⊢
  have power : (0 : ℚ) < 2 ^ e := by positivity
  have divisor : (0 : ℚ) < a := by
    rw [form]
    positivity
  have product : ((num * b : ℕ) : ℚ) = y * a := by
    push_cast at form ⊢
    rw [value, scale, form]
    ring
  have lower' : ((m : ℚ) - 1 / 2) * a ≤ y * a := mul_le_mul_of_nonneg_right lower divisor.le
  have upper' : y * a ≤ ((m : ℚ) + 1 / 2) * a := mul_le_mul_of_nonneg_right upper divisor.le
  apply roundDiv_eq (by exact_mod_cast divisor)
  · rw [← Nat.cast_le (α := ℚ)]
    push_cast at product ⊢
    linarith
  · rw [← Nat.cast_le (α := ℚ)]
    push_cast at product ⊢
    linarith
  · rcases tie with even | ⟨low, high⟩
    · exact .inl even
    · have low' : ((m : ℚ) - 1 / 2) * a < y * a := mul_lt_mul_of_pos_right low divisor
      have high' : y * a < ((m : ℚ) + 1 / 2) * a := mul_lt_mul_of_pos_right high divisor
      refine .inr ⟨?_, ?_⟩
      · rw [← Nat.cast_lt (α := ℚ)]
        push_cast at product ⊢
        linarith
      · rw [← Nat.cast_lt (α := ℚ)]
        push_cast at product ⊢
        linarith

/-! ## The power of two -/

/-- The power of two at which a fraction has 53 bits before the point, or fewer at the least
power. -/
structure Fits (x : ℚ) (e : ℤ) : Prop where
  least : leastExponent ≤ e
  below : x < 2 ^ 53 * 2 ^ e
  above : e = leastExponent ∨ 2 ^ 52 * 2 ^ e ≤ x

theorem two_zpow_add (k : ℤ) (n : ℕ) : (2 : ℚ) ^ (k + n) = 2 ^ n * 2 ^ k := by
  rw [zpow_add₀ two_ne_zero, zpow_natCast, mul_comm]

theorem Fits.unique {e' : ℤ} (fits : Fits x e) (fits' : Fits x e') : e = e' := by
  have apart {e e' : ℤ} (fits : Fits x e) (fits' : Fits x e') : ¬e < e' := by
    intro less
    have high := fits'.above.resolve_left fun same => by
      have := fits.least
      omega
    have step : (2 : ℚ) ^ (e + (1 : ℕ)) ≤ 2 ^ e' := zpow_le_zpow_right₀ one_le_two (by omega)
    rw [two_zpow_add] at step
    have low := fits.below
    linarith
  exact le_antisymm (not_lt.mp (apart fits' fits)) (not_lt.mp (apart fits fits'))

theorem fits_exponentFor (hn : 0 < num) (hd : 0 < den) (value : (num : ℚ) = x * den) :
    Fits x (exponentFor num den) := by
  have hd' : (0 : ℚ) < den := by exact_mod_cast hd
  let k : ℤ := Int.ofNat num.log2 - Int.ofNat den.log2
  have power : (0 : ℚ) < 2 ^ k := by positivity
  have quotient : (2 : ℚ) ^ k * 2 ^ den.log2 = 2 ^ num.log2 := by
    rw [← zpow_natCast, ← zpow_natCast, ← zpow_add₀ two_ne_zero]
    congr 1
    simp [k]
  have numLow : (2 : ℚ) ^ num.log2 ≤ num := by exact_mod_cast Nat.log2_self_le hn.ne'
  have numHigh : (num : ℚ) < 2 ^ num.log2 * 2 := by
    rw [← pow_succ]
    exact_mod_cast Nat.lt_log2_self
  have denLow : (2 : ℚ) ^ den.log2 ≤ den := by exact_mod_cast Nat.log2_self_le hd.ne'
  have denHigh : (den : ℚ) < 2 ^ den.log2 * 2 := by
    rw [← pow_succ]
    exact_mod_cast Nat.lt_log2_self
  have high : x < 2 * 2 ^ k := by
    apply lt_of_mul_lt_mul_right _ hd'.le
    nlinarith
  have low : 2 ^ k < 2 * x := by
    apply lt_of_mul_lt_mul_right _ hd'.le
    nlinarith
  have test : num * (scaled 2 den k).2 < (scaled 2 den k).1 ↔ x < 2 ^ k := by
    have unit : (0 : ℚ) < (scaled 2 den k).2 := by
      exact_mod_cast scaled_pos (show 0 < 2 by decide) den k
    rw [← Nat.cast_lt (α := ℚ), Nat.cast_mul, scaled_eq (show 0 < 2 by decide), value,
      Nat.cast_ofNat, mul_comm (den : ℚ), mul_lt_mul_iff_left₀ unit, mul_lt_mul_iff_left₀ hd']
  -- Before the least power comes into play the exponent is `k - 53` or `k - 52`.
  have opened : exponentFor num den =
      max (if num * (scaled 2 den k).2 < (scaled 2 den k).1 then k - 53 else k - 52)
        leastExponent := rfl
  obtain ⟨e, chosen, below, above⟩ : ∃ e : ℤ,
      (if num * (scaled 2 den k).2 < (scaled 2 den k).1 then k - 53 else k - 52) = e ∧
      x < 2 ^ 53 * 2 ^ e ∧ 2 ^ 52 * 2 ^ e ≤ x := by
    by_cases less : x < 2 ^ k
    · have step := two_zpow_add (k - 53) 53
      rw [show k - 53 + (53 : ℕ) = k by omega] at step
      refine ⟨k - 53, if_pos (test.mpr less), ?_, ?_⟩
      · linarith
      · linarith
    · have step := two_zpow_add (k - 52) 52
      rw [show k - 52 + (52 : ℕ) = k by omega] at step
      refine ⟨k - 52, if_neg (mt test.mp less), ?_, ?_⟩
      · linarith
      · linarith
  rw [opened, chosen]
  rcases le_total e leastExponent with small | large
  · rw [max_eq_right small]
    have grown : (2 : ℚ) ^ e ≤ 2 ^ leastExponent := zpow_le_zpow_right₀ one_le_two small
    exact ⟨le_refl _, by linarith, .inl rfl⟩
  · rw [max_eq_left large]
    exact ⟨large, below, .inr above⟩

/-! ## Rounding -/

theorem succ_significand_le (bits : m < 2 * leastSignificand) : (m : ℚ) + 1 ≤ 2 ^ 53 := by
  have whole : m + 1 ≤ 2 ^ 53 := bits
  exact_mod_cast whole

theorem half_eq (e : ℤ) : (2 : ℚ) ^ e = 2 * 2 ^ (e - 1) := by
  have step := two_zpow_add (e - 1) 1
  rw [show e - 1 + (1 : ℕ) = e by omega] at step
  linarith

theorem quarter_eq (e : ℤ) : (2 : ℚ) ^ e = 4 * 2 ^ (e - 2) := by
  have step := two_zpow_add (e - 2) 2
  rw [show e - 2 + (2 : ℕ) = e by omega] at step
  linarith

theorem le_lowerQuarters (positive : 0 < m) (e : ℤ) :
    4 * (m : ℚ) - 2 ≤ lowerQuarters m e := by
  have least : 4 * m - 2 ≤ lowerQuarters m e := by
    unfold lowerQuarters
    split <;> omega
  have least' := (Nat.cast_le (α := ℚ)).mpr least
  rw [Nat.cast_sub (by omega)] at least'
  push_cast at least'
  exact least'

namespace RoundsTo

theorem pos (rounds : RoundsTo x m e) (positive : 0 < m) : 0 < x := by
  have quarter : (0 : ℚ) < 2 ^ (e - 2) := by positivity
  have one : (1 : ℚ) ≤ m := by exact_mod_cast positive
  have low := le_lowerQuarters positive e
  exact lt_of_lt_of_le (by nlinarith) rounds.lower

/-- The interval reaches no further than halfway to the neighbours. -/
theorem halves (rounds : RoundsTo x m e) (positive : 0 < m) :
    ((m : ℚ) - 1 / 2) * 2 ^ e ≤ x ∧ x ≤ ((m : ℚ) + 1 / 2) * 2 ^ e ∧
      (m % 2 = 0 ∨ ((m : ℚ) - 1 / 2) * 2 ^ e < x ∧ x < ((m : ℚ) + 1 / 2) * 2 ^ e) := by
  have quarter : (0 : ℚ) < 2 ^ (e - 2) := by positivity
  have low : (4 * (m : ℚ) - 2) * 2 ^ (e - 2) ≤ lowerQuarters m e * 2 ^ (e - 2) :=
    mul_le_mul_of_nonneg_right (le_lowerQuarters positive e) quarter.le
  obtain ⟨lower, upper, tie⟩ := rounds
  rw [quarter_eq e]
  push_cast at upper tie
  refine ⟨by linarith, by linarith, tie.imp_right ?_⟩
  rintro ⟨lower, upper⟩
  exact ⟨by linarith, by linarith⟩

/-- The interval has the power of two of its number, but for what lies below a power of two:
that has the next smaller one. -/
theorem fits {negative : Bool} (rounds : RoundsTo x m e) (positive : 0 < m)
    (canonical : (finite negative m e).Canonical) :
    Fits x e ∨ m = leastSignificand ∧ Fits x (e - 1) ∧ (2 ^ 53 - 1 / 2) * 2 ^ (e - 1) ≤ x := by
  obtain ⟨bits, least, _, normal⟩ := canonical
  obtain ⟨lower, upper, _⟩ := rounds.halves positive
  have power : (0 : ℚ) < 2 ^ e := by positivity
  have bits' := succ_significand_le bits
  have below : x < 2 ^ 53 * 2 ^ e := by nlinarith
  by_cases above : e = leastExponent ∨ 2 ^ 52 * 2 ^ e ≤ x
  · exact .inl ⟨least, below, above⟩
  · obtain ⟨further, less⟩ := not_or.mp above
    have few : m = leastSignificand := by
      by_contra other
      have more : 2 ^ 52 + 1 ≤ m := by
        have := normal.resolve_right further
        have whole : leastSignificand = 2 ^ 52 := rfl
        omega
      have more' : (2 : ℚ) ^ 52 + 1 ≤ m := by exact_mod_cast more
      apply less
      nlinarith
    have half := half_eq e
    have lowest : (2 ^ 53 - 1 / 2) * 2 ^ (e - 1) ≤ x := by
      have quarters : lowerQuarters m e = 2 ^ 54 - 1 := by
        have beyond : leastExponent < e := by omega
        simp [lowerQuarters, few, beyond, leastSignificand]
      have low := rounds.lower
      rw [quarters] at low
      have unit := quarter_eq e
      push_cast at low
      linarith
    have smaller : (0 : ℚ) < 2 ^ (e - 1) := by positivity
    refine .inr ⟨few, ⟨by omega, by linarith, .inr (by nlinarith)⟩, lowest⟩

end RoundsTo

theorem ofRatio_eq (negative : Bool) (hn : num ≠ 0) (exponent : exponentFor num den = e)
    (significand : roundDiv (num * (scaled 2 den e).2) (scaled 2 den e).1 = m) :
    ofRatio negative num den =
      if m = 2 * leastSignificand then
        if greatestExponent < e + 1 then .infinity negative
        else .finite negative leastSignificand (e + 1)
      else if greatestExponent < e then .infinity negative else .finite negative m e := by
  subst exponent significand
  simp only [ofRatio, beq_iff_eq, hn, if_false]
  split <;> rfl

/-- What lies in the interval of a number is rounded to it. -/
theorem ofRatio_of_roundsTo {negative : Bool} (hd : 0 < den) (value : (num : ℚ) = x * den)
    (positive : 0 < m) (canonical : (finite negative m e).Canonical) (rounds : RoundsTo x m e) :
    ofRatio negative num den = finite negative m e := by
  have hn : 0 < num := by
    have above : (0 : ℚ) < num := by
      rw [value]
      exact mul_pos (rounds.pos positive) (by exact_mod_cast hd)
    exact_mod_cast above
  have fitting := fits_exponentFor hn hd value
  have inRange : ¬greatestExponent < e := not_lt.mpr canonical.2.2.1
  have power : (0 : ℚ) < 2 ^ e := by positivity
  rcases rounds.fits positive canonical with fits | ⟨few, fits, lowest⟩
  · obtain ⟨lower, upper, tie⟩ := rounds.halves positive
    have significand := significand_eq (m := m) (y := x / 2 ^ e) hd value
      (div_mul_cancel₀ x power.ne').symm
      ((le_div_iff₀ power).mpr lower) ((div_le_iff₀ power).mpr upper)
      (tie.imp_right fun strict => ⟨(lt_div_iff₀ power).mpr strict.1,
        (div_lt_iff₀ power).mpr strict.2⟩)
    have small : m ≠ 2 * leastSignificand := canonical.1.ne
    rw [ofRatio_eq negative hn.ne' (fitting.unique fits) significand, if_neg small,
      if_neg inRange]
  · -- Just below a power of two the significand is rounded up to the next one.
    have smaller : (0 : ℚ) < 2 ^ (e - 1) := by positivity
    have significand := significand_eq (m := 2 * leastSignificand) (y := x / 2 ^ (e - 1)) hd value
      (div_mul_cancel₀ x smaller.ne').symm
      ((le_div_iff₀ smaller).mpr (by norm_num [leastSignificand] at lowest ⊢; linarith))
      ((div_le_iff₀ smaller).mpr (by
        have below := fits.below
        norm_num [leastSignificand] at below ⊢
        linarith))
      (.inl rfl)
    rw [ofRatio_eq negative hn.ne' (fitting.unique fits) significand, if_pos rfl,
      show e - 1 + 1 = e by omega, if_neg inRange, few]

end Fraction

/-! ## Decimals -/

theorem lt_pow_length_toDigits (n : ℕ) : n < 10 ^ (Nat.toDigits 10 n).length :=
  (Nat.length_toDigits_le_iff (by decide) Nat.length_toDigits_pos).mp (le_refl _)

theorem pow_length_toDigits_le {n : ℕ} (positive : 0 < n) :
    10 ^ ((Nat.toDigits 10 n).length - 1) ≤ n := by
  rcases Nat.eq_zero_or_pos ((Nat.toDigits 10 n).length - 1) with one | more
  · rw [one]
    exact positive
  · by_contra less
    have shorter := (Nat.length_toDigits_le_iff (by decide) more).mpr (not_le.mp less)
    omega

theorem two_pow_le_ten_pow (n : ℕ) : (2 : ℚ) ^ (3 * n) ≤ 10 ^ n := by
  rw [pow_mul]
  exact pow_le_pow_left₀ (by norm_num) (by norm_num) n

theorem ten_zpow_neg_le (n : ℕ) : (10 : ℚ) ^ (-(n : ℤ)) ≤ 2 ^ (-((3 * n : ℕ) : ℤ)) := by
  rw [zpow_neg, zpow_neg, zpow_natCast, zpow_natCast]
  exact inv_anti₀ (by positivity) (two_pow_le_ten_pow n)

/-- The guards against powers of ten out of range let pass all that rounds to a number. -/
theorem RoundsTo.range {negative : Bool} {x : ℚ} {m : ℕ} {e : ℤ} (rounds : RoundsTo x m e)
    (positive : 0 < m) (canonical : (finite negative m e).Canonical) :
    10 ^ (-400 : ℤ) ≤ x ∧ x < 10 ^ (400 : ℤ) := by
  obtain ⟨bits, least, greatest, _⟩ := canonical
  obtain ⟨lower, upper, _⟩ := rounds.halves positive
  have power : (0 : ℚ) < 2 ^ e := by positivity
  have one : (1 : ℚ) ≤ m := by exact_mod_cast positive
  have bits' := succ_significand_le bits
  constructor
  · have least' : (1 / 2 : ℚ) * 2 ^ e ≤ x := by nlinarith
    have half := half_eq e
    calc (10 : ℚ) ^ (-400 : ℤ) ≤ 2 ^ (-((3 * 400 : ℕ) : ℤ)) := ten_zpow_neg_le 400
      _ ≤ 2 ^ (e - 1) := zpow_le_zpow_right₀ one_le_two (by unfold leastExponent at least; omega)
      _ ≤ x := by linarith
  · have below : x < 2 ^ 53 * 2 ^ e := by nlinarith
    calc x < 2 ^ 53 * 2 ^ e := below
      _ = 2 ^ (e + (53 : ℕ)) := (two_zpow_add e 53).symm
      _ ≤ 2 ^ ((3 * 400 : ℕ) : ℤ) :=
        zpow_le_zpow_right₀ one_le_two (by unfold greatestExponent at greatest; omega)
      _ ≤ 10 ^ (400 : ℤ) := by
        rw [zpow_natCast]
        exact two_pow_le_ten_pow 400

/-- A decimal that lies in the interval of a number is read as this number. -/
theorem ofDecimal_of_roundsTo {negative : Bool} {digits m : ℕ} {power e : ℤ} (positive : 0 < m)
    (canonical : (finite negative m e).Canonical)
    (rounds : RoundsTo ((digits : ℚ) * 10 ^ power) m e) :
    ofDecimal negative digits power = finite negative m e := by
  have ten : (0 : ℚ) < 10 ^ power := by positivity
  have some : 0 < digits := by
    have above : (0 : ℚ) < digits := pos_of_mul_pos_left (rounds.pos positive) ten.le
    exact_mod_cast above
  obtain ⟨low, high⟩ := rounds.range positive canonical
  have count : 0 < (Nat.toDigits 10 digits).length := Nat.length_toDigits_pos
  have most := lt_pow_length_toDigits digits
  have least := pow_length_toDigits_le some
  simp only [ofDecimal]
  generalize (Nat.toDigits 10 digits).length = n at count most least ⊢
  have most' : (digits : ℚ) * 10 ^ power < 10 ^ (power + n) := by
    rw [zpow_add₀ (by norm_num), zpow_natCast, mul_comm]
    exact mul_lt_mul_of_pos_left (by exact_mod_cast most) ten
  have least' : (10 : ℚ) ^ (power + (n - 1 : ℕ)) ≤ digits * 10 ^ power := by
    rw [zpow_add₀ (by norm_num), zpow_natCast, mul_comm]
    exact mul_le_mul_of_nonneg_right (by exact_mod_cast least) ten.le
  have above : ¬power + Int.ofNat n < -400 := by
    intro less
    have tiny : (10 : ℚ) ^ (power + n) ≤ 10 ^ (-400 : ℤ) :=
      zpow_le_zpow_right₀ (by norm_num) (le_of_lt less)
    linarith
  have below : ¬400 < power + Int.ofNat n := by
    intro more
    have huge : (10 : ℚ) ^ (400 : ℤ) ≤ 10 ^ (power + (n - 1 : ℕ)) :=
      zpow_le_zpow_right₀ (by norm_num) (by simp at more; omega)
    linarith
  have inside : ¬(digits == 0 || decide (power + Int.ofNat n < -400)) = true := by
    rw [Bool.or_eq_true, beq_iff_eq, decide_eq_true_eq]
    exact not_or.mpr ⟨some.ne', above⟩
  rw [if_neg inside, if_neg below]
  exact ofRatio_of_roundsTo (scaled_pos (by decide) digits power)
    (scaled_eq (by decide) digits power) positive canonical (by exact_mod_cast rounds)

/-! ## Results of rounding -/

/-- The rounded quotient lies between whole numbers as the quotient does. -/
theorem roundDiv_bounds (num k : ℕ) {den : ℕ} (positive : 0 < den) :
    (k * den ≤ num → k ≤ roundDiv num den) ∧ (num < k * den → roundDiv num den ≤ k) := by
  have cases : roundDiv num den = num / den ∨ roundDiv num den = num / den + 1 := by
    simp only [roundDiv]
    split
    · exact .inl rfl
    split
    · exact .inr rfl
    split
    · exact .inl rfl
    · exact .inr rfl
  constructor
  · intro above
    have := (Nat.le_div_iff_mul_le positive).mpr above
    omega
  · intro below
    have := (Nat.div_lt_iff_lt_mul positive).mpr below
    omega

/-- Rounding yields numbers in their one form. A significand that is rounded up to the next power
of two is halved, and lands on the least one. -/
theorem canonical_ofRatio (negative : Bool) (num : ℕ) {den : ℕ} (hd : 0 < den) :
    (ofRatio negative num den).Canonical := by
  by_cases hn : num = 0
  · subst hn
    have zero : ofRatio negative 0 den = .finite negative 0 leastExponent := rfl
    rw [zero]
    exact ⟨by decide, le_refl _, by decide, .inr rfl⟩
  have hd' : (den : ℚ) ≠ 0 := by exact_mod_cast hd.ne'
  have value : (num : ℚ) = num / den * den := (div_mul_cancel₀ _ hd').symm
  obtain ⟨least, below, above⟩ := fits_exponentFor (Nat.pos_of_ne_zero hn) hd value
  generalize exponent : exponentFor num den = e at least below above
  have form : ((scaled 2 den e).1 : ℚ) = (den : ℚ) * 2 ^ e * ((scaled 2 den e).2 : ℚ) :=
    scaled_eq (show 0 < 2 by decide) den e
  have unit : (0 : ℚ) < (scaled 2 den e).2 := by
    exact_mod_cast scaled_pos (show 0 < 2 by decide) den e
  have power : (0 : ℚ) < 2 ^ e := by positivity
  have den' : (0 : ℚ) < den := by exact_mod_cast hd
  have divisor : (0 : ℚ) < (scaled 2 den e).1 := by
    rw [form]
    positivity
  have bounds (k : ℕ) := roundDiv_bounds (num * (scaled 2 den e).2) k
    (by exact_mod_cast divisor : 0 < (scaled 2 den e).1)
  have whole : ((leastSignificand : ℕ) : ℚ) = 2 ^ 52 := by norm_num [leastSignificand]
  have bits : roundDiv (num * (scaled 2 den e).2) (scaled 2 den e).1 ≤ 2 * leastSignificand := by
    apply (bounds _).2
    rw [← Nat.cast_lt (α := ℚ)]
    push_cast
    rw [form, whole]
    rw [div_lt_iff₀ den'] at below
    calc (num : ℚ) * (scaled 2 den e).2 < 2 ^ 53 * 2 ^ e * den * (scaled 2 den e).2 :=
          mul_lt_mul_of_pos_right below unit
      _ = 2 * 2 ^ 52 * (den * 2 ^ e * (scaled 2 den e).2) := by ring
  have normal : e = leastExponent ∨
      leastSignificand ≤ roundDiv (num * (scaled 2 den e).2) (scaled 2 den e).1 := by
    refine above.imp_right fun above => (bounds _).1 ?_
    rw [← Nat.cast_le (α := ℚ)]
    push_cast
    rw [form, whole]
    rw [le_div_iff₀ den'] at above
    calc (2 : ℚ) ^ 52 * (den * 2 ^ e * (scaled 2 den e).2)
        = 2 ^ 52 * 2 ^ e * den * (scaled 2 den e).2 := by ring
      _ ≤ (num : ℚ) * (scaled 2 den e).2 := mul_le_mul_of_nonneg_right above unit.le
  rw [ofRatio_eq negative hn exponent rfl]
  generalize roundDiv (num * (scaled 2 den e).2) (scaled 2 den e).1 = m at bits normal
  split
  · split
    · trivial
    · rename_i inRange
      exact ⟨by decide, by omega, not_lt.mp inRange, .inl (le_refl _)⟩
  · rename_i small
    split
    · trivial
    · rename_i inRange
      exact ⟨by omega, least, not_lt.mp inRange, normal.symm⟩

theorem canonical_ofInt (i : ℤ) : (ofInt i).Canonical :=
  canonical_ofRatio _ _ Nat.one_pos

theorem canonical_ofDecimal (negative : Bool) (digits : ℕ) (power : ℤ) :
    (ofDecimal negative digits power).Canonical := by
  simp only [ofDecimal]
  split
  · exact ⟨by decide, le_refl _, by decide, .inr rfl⟩
  split
  · trivial
  · exact canonical_ofRatio _ _ (scaled_pos (by decide) digits power)

end Binary64
end Flowgraph
