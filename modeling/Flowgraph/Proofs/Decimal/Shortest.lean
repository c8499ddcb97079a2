import Flowgraph.Proofs.Decimal.Rounding

/-!
# The search for the shortest decimal

The search ends at a decimal that rounds to the number. With seventeen digits the decimals
next to a number lie less than one of its own steps apart, so that one of the two is in the
interval of the number at the latest then.
-/
namespace Flowgraph.Binary64

variable {m num den : ℕ} {e : ℤ} {x : ℚ}

/-! ## The magnitude -/

theorem le_leadingZeros {fuel k : ℕ} (reached : den ≤ num * 10 ^ (k + fuel)) :
    den ≤ num * 10 ^ leadingZeros num den fuel k := by
  induction fuel generalizing k with
  | zero => exact reached
  | succ fuel ih =>
    unfold leadingZeros
    split
    · assumption
    · apply ih
      rwa [Nat.add_right_comm]

/-- A ratio has at least its magnitude, less one. -/
theorem magnitude_le (hd : 0 < den) (value : (num : ℚ) = x * den)
    (reached : den ≤ num * 10 ^ 400) : (10 : ℚ) ^ (magnitude num den - 1) ≤ x := by
  have hd' : (0 : ℚ) < den := by exact_mod_cast hd
  unfold magnitude
  split
  · rename_i whole
    have digits := pow_length_toDigits_le (Nat.div_pos whole hd)
    have count : (Nat.toDigits 10 (num / den)).length ≠ 0 := Nat.length_toDigits_pos.ne'
    obtain ⟨n, same⟩ := Nat.exists_eq_succ_of_ne_zero count
    rw [same] at digits ⊢
    have product : 10 ^ n * den ≤ num := (Nat.le_div_iff_mul_le hd).mp digits
    have product' : (10 : ℚ) ^ n * den ≤ x * den := by
      rw [← value]
      exact_mod_cast product
    have exponent : (Int.ofNat n.succ - 1 : ℤ) = n := by simp
    rw [exponent, zpow_natCast]
    exact le_of_mul_le_mul_right product' hd'
  · have zeros := le_leadingZeros (k := 0) ((Nat.zero_add 400).symm ▸ reached)
    generalize leadingZeros num den 400 0 = n at zeros ⊢
    have zeros' : (den : ℚ) ≤ x * den * 10 ^ n := by
      rw [← value]
      exact_mod_cast zeros
    have exponent : (1 - Int.ofNat n - 1 : ℤ) = -(n : ℤ) := by
      rw [Int.ofNat_eq_natCast]
      omega
    have ten : (0 : ℚ) < 10 ^ n := by positivity
    rw [exponent, zpow_neg, zpow_natCast, inv_le_iff_one_le_mul₀ ten]
    apply le_of_mul_le_mul_right _ hd'
    linarith

/-! ## The search -/

/-- Of two neighbouring multiples of a small step around a number one rounds to it. -/
theorem roundsTo_neighbour {t lo : ℚ} (positive : 0 < m) (bits : m < 2 * leastSignificand)
    (step : 0 < t) (small : 10 ^ 16 * t ≤ m * 2 ^ e) (below : lo * t ≤ m * 2 ^ e)
    (above : m * 2 ^ e < (lo + 1) * t) :
    RoundsTo (lo * t) m e ∨ RoundsTo ((lo + 1) * t) m e := by
  have quarter : (0 : ℚ) < 2 ^ (e - 2) := by positivity
  have bits' := succ_significand_le bits
  rw [quarter_eq e] at small below above
  have upper : ((4 * m + 2 : ℕ) : ℚ) = 4 * m + 2 := by push_cast; ring
  by_cases inside : (lowerQuarters m e : ℚ) * 2 ^ (e - 2) < lo * t
  · left
    have high : lo * t < ((4 * m + 2 : ℕ) : ℚ) * 2 ^ (e - 2) := by
      rw [upper]
      linarith
    exact ⟨inside.le, high.le, .inr ⟨inside, high⟩⟩
  · right
    have lower : (lowerQuarters m e : ℚ) ≤ 4 * m := by
      have whole : lowerQuarters m e ≤ 4 * m := by
        unfold lowerQuarters
        split <;> omega
      exact_mod_cast whole
    have low : (lowerQuarters m e : ℚ) * 2 ^ (e - 2) < (lo + 1) * t := by nlinarith
    have high : (lo + 1) * t < ((4 * m + 2 : ℕ) : ℚ) * 2 ^ (e - 2) := by
      -- The step is shorter than the interval.
      have short : t < (4 * m + 2 - lowerQuarters m e) * 2 ^ (e - 2) := by
        by_cases edge : m = leastSignificand ∧ leastExponent < e
        · have quarters : (lowerQuarters m e : ℚ) = 4 * m - 1 := by
            have whole : lowerQuarters m e + 1 = 4 * m := by
              simp [lowerQuarters, edge, leastSignificand]
            have whole' : (lowerQuarters m e : ℚ) + 1 = 4 * m := by exact_mod_cast whole
            linarith
          have exact : (m : ℚ) = 2 ^ 52 := by
            rw [edge.1]
            norm_num [leastSignificand]
          rw [quarters]
          rw [exact] at small
          linarith
        · have quarters : (lowerQuarters m e : ℚ) = 4 * m - 2 := by
            have whole : lowerQuarters m e + 2 = 4 * m := by
              unfold lowerQuarters
              rw [if_neg (by simpa using edge)]
              omega
            have whole' : (lowerQuarters m e : ℚ) + 2 = 4 * m := by exact_mod_cast whole
            linarith
          rw [quarters]
          nlinarith
      rw [upper]
      linarith
    exact ⟨low.le, high.le, .inr ⟨low, high⟩⟩

/-- The multiple of a power of ten just below a ratio, as the search computes it. -/
def quotient (num den : ℕ) (q : ℤ) : ℕ :=
  num * (scaled 10 1 q).2 / (den * (scaled 10 1 q).1)

theorem quotient_bounds (hd : 0 < den) (value : (num : ℚ) = x * den) (q : ℤ) :
    (quotient num den q : ℚ) * 10 ^ q ≤ x ∧ x < ((quotient num den q : ℚ) + 1) * 10 ^ q := by
  have unit := scaled_pos (show 0 < 10 by decide) 1 q
  have form := scaled_eq (show 0 < 10 by decide) 1 q
  unfold quotient
  generalize (scaled 10 1 q).1 = u at form ⊢
  generalize (scaled 10 1 q).2 = v at form unit ⊢
  have hd' : (0 : ℚ) < den := by exact_mod_cast hd
  have unit' : (0 : ℚ) < v := by exact_mod_cast unit
  push_cast at form
  have ten : (0 : ℚ) < 10 ^ q := by positivity
  have above : 0 < u := by
    have above : (0 : ℚ) < u := by
      rw [form]
      positivity
    exact_mod_cast above
  have low := Nat.div_mul_le_self (num * v) (den * u)
  have high := Nat.lt_div_mul_add (a := num * v) (Nat.mul_pos hd above)
  generalize num * v / (den * u) = lo at low high ⊢
  have common : (0 : ℚ) < den * v := mul_pos hd' unit'
  have low' : (lo : ℚ) * (den * u) ≤ num * v := by exact_mod_cast low
  have high' : (num : ℚ) * v < lo * (den * u) + den * u := by exact_mod_cast high
  rw [form, value] at low' high'
  constructor
  · apply le_of_mul_le_mul_right _ common
    linarith
  · apply lt_of_mul_lt_mul_right _ common.le
    linarith

/-- The value of a decimal. -/
def decimal (d : ℕ × ℤ) : ℚ :=
  d.1 * 10 ^ d.2

/-- One step of the search, by which of the two decimals next to the number round to it. -/
theorem searchDigits_step (m : ℕ) (e : ℤ) (num den : ℕ) (p : ℤ) (fuel count : ℕ) :
    searchDigits m e num den p (fuel + 1) count =
      match readsBack m e (quotient num den (p - count)) (p - count),
          readsBack m e (quotient num den (p - count) + 1) (p - count) with
      | false, false => searchDigits m e num den p fuel (count + 1)
      | true, false => (quotient num den (p - count), p - count)
      | false, true => (quotient num den (p - count) + 1, p - count)
      | true, true =>
        match compare (2 * (num * (scaled 10 1 (p - count)).2 -
            quotient num den (p - count) * (den * (scaled 10 1 (p - count)).1)))
            (den * (scaled 10 1 (p - count)).1) with
        | .lt => (quotient num den (p - count), p - count)
        | .gt => (quotient num den (p - count) + 1, p - count)
        | .eq =>
          (if quotient num den (p - count) % 2 == 0 then quotient num den (p - count)
            else quotient num den (p - count) + 1, p - count) := rfl

/-- One step of the search: it ends with a decimal that rounds to the number, or neither of the
two decimals next to the number does. -/
theorem searchDigits_succ (m : ℕ) (e : ℤ) (num den : ℕ) (p : ℤ) (fuel count : ℕ) :
    RoundsTo (decimal (searchDigits m e num den p (fuel + 1) count)) m e ∨
    ¬RoundsTo ((quotient num den (p - count) : ℚ) * 10 ^ (p - count)) m e ∧
      ¬RoundsTo (((quotient num den (p - count) : ℚ) + 1) * 10 ^ (p - count)) m e ∧
      searchDigits m e num den p (fuel + 1) count =
        searchDigits m e num den p fuel (count + 1) := by
  have next : ((quotient num den (p - count) : ℚ) + 1) * 10 ^ (p - count) =
      ((quotient num den (p - count) + 1 : ℕ) : ℚ) * 10 ^ (p - count) := by push_cast; rfl
  rw [next, ← readsBack_iff, ← readsBack_iff]
  rw [searchDigits_step]
  cases below : readsBack m e (quotient num den (p - count)) (p - count) with
  | false =>
    cases above : readsBack m e (quotient num den (p - count) + 1) (p - count) with
    | false => exact .inr ⟨Bool.false_ne_true, Bool.false_ne_true, rfl⟩
    | true => exact .inl (readsBack_iff.mp above)
  | true =>
    left
    have lower := readsBack_iff.mp below
    cases above : readsBack m e (quotient num den (p - count) + 1) (p - count) with
    | false => exact lower
    | true =>
      have upper := readsBack_iff.mp above
      dsimp only
      split
      · exact lower
      · exact upper
      · split
        · exact lower
        · exact upper

/-- What the search finds rounds to the number. -/
theorem roundsTo_searchDigits {p : ℤ} (hd : 0 < den) (value : (num : ℚ) = m * 2 ^ e * den)
    (positive : 0 < m) (bits : m < 2 * leastSignificand)
    (least : (10 : ℚ) ^ (p - 1) ≤ m * 2 ^ e) {fuel count : ℕ} (few : count ≤ 17)
    (enough : fuel + count = 18) :
    RoundsTo (decimal (searchDigits m e num den p fuel count)) m e := by
  induction fuel generalizing count with
  | zero => omega
  | succ fuel ih =>
    rcases searchDigits_succ m e num den p fuel count with found | ⟨lower, upper, onward⟩
    · exact found
    · have more : count ≠ 17 := by
        rintro rfl
        obtain ⟨low, high⟩ := quotient_bounds hd value (p - (17 : ℕ))
        have small : (10 : ℚ) ^ 16 * 10 ^ (p - (17 : ℕ)) ≤ m * 2 ^ e := by
          rw [← zpow_natCast, ← zpow_add₀ (by norm_num)]
          rwa [show ((16 : ℕ) : ℤ) + (p - (17 : ℕ)) = p - 1 by push_cast; ring]
        rcases roundsTo_neighbour positive bits (by positivity) small low high with found | found
        · exact lower found
        · exact upper found
      rw [onward]
      exact ih (by omega) (by omega)

theorem roundsTo_itself (positive : 0 < m) (e : ℤ) : RoundsTo ((m : ℚ) * 2 ^ e) m e := by
  have quarter : (0 : ℚ) < 2 ^ (e - 2) := by positivity
  have whole : lowerQuarters m e + 1 ≤ 4 * m := by
    unfold lowerQuarters
    split <;> omega
  have whole' : (lowerQuarters m e : ℚ) + 1 ≤ 4 * m := by exact_mod_cast whole
  have low : (lowerQuarters m e : ℚ) * 2 ^ (e - 2) < m * 2 ^ e := by
    rw [quarter_eq e]
    nlinarith
  have high : (m : ℚ) * 2 ^ e < ((4 * m + 2 : ℕ) : ℚ) * 2 ^ (e - 2) := by
    rw [quarter_eq e]
    push_cast
    nlinarith
  exact ⟨low.le, high.le, .inr ⟨low, high⟩⟩

/-- The shortest decimal of a number rounds to it. -/
theorem roundsTo_shortest {negative : Bool} (positive : 0 < m)
    (canonical : (finite negative m e).Canonical) :
    RoundsTo (decimal (shortest m e)) m e := by
  have hd := scaled_pos (show 0 < 2 by decide) m e
  have value := scaled_eq (show 0 < 2 by decide) m e
  push_cast at value
  have hd' : (0 : ℚ) < (scaled 2 m e).2 := by exact_mod_cast hd
  have reached : (scaled 2 m e).2 ≤ (scaled 2 m e).1 * 10 ^ 400 := by
    obtain ⟨low, _⟩ := (roundsTo_itself positive e).range positive canonical
    have ten : (0 : ℚ) < (10 : ℚ) ^ 400 := by positivity
    have inverse : ((10 : ℚ) ^ 400)⁻¹ ≤ m * 2 ^ e := low
    have one : 1 ≤ (m : ℚ) * 2 ^ e * 10 ^ 400 := (inv_le_iff_one_le_mul₀ ten).mp inverse
    have product : ((scaled 2 m e).2 : ℚ) ≤ (scaled 2 m e).1 * 10 ^ 400 := by
      rw [value]
      calc ((scaled 2 m e).2 : ℚ) = 1 * (scaled 2 m e).2 := (one_mul _).symm
        _ ≤ (m : ℚ) * 2 ^ e * 10 ^ 400 * (scaled 2 m e).2 :=
          mul_le_mul_of_nonneg_right one hd'.le
        _ = (m : ℚ) * 2 ^ e * (scaled 2 m e).2 * 10 ^ 400 := mul_right_comm _ _ _
    exact_mod_cast product
  exact roundsTo_searchDigits hd value positive canonical.1
    (magnitude_le hd value reached) (by decide) rfl

end Flowgraph.Binary64
