import Flowgraph.Json.Reader
import Flowgraph.Json.Writer
import Flowgraph.Proofs.Decimal.Shortest
import Flowgraph.Proofs.Text.NumberText

/-!
# Reading numbers back

The text of a number is read as this number, whatever follows it, if that does not go on
like a number. An integer is written with all its digits. A binary number is written in one
of four forms that stand for its shortest decimal, which rounds to it.
-/
namespace Flowgraph.Json

open Text (digitsValue)

/-- What follows a number and does not belong to it. -/
def NumberEnds : List Char → Prop
  | [] => True
  | c :: _ => c.isDigit = false ∧ c ≠ '.' ∧ c ≠ 'e' ∧ c ≠ 'E'

def DigitsEnd : List Char → Prop
  | [] => True
  | c :: _ => c.isDigit = false

def AllDigits (s : List Char) : Prop :=
  ∀ c ∈ s, c.isDigit = true

variable {s t rest : List Char}

theorem NumberEnds.digitsEnd (ends : NumberEnds rest) : DigitsEnd rest := by
  cases rest with
  | nil => trivial
  | cons c rest => exact ends.1

/-! ## Digits -/

theorem digitsValue_eq (s : List Char) : digitsValue s = Nat.ofDigitChars 10 s 0 := by
  rw [Nat.ofDigitChars_eq_foldl, digitsValue]
  congr 1
  funext n c
  rw [Nat.mul_comm]
  rfl

theorem digitsValue_toDigits (n : Nat) : digitsValue (Nat.toDigits 10 n) = n := by
  rw [digitsValue_eq, Nat.ofDigitChars_ten_toDigits]

theorem digitsValue_append (s t : List Char) :
    digitsValue (s ++ t) = digitsValue s * 10 ^ t.length + digitsValue t := by
  simp only [digitsValue_eq, Nat.ofDigitChars_append]
  rw [Nat.ofDigitChars_eq_ofDigitChars_zero, Nat.mul_comm]

theorem digitsValue_zeros (n : Nat) : digitsValue (Binary64.zeros n) = 0 := by
  rw [digitsValue_eq, Binary64.zeros, Nat.ofDigitChars_replicate_zero, Nat.mul_zero]

theorem digitsValue_zeros_append (n : Nat) (s : List Char) :
    digitsValue (Binary64.zeros n ++ s) = digitsValue s := by
  rw [digitsValue_append, digitsValue_zeros, Nat.zero_mul, Nat.zero_add]

theorem digitsValue_append_zeros (s : List Char) (n : Nat) :
    digitsValue (s ++ Binary64.zeros n) = digitsValue s * 10 ^ n := by
  rw [digitsValue_append, digitsValue_zeros, Nat.add_zero, Binary64.zeros, List.length_replicate]

theorem allDigits_toDigits (n : Nat) : AllDigits (Nat.toDigits 10 n) :=
  fun _ hc => Nat.isDigit_of_mem_toDigits (by decide) (by decide) hc

theorem allDigits_zeros (n : Nat) : AllDigits (Binary64.zeros n) := by
  intro c hc
  rw [List.eq_of_mem_replicate hc]
  decide

theorem AllDigits.append (first : AllDigits s) (second : AllDigits t) : AllDigits (s ++ t) := by
  intro c hc
  rcases List.mem_append.mp hc with hc | hc
  · exact first c hc
  · exact second c hc

theorem AllDigits.takeWhile (digits : AllDigits s) (ends : DigitsEnd rest) :
    (s ++ rest).takeWhile Char.isDigit = s := by
  rw [List.takeWhile_append_of_pos digits]
  cases rest with
  | nil => simp
  | cons c rest =>
    have stop : c.isDigit = false := ends
    simp [stop]

theorem AllDigits.dropWhile (digits : AllDigits s) (ends : DigitsEnd rest) :
    (s ++ rest).dropWhile Char.isDigit = rest := by
  rw [List.dropWhile_append_of_pos digits]
  cases rest with
  | nil => simp
  | cons c rest =>
    have stop : c.isDigit = false := ends
    simp [stop]

/-- The digits of an integer: a zero, or digits that do not begin with a zero. -/
def WholeDigits (s : List Char) : Prop :=
  s = ['0'] ∨ ∃ c more, s = c :: more ∧ c ≠ '0' ∧ c.isDigit = true ∧ AllDigits more

theorem toDigits_head {n : Nat} (positive : 0 < n) :
    ∃ c more, Nat.toDigits 10 n = c :: more ∧ c ≠ '0' := by
  induction n using Nat.strongRecOn with
  | ind n ih =>
    rw [Nat.toDigits_eq_if (by decide)]
    split
    · rename_i small
      refine ⟨_, [], rfl, ?_⟩
      have digit : ∀ d < 10, 0 < d → d.digitChar ≠ '0' := by decide
      exact digit n small positive
    · obtain ⟨c, more, written, other⟩ := ih (n / 10) (by omega) (by omega)
      exact ⟨c, more ++ [(n % 10).digitChar], by rw [written]; rfl, other⟩

theorem wholeDigits_toDigits (n : Nat) : WholeDigits (Nat.toDigits 10 n) := by
  rcases Nat.eq_zero_or_pos n with rfl | positive
  · exact .inl rfl
  · obtain ⟨c, more, written, other⟩ := toDigits_head positive
    have digits := allDigits_toDigits n
    rw [written] at digits
    exact .inr ⟨c, more, written, other, digits c List.mem_cons_self,
      fun d hd => digits d (List.mem_cons_of_mem c hd)⟩

/-! ## The parts of a number -/

theorem readWhole_append (whole : WholeDigits s) (ends : DigitsEnd rest) :
    readWhole (s ++ rest) = some (s, rest) := by
  rcases whole with rfl | ⟨c, more, rfl, other, digit, digits⟩
  · rfl
  · rw [List.cons_append, readWhole, digits.takeWhile ends, digits.dropWhile ends]
    simp [other, digit]

theorem readFraction_append (digits : AllDigits s) (nonempty : s ≠ []) (ends : DigitsEnd rest) :
    readFraction ('.' :: (s ++ rest)) = (s, rest) := by
  rw [readFraction, digits.takeWhile ends, digits.dropWhile ends]
  cases s with
  | nil => exact False.elim (nonempty rfl)
  | cons c s => rfl

theorem readFraction_none (other : ∀ more, rest ≠ '.' :: more) :
    readFraction rest = ([], rest) := by
  unfold readFraction
  split
  · rename_i more
    exact False.elim (other more rfl)
  · rfl

theorem NumberEnds.readFraction (ends : NumberEnds rest) : readFraction rest = ([], rest) := by
  apply readFraction_none
  rintro more rfl
  exact ends.2.1 rfl

theorem NumberEnds.readExponent (ends : NumberEnds rest) : readExponent rest = (none, rest) := by
  cases rest with
  | nil => rfl
  | cons c rest => simp [Json.readExponent, ends.2.2.1, ends.2.2.2]

theorem readExponent_append (digits : AllDigits s) (nonempty : s ≠ []) (ends : DigitsEnd rest)
    (negative : Bool) :
    readExponent ('e' :: (if negative then '-' else '+') :: (s ++ rest)) =
      (some (if negative then -Int.ofNat (digitsValue s) else Int.ofNat (digitsValue s)),
        rest) := by
  obtain ⟨c, more, rfl⟩ := List.exists_cons_of_ne_nil nonempty
  have taken := digits.takeWhile ends
  have dropped := digits.dropWhile ends
  rw [List.cons_append] at taken dropped ⊢
  cases negative <;> simp [Json.readExponent, taken, dropped]

/-- An unsigned number that consists of its three parts. -/
theorem readNumber_eq {whole fraction : List Char} {exponent : Option Int} {s s₁ s₂ : List Char}
    (negative : Bool) (first : readWhole s = some (whole, s₁))
    (second : readFraction s₁ = (fraction, s₂)) (third : readExponent s₂ = (exponent, rest)) :
    readNumber negative s =
      if fraction.isEmpty && exponent.isNone then
        some (int (if negative then -Int.ofNat (digitsValue whole)
          else Int.ofNat (digitsValue whole)), rest)
      else
        some (float (Binary64.ofDecimal negative (digitsValue (whole ++ fraction))
          (exponent.getD 0 - Int.ofNat fraction.length)), rest) := by
  simp only [readNumber, first, Option.bind_eq_bind, Option.bind_some, second, third]
  split <;> rfl

theorem readNumber_int (negative : Bool) (n : Nat) (ends : NumberEnds rest) :
    readNumber negative (Nat.toDigits 10 n ++ rest) =
      some (int (if negative then -Int.ofNat n else Int.ofNat n), rest) := by
  rw [readNumber_eq negative (readWhole_append (wholeDigits_toDigits n) ends.digitsEnd)
    ends.readFraction ends.readExponent, digitsValue_toDigits]
  rfl

/-- A number with a decimal point and no exponent. -/
theorem readNumber_point (negative : Bool) (whole : WholeDigits s) (digits : AllDigits t)
    (nonempty : t ≠ []) (ends : NumberEnds rest) :
    readNumber negative (s ++ '.' :: (t ++ rest)) =
      some (float (Binary64.ofDecimal negative (digitsValue (s ++ t)) (-Int.ofNat t.length)),
        rest) := by
  have point : DigitsEnd ('.' :: (t ++ rest)) := rfl
  rw [readNumber_eq negative (readWhole_append whole point)
    (readFraction_append digits nonempty ends.digitsEnd) ends.readExponent]
  simp [nonempty]

/-- The exponent as it is written, with a sign and filled up with zeros. -/
theorem readExponent_written (power : Int) (zeros : Nat) (ends : NumberEnds rest) :
    readExponent ('e' :: (if power < 0 then '-' else '+') ::
      (Binary64.zeros zeros ++ Nat.toDigits 10 power.natAbs ++ rest)) = (some power, rest) := by
  have digits := (allDigits_zeros zeros).append (allDigits_toDigits power.natAbs)
  have nonempty : Binary64.zeros zeros ++ Nat.toDigits 10 power.natAbs ≠ [] := by
    simp [Nat.toDigits_ne_nil]
  have reading := readExponent_append digits nonempty ends.digitsEnd (decide (power < 0))
  rw [digitsValue_zeros_append, digitsValue_toDigits] at reading
  by_cases below : power < 0
  · simp only [below, decide_true, if_true] at reading ⊢
    rw [reading, Int.ofNat_eq_natCast, Int.ofNat_natAbs_of_nonpos below.le, Int.neg_neg]
  · simp only [below, decide_false, if_false, Bool.false_eq_true] at reading ⊢
    rw [reading, Int.ofNat_eq_natCast, Int.natAbs_of_nonneg (Int.not_lt.mp below)]

/-! ## The forms of a binary number -/

/-- A text is read, up to what follows it, as the binary number that a decimal of some value
is rounded to. -/
def ReadAs (negative : Bool) (s rest : List Char) (value : ℚ) : Prop :=
  ∃ d p, readNumber negative (s ++ rest) = some (float (Binary64.ofDecimal negative d p), rest) ∧
    (d : ℚ) * 10 ^ p = value

theorem readAs_point (negative : Bool) (whole : WholeDigits s) (digits : AllDigits t)
    (nonempty : t ≠ []) (ends : NumberEnds rest) :
    ReadAs negative (s ++ '.' :: t) rest (digitsValue (s ++ t) * 10 ^ (-Int.ofNat t.length)) := by
  refine ⟨_, _, ?_, rfl⟩
  rw [List.append_assoc, List.cons_append]
  exact readNumber_point negative whole digits nonempty ends

section Forms

variable {c : Char} {more : List Char}

/-- A digit, the other digits behind a decimal point if there are any, and an exponent. -/
theorem readAs_power (negative : Bool) (other : c ≠ '0') (digits : AllDigits (c :: more))
    (power : Int) (zeros : Nat) (ends : NumberEnds rest) :
    ReadAs negative ((match c :: more with
        | first :: second :: rest => first :: '.' :: second :: rest
        | short => short) ++ 'e' :: (if power < 0 then '-' else '+') ::
          (Binary64.zeros zeros ++ Nat.toDigits 10 power.natAbs)) rest
      (digitsValue (c :: more) * 10 ^ (power - more.length)) := by
  refine ⟨digitsValue (c :: more), power - more.length, ?_, rfl⟩
  have digit : c.isDigit = true := digits c List.mem_cons_self
  have whole : WholeDigits [c] :=
    .inr ⟨c, [], rfl, other, digit, fun _ hd => False.elim (List.not_mem_nil hd)⟩
  have exponent := readExponent_written power zeros ends
  rw [List.append_assoc, List.cons_append, List.cons_append]
  generalize (if power < 0 then '-' else '+') :: (Binary64.zeros zeros ++
    Nat.toDigits 10 power.natAbs ++ rest) = tail at exponent ⊢
  have stop : DigitsEnd ('e' :: tail) := rfl
  cases more with
  | nil =>
    have none : readFraction ('e' :: tail) = ([], 'e' :: tail) :=
      readFraction_none fun _ same => by cases same
    exact readNumber_eq negative (readWhole_append whole stop) none exponent
  | cons d more =>
    have point : DigitsEnd ('.' :: (d :: more ++ 'e' :: tail)) := rfl
    have fraction : AllDigits (d :: more) := fun x hx => digits x (List.mem_cons_of_mem c hx)
    have read := readNumber_eq negative (readWhole_append whole point)
      (readFraction_append fraction (List.cons_ne_nil d more) stop) exponent
    simp only [List.isEmpty_cons, Bool.false_and, Bool.false_eq_true, if_false] at read
    exact read

/-- All digits behind the decimal point, with zeros before them. -/
theorem readAs_small (negative : Bool) (digits : AllDigits (c :: more)) {power : Int}
    (below : power < 0) (ends : NumberEnds rest) :
    ReadAs negative ('0' :: '.' :: (Binary64.zeros ((-power).toNat - 1) ++ c :: more)) rest
      (digitsValue (c :: more) * 10 ^ (power - more.length)) := by
  have reading := readAs_point negative (.inl rfl)
    ((allDigits_zeros ((-power).toNat - 1)).append digits) (by simp) ends
  have value : digitsValue (['0'] ++ (Binary64.zeros ((-power).toNat - 1) ++ c :: more)) =
      digitsValue (c :: more) :=
    (digitsValue_zeros_append 1 _).trans (digitsValue_zeros_append _ _)
  have exponent : -Int.ofNat (Binary64.zeros ((-power).toNat - 1) ++ (c :: more)).length =
      power - more.length := by
    simp [Binary64.zeros]
    omega
  rwa [value, exponent] at reading

/-- All digits before the decimal point, with zeros behind them. -/
theorem readAs_large (negative : Bool) (other : c ≠ '0') (digits : AllDigits (c :: more))
    {power : Int} (above : ¬power < 0) (few : (c :: more).length ≤ power.toNat + 1)
    (ends : NumberEnds rest) :
    ReadAs negative
      (c :: more ++ Binary64.zeros (power.toNat + 1 - (c :: more).length) ++ ['.', '0']) rest
      (digitsValue (c :: more) * 10 ^ (power - more.length)) := by
  rw [List.length_cons] at few
  have further : AllDigits more := fun x hx => digits x (List.mem_cons_of_mem c hx)
  obtain ⟨n, hn⟩ : ∃ n : Nat, power.toNat + 1 - (c :: more).length = n := ⟨_, rfl⟩
  have count : power - more.length = n := by
    rw [List.length_cons] at hn
    omega
  rw [hn, count]
  have whole : WholeDigits (c :: more ++ Binary64.zeros n) :=
    .inr ⟨c, _, rfl, other, digits c List.mem_cons_self, further.append (allDigits_zeros n)⟩
  have zero : AllDigits ['0'] := allDigits_zeros 1
  have reading := readAs_point negative whole zero (List.cons_ne_nil _ _) ends
  have value : digitsValue (c :: more ++ Binary64.zeros n ++ ['0']) =
      digitsValue (c :: more) * 10 ^ n * 10 ^ 1 := by
    rw [← digitsValue_append_zeros, ← digitsValue_append_zeros]
    rfl
  rw [value] at reading
  convert reading using 1
  push_cast
  rw [zpow_natCast, List.length_singleton, Int.ofNat_eq_natCast, Nat.cast_one, zpow_neg, zpow_one]
  ring

/-- Digits on both sides of the decimal point. -/
theorem readAs_mixed (negative : Bool) (other : c ≠ '0') (digits : AllDigits (c :: more))
    {power : Int} (above : ¬power < 0) (many : ¬(c :: more).length ≤ power.toNat + 1)
    (ends : NumberEnds rest) :
    ReadAs negative
      ((c :: more).take (power.toNat + 1) ++ '.' :: (c :: more).drop (power.toNat + 1)) rest
      (digitsValue (c :: more) * 10 ^ (power - more.length)) := by
  have whole : WholeDigits ((c :: more).take (power.toNat + 1)) :=
    .inr ⟨c, more.take power.toNat, rfl, other, digits c List.mem_cons_self,
      fun x hx => digits x (List.mem_cons_of_mem c (List.mem_of_mem_take hx))⟩
  have fraction : AllDigits ((c :: more).drop (power.toNat + 1)) :=
    fun x hx => digits x (List.mem_of_mem_drop hx)
  have nonempty : (c :: more).drop (power.toNat + 1) ≠ [] := by
    rw [Ne, List.drop_eq_nil_iff]
    exact many
  have reading := readAs_point negative whole fraction nonempty ends
  have exponent : -Int.ofNat ((c :: more).drop (power.toNat + 1)).length =
      power - more.length := by
    simp at many ⊢
    omega
  rwa [List.take_append_drop, exponent] at reading

/-- However a decimal is written, it is read as a decimal of the same value. -/
theorem readAs_writeDigits (negative : Bool) (other : c ≠ '0') (digits : AllDigits (c :: more))
    (power : Int) (ends : NumberEnds rest) :
    ReadAs negative (Binary64.writeDigits Binary64.layout (c :: more) power) rest
      (digitsValue (c :: more) * 10 ^ (power - more.length)) := by
  unfold Binary64.writeDigits
  split
  · exact readAs_power negative other digits power _ ends
  · split
    · exact readAs_small negative digits (by assumption) ends
    · dsimp only
      split
      · exact readAs_large negative other digits (by assumption) (by assumption) ends
      · exact readAs_mixed negative other digits (by assumption) (by assumption) ends

end Forms

/-! ## Numbers -/

theorem dropTrailingZeros_append (s : List Char) :
    ∃ n, s = Binary64.dropTrailingZeros s ++ Binary64.zeros n := by
  refine ⟨(s.reverse.takeWhile (· == '0')).length, ?_⟩
  have zeros : (s.reverse.takeWhile (· == '0')).reverse =
      Binary64.zeros (s.reverse.takeWhile (· == '0')).length := by
    rw [Binary64.zeros, List.eq_replicate_iff]
    refine ⟨List.length_reverse, fun c hc => ?_⟩
    have zero := List.all_eq_true.mp List.all_takeWhile c (List.mem_reverse.mp hc)
    exact beq_iff_eq.mp zero
  rw [← zeros, Binary64.dropTrailingZeros, ← List.reverse_append, List.takeWhile_append_dropWhile,
    List.reverse_reverse]

/-- Without its trailing zeros a decimal has the same value at a higher power of ten. -/
theorem significantDigits {n : Nat} (positive : 0 < n) :
    ∃ c more k, Binary64.dropTrailingZeros (Nat.toDigits 10 n) = c :: more ∧ c ≠ '0' ∧
      AllDigits (c :: more) ∧ (Nat.toDigits 10 n).length = more.length + 1 + k ∧
      n = digitsValue (c :: more) * 10 ^ k := by
  obtain ⟨k, split⟩ := dropTrailingZeros_append (Nat.toDigits 10 n)
  obtain ⟨c, more, written, other⟩ := toDigits_head positive
  have value := digitsValue_toDigits n
  have digits := allDigits_toDigits n
  cases kept : Binary64.dropTrailingZeros (Nat.toDigits 10 n) with
  | nil =>
    -- Only zeros would be left, but the first digit is none.
    rw [kept, List.nil_append] at split
    rw [split, digitsValue_zeros] at value
    omega
  | cons d rest =>
    rw [kept] at split
    rw [written] at split
    obtain ⟨rfl, _⟩ := List.cons.inj split
    rw [written, split] at value digits
    refine ⟨c, rest, k, rfl, other, fun x hx => digits x (List.mem_append_left _ hx), ?_, ?_⟩
    · rw [written, split, List.length_append, Binary64.zeros, List.length_replicate]
      rfl
    · rw [← value, digitsValue_append_zeros]

/-- A positive number is read back from its text without a sign. -/
theorem readNumber_write (negative : Bool) {m : Nat} {e : Int} (positive : 0 < m)
    (canonical : (Binary64.finite negative m e).Canonical) (ends : NumberEnds rest) :
    readNumber negative (Binary64.writeDigits Binary64.layout
        (Binary64.dropTrailingZeros (Nat.toDigits 10 (Binary64.shortest m e).1))
        ((Binary64.shortest m e).2 +
          Int.ofNat (Nat.toDigits 10 (Binary64.shortest m e).1).length - 1) ++ rest) =
      some (float (.finite negative m e), rest) := by
  have rounds := Binary64.roundsTo_shortest positive canonical
  generalize (Binary64.shortest m e) = decimal at rounds ⊢
  obtain ⟨n, q⟩ := decimal
  have ten : (0 : ℚ) < 10 ^ q := by positivity
  have some : 0 < n := by
    have above : (0 : ℚ) < n := pos_of_mul_pos_left (rounds.pos positive) ten.le
    exact_mod_cast above
  obtain ⟨c, more, k, kept, other, digits, length, value⟩ := significantDigits some
  obtain ⟨d, p, read, same⟩ := readAs_writeDigits negative other digits
    (q + Int.ofNat (Nat.toDigits 10 n).length - 1) ends
  dsimp only
  rw [kept, read]
  have equal : (d : ℚ) * 10 ^ p = Binary64.decimal (n, q) := by
    have exponent : q + Int.ofNat (Nat.toDigits 10 n).length - 1 - more.length = q + k := by
      rw [length, Int.ofNat_eq_natCast]
      push_cast
      ring
    have number : ((n : Nat) : ℚ) = digitsValue (c :: more) * 10 ^ k := by exact_mod_cast value
    rw [same, exponent, Binary64.decimal, number, zpow_add₀ (by norm_num), zpow_natCast]
    ring
  rw [← equal] at rounds
  rw [Binary64.ofDecimal_of_roundsTo positive canonical rounds]

/-! ## Numbers and words -/

theorem digit_of_readNumber {negative : Bool} {found : Json × List Char}
    (read : readNumber negative s = some found) : ∃ c more, s = c :: more ∧ c.isDigit = true := by
  cases s with
  | nil => cases read
  | cons c more =>
    refine ⟨c, more, rfl, ?_⟩
    by_contra other
    have zero : c ≠ '0' := by
      rintro rfl
      exact other rfl
    have none : readWhole (c :: more) = none := by simp [readWhole, zero, other]
    simp [readNumber, none] at read

/-- No word begins with a digit, or with a sign and a digit. -/
theorem no_word {c : Char} (digit : c.isDigit = true) (more : List Char) :
    (words.findSome? fun (word, v) => (afterWord word (c :: more)).map (v, ·)) = none ∧
    (words.findSome? fun (word, v) => (afterWord word ('-' :: c :: more)).map (v, ·)) = none := by
  have other (d : Char) (letter : d.isDigit = false) : d ≠ c := by
    rintro rfl
    rw [digit] at letter
    cases letter
  constructor
  · simp [words, afterWord, other 'n' rfl, other 't' rfl, other 'f' rfl, other 'N' rfl,
      other 'I' rfl, other '-' rfl]
  · simp [words, afterWord, other 'I' rfl]

theorem readScalar_of_readNumber {negative : Bool} {found : Json × List Char}
    (read : readNumber negative s = some found) :
    readScalar (if negative then '-' :: s else s) = some found := by
  obtain ⟨c, more, rfl, digit⟩ := digit_of_readNumber read
  obtain ⟨positive, signed⟩ := no_word digit more
  have plain : c ≠ '-' := by
    rintro rfl
    cases digit
  cases negative with
  | true =>
    rw [if_pos rfl, readScalar, signed]
    exact read
  | false =>
    rw [if_neg Bool.false_ne_true, readScalar, positive]
    · exact read
    · intro rest same
      exact plain (List.cons.inj same).1

theorem readScalar_int (i : Int) (ends : NumberEnds rest) :
    readScalar ((toString i).toList ++ rest) = some (int i, rest) := by
  rw [Int.toString_eq_repr, Int.repr_eq_if]
  split
  · rename_i above
    rw [Nat.toList_repr]
    have read := readScalar_of_readNumber (readNumber_int false i.toNat ends)
    have value : (Int.ofNat i.toNat : Int) = i := Int.toNat_of_nonneg above
    simp only [Bool.false_eq_true, if_false, value] at read
    exact read
  · rename_i below
    rw [String.toList_append, Nat.toList_repr]
    have read := readScalar_of_readNumber (readNumber_int true (-i).toNat ends)
    have value : -(Int.ofNat (-i).toNat : Int) = i := by
      rw [Int.ofNat_eq_natCast, Int.toNat_of_nonneg (by omega), Int.neg_neg]
    simp only [if_true, value] at read
    exact read

/-- Every number is read back from its text, the infinities and not-a-number included. -/
theorem readScalar_float {x : Binary64} (canonical : x.Canonical) (ends : NumberEnds rest) :
    readScalar (writeFloat x ++ rest) = some (float x, rest) := by
  cases x with
  | nan => rfl
  | infinity negative => cases negative <;> rfl
  | finite negative m e =>
    obtain ⟨body, written, read⟩ : ∃ body,
        writeFloat (.finite negative m e) = (if negative then '-' :: body else body) ∧
        readNumber negative (body ++ rest) = some (float (.finite negative m e), rest) := by
      cases m with
      | zero =>
        obtain rfl : e = Binary64.leastExponent :=
          canonical.2.2.2.resolve_left (by decide)
        have zero : AllDigits ['0'] := allDigits_zeros 1
        exact ⟨['0', '.', '0'], rfl,
          readNumber_point negative (.inl rfl) zero (List.cons_ne_nil _ _) ends⟩
      | succ m => exact ⟨_, rfl, readNumber_write negative (Nat.succ_pos m) canonical ends⟩
    have scalar := readScalar_of_readNumber read
    rw [written]
    cases negative <;> exact scalar

end Flowgraph.Json
