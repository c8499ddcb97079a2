/-!
# Binary floating-point numbers

A finite number is a sign, a significand below `2 ^ 53` and a power of two from
`2 ^ -1074` to `2 ^ 971`; the significand is at least `2 ^ 52` unless the power is
the least. Rounding is to nearest, a tie going to the even significand. All
arithmetic is exact on natural numbers; nothing is claimed of hardware floats.
-/
namespace Flowgraph

inductive Binary64 where
  | finite (negative : Bool) (significand : Nat) (exponent : Int)
  | infinity (negative : Bool)
  | nan
deriving DecidableEq, Repr, Inhabited

namespace Binary64

def leastExponent : Int := -1074

def greatestExponent : Int := 971

/-- The least significand of a number that is not too near to zero: `2 ^ 52`. -/
def leastSignificand : Nat := 4503599627370496

def zero : Binary64 := .finite false 0 leastExponent

/-- `m * b ^ e` as a numerator over a denominator. -/
def scaled (b : Nat) (m : Nat) (e : Int) : Nat × Nat :=
  if 0 ≤ e then (m * Nat.pow b e.toNat, 1) else (m, Nat.pow b (-e).toNat)

/-- The quotient rounded to nearest, ties to even. -/
def roundDiv (num den : Nat) : Nat :=
  let q := num / den
  let r := num % den
  if 2 * r < den then q
  else if den < 2 * r then q + 1
  else if q % 2 == 0 then q else q + 1

/-- The power of two that gives the ratio a significand of 53 bits, or the least one. -/
def exponentFor (num den : Nat) : Int :=
  let k : Int := Int.ofNat num.log2 - Int.ofNat den.log2
  let (a, b) := scaled 2 den k
  let e := if num * b < a then k - 53 else k - 52
  max e leastExponent

/-- The number nearest to `num / den`. -/
def ofRatio (negative : Bool) (num den : Nat) : Binary64 :=
  if num == 0 then .finite negative 0 leastExponent
  else
    let e := exponentFor num den
    let (a, b) := scaled 2 den e
    let m := roundDiv (num * b) a
    let (m, e) := if m == 2 * leastSignificand then (leastSignificand, e + 1) else (m, e)
    if greatestExponent < e then .infinity negative else .finite negative m e

/-- The number nearest to `digits * 10 ^ exponent`. -/
def ofDecimal (negative : Bool) (digits : Nat) (exponent : Int) : Binary64 :=
  let size : Int := exponent + Int.ofNat (Nat.toDigits 10 digits).length
  if digits == 0 || size < -400 then .finite negative 0 leastExponent
  else if 400 < size then .infinity negative
  else
    let (num, den) := scaled 10 digits exponent
    ofRatio negative num den

def ofInt (i : Int) : Binary64 :=
  ofRatio (i < 0) i.natAbs 1

/-- A finite number as a fraction. -/
def ratio? : Binary64 → Option (Int × Nat)
  | .finite negative m e =>
    let (num, den) := scaled 2 m e
    some (if negative then -Int.ofNat num else Int.ofNat num, den)
  | _ => none

/-- The value of a number without fractional part. -/
def toInt? (x : Binary64) : Option Int :=
  x.ratio?.bind fun (num, den) => if num % den == 0 then some (num / den) else none

def isZero : Binary64 → Bool
  | .finite _ 0 _ => true
  | _ => false

def isFinite : Binary64 → Bool
  | .finite .. => true
  | _ => false

end Binary64
end Flowgraph
