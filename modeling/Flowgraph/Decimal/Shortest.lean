import Flowgraph.Decimal.Binary

/-!
# The shortest decimal of a binary number

The decimal with the fewest digits that rounds to the number, and among those the
nearest one, a tie going to the even last digit. Powers of ten from -4 to 15 are
written positionally and with at least one decimal place; all others with a power
of ten of at least two digits.
-/
namespace Flowgraph.Binary64

/-- Compares `c * 10 ^ q` with `a * 2 ^ f`. -/
def compareDecimal (c : Nat) (q : Int) (a : Nat) (f : Int) : Ordering :=
  let (c₁, c₂) := scaled 10 c q
  let (a₁, a₂) := scaled 2 a f
  compare (c₁ * a₂) (a₁ * c₂)

/-- Whether `c * 10 ^ q` rounds to the positive number `m * 2 ^ e`. -/
def readsBack (m : Nat) (e : Int) (c : Nat) (q : Int) : Bool :=
  let lower := if m == leastSignificand && leastExponent < e then 4 * m - 1 else 4 * m - 2
  let inside (o : Ordering) (out : Ordering) := o != out && (o != .eq || m % 2 == 0)
  inside (compareDecimal c q lower (e - 2)) .lt &&
    inside (compareDecimal c q (4 * m + 2) (e - 2)) .gt

/-- The least `k ≥ start` with `den ≤ num * Nat.pow 10 k`, searched for `fuel` steps. -/
def leadingZeros (num den : Nat) : Nat → Nat → Nat
  | 0, k => k
  | fuel + 1, k => if den ≤ num * Nat.pow 10 k then k else leadingZeros num den fuel (k + 1)

/-- The power of ten just above a positive ratio. -/
def magnitude (num den : Nat) : Int :=
  if den ≤ num then Int.ofNat (Nat.toDigits 10 (num / den)).length
  else 1 - Int.ofNat (leadingZeros num den 400 0)

/-- The decimals of `count`, `count + 1`, … digits next to the number; the first that reads back. -/
def searchDigits (m : Nat) (e : Int) (num den : Nat) (p : Int) : Nat → Nat → Nat × Int
  | 0, count => (0, p - Int.ofNat count)
  | fuel + 1, count =>
    let q := p - Int.ofNat count
    let (u, v) := scaled 10 1 q
    let lo := num * v / (den * u)
    let below := readsBack m e lo q
    let above := readsBack m e (lo + 1) q
    let rest := num * v - lo * (den * u)
    match below, above with
    | false, false => searchDigits m e num den p fuel (count + 1)
    | true, false => (lo, q)
    | false, true => (lo + 1, q)
    | true, true =>
      match compare (2 * rest) (den * u) with
      | .lt => (lo, q)
      | .gt => (lo + 1, q)
      | .eq => (if lo % 2 == 0 then lo else lo + 1, q)

/-- Digits and power of ten of the shortest decimal of `m * 2 ^ e`, for a positive `m`. -/
def shortest (m : Nat) (e : Int) : Nat × Int :=
  let (num, den) := scaled 2 m e
  searchDigits m e num den (magnitude num den) 17 1

/-- Where positional writing begins and ends, and how wide an exponent is at least. -/
structure Layout where
  leastPower : Int
  greatestPower : Int
  exponentWidth : Nat

def layout : Layout := ⟨-4, 15, 2⟩

def zeros (n : Nat) : List Char :=
  List.replicate n '0'

def dropTrailingZeros (s : List Char) : List Char :=
  (s.reverse.dropWhile (· == '0')).reverse

/-- A positive decimal, given by its digits and the power of ten of its first digit. -/
def writeDigits (style : Layout) (digits : List Char) (power : Int) : List Char :=
  if power < style.leastPower || style.greatestPower < power then
    let fraction := match digits with
      | first :: second :: rest => first :: '.' :: second :: rest
      | short => short
    let width := Nat.toDigits 10 power.natAbs
    fraction ++ 'e' :: (if power < 0 then '-' else '+') ::
      (zeros (style.exponentWidth - width.length) ++ width)
  else if power < 0 then
    '0' :: '.' :: (zeros ((-power).toNat - 1) ++ digits)
  else
    let whole := power.toNat + 1
    if digits.length ≤ whole then digits ++ zeros (whole - digits.length) ++ ['.', '0']
    else digits.take whole ++ '.' :: digits.drop whole

/-- The text of a number. -/
def write (x : Binary64) (infinity nan : List Char) : List Char :=
  let sign (negative : Bool) (s : List Char) := if negative then '-' :: s else s
  match x with
  | .nan => nan
  | .infinity negative => sign negative infinity
  | .finite negative 0 _ => sign negative ['0', '.', '0']
  | .finite negative m e =>
    let (c, q) := shortest m e
    let digits := Nat.toDigits 10 c
    let power := q + Int.ofNat digits.length - 1
    sign negative (writeDigits layout (dropTrailingZeros digits) power)

end Flowgraph.Binary64
