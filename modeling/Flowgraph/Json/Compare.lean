import Flowgraph.Json.Basic

/-!
# Comparing numbers

Integers and floating-point numbers are compared by value. Whether a number is a multiple
of another is asked of the exact remainder for an integer divisor, and of the rounded
quotient for a floating-point one.
-/
namespace Flowgraph.Json

def orderRatios (a b : Int × Nat) : Ordering :=
  compare (a.1 * Int.ofNat b.2) (b.1 * Int.ofNat a.2)

/-- The order of two numbers; none if one of the values is no number. -/
def order? (a b : Json) : Option Ordering :=
  match a.ratio?, b.ratio? with
  | some p, some q => some (orderRatios p q)
  | none, some _ =>
    match a with
    | float (.infinity negative) => some (if negative then .lt else .gt)
    | _ => none
  | some _, none =>
    match b with
    | float (.infinity negative) => some (if negative then .gt else .lt)
    | _ => none
  | none, none =>
    match a, b with
    | float (.infinity m), float (.infinity n) => some (compare n m)
    | _, _ => none

def isLess (a b : Json) : Bool :=
  a.order? b == some .lt

def isLessOrEqual (a b : Json) : Bool :=
  a.order? b == some .lt || a.order? b == some .eq

/-- A number as a floating-point number. -/
def toFloat : Json → Binary64
  | int i => .ofInt i
  | float x => x
  | _ => .nan

/-- Whether a ratio divided by another one is an integer; the divisor is not zero. -/
def divides (divisor a : Int × Nat) : Bool :=
  (a.1 * Int.ofNat divisor.2) % (divisor.1 * Int.ofNat a.2) == 0

/-- Whether the quotient of two ratios, rounded, is an integer. A quotient beyond all finite
numbers is not rounded. -/
def dividesRounded (divisor a : Int × Nat) : Bool :=
  let num := a.1.natAbs * divisor.2
  let den := divisor.1.natAbs * a.2
  match Binary64.ofRatio false num den with
  | .infinity _ => divides divisor a
  | quotient => quotient.toInt?.isSome

def isMultipleOf (v divisor : Json) : Bool :=
  match divisor with
  | int n =>
    match v with
    | int i => i % n == 0
    | v =>
      match (Binary64.ofInt n).ratio?, v.ratio? with
      | some d, some a => divides d a
      | _, _ => false
  | float x =>
    match x.ratio?, v.toFloat.ratio? with
    | some d, some a => dividesRounded d a
    | none, some _ => true
    | _, none => false
  | _ => true

end Flowgraph.Json
