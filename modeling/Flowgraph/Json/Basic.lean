import Flowgraph.Decimal.Shortest

/-!
# JSON values

Values of a document format whose numbers are integers of any size or binary
floating-point numbers, and whose objects keep their keys in order. A key that is
written twice keeps its first place and takes its last value.

`Json.alike` is the equality of the compiled programs: it takes numbers by value, the
truth values as one and zero, and objects without regard to order. `Json.identical`
keeps truth values apart from numbers.
-/
namespace Flowgraph

inductive Json where
  | null
  | bool (b : Bool)
  | int (i : Int)
  | float (x : Binary64)
  | str (s : String)
  | arr (items : List Json)
  | obj (fields : List (String × Json))
deriving Repr, Inhabited

/-- The fields of an object, in order. -/
abbrev Fields := List (String × Json)

namespace Fields

def get? (fields : Fields) (key : String) : Option Json :=
  fields.lookup key

def has (fields : Fields) (key : String) : Bool :=
  (fields.lookup key).isSome

/-- Replaces the value of a key in its place, or adds the key at the end. -/
def insert : Fields → String → Json → Fields
  | [], key, value => [(key, value)]
  | (k, v) :: rest, key, value =>
    if k == key then (key, value) :: rest else (k, v) :: insert rest key value

def ofPairs (pairs : List (String × Json)) : Fields :=
  pairs.foldl (fun fields (k, v) => insert fields k v) []

/-- The value of a key; null where the key is missing. -/
def getD (fields : Fields) (key : String) : Json :=
  (fields.get? key).getD .null

def keys (fields : Fields) : List String :=
  fields.map (·.1)

@[simp] theorem get?_nil (key : String) : get? [] key = none := rfl

theorem get?_cons (k : String) (v : Json) (rest : Fields) (key : String) :
    get? ((k, v) :: rest) key = if key == k then some v else get? rest key := by
  simp only [get?, List.lookup_cons]
  cases key == k <;> rfl

end Fields

namespace Json

/-- Whether a value counts as present: everything but null, false, zero and what is empty. -/
def truthy : Json → Bool
  | null => false
  | bool b => b
  | int i => i != 0
  | float x => !x.isZero
  | str s => !s.isEmpty
  | arr items => !items.isEmpty
  | obj fields => !fields.isEmpty

/-- The name of a value's kind, as error texts give it. -/
def kind : Json → String
  | null => "NoneType"
  | bool _ => "bool"
  | int _ => "int"
  | float _ => "float"
  | str _ => "str"
  | arr _ => "list"
  | obj _ => "dict"

/-- The fraction that a number stands for. -/
def ratio? : Json → Option (Int × Nat)
  | int i => some (i, 1)
  | float x => x.ratio?
  | _ => none

/-- Truth values as one and zero; every other value as it is. -/
def asNumber : Json → Json
  | bool b => int (if b then 1 else 0)
  | v => v

def sameRatio (a b : Int × Nat) : Bool :=
  a.1 * Int.ofNat b.2 == b.1 * Int.ofNat a.2

/-- Equality of two values that are neither arrays nor objects. -/
def sameScalar : Json → Json → Bool
  | null, null => true
  | str s, str t => s == t
  | float (.infinity a), float (.infinity b) => a == b
  | a, b =>
    match a.ratio?, b.ratio? with
    | some p, some q => sameRatio p q
    | _, _ => false

mutual

/-- Equality by value, in which true is one and false is zero. -/
def alike : Json → Json → Bool
  | arr xs, arr ys => allAlike xs ys
  | obj fs, obj gs => fs.length == gs.length && fieldsAlike fs gs
  | a, b => sameScalar a.asNumber b.asNumber

def allAlike : List Json → List Json → Bool
  | [], [] => true
  | x :: xs, y :: ys => alike x y && allAlike xs ys
  | _, _ => false

def fieldsAlike : List (String × Json) → List (String × Json) → Bool
  | [], _ => true
  | (k, v) :: rest, gs =>
    (match gs.lookup k with
      | some w => alike v w
      | none => false) && fieldsAlike rest gs

end

mutual

/-- Equality by value that keeps truth values apart from numbers. -/
def identical : Json → Json → Bool
  | arr xs, arr ys => allIdentical xs ys
  | obj fs, obj gs => fs.length == gs.length && fieldsIdentical fs gs
  | bool a, bool b => a == b
  | a, b => sameScalar a b

def allIdentical : List Json → List Json → Bool
  | [], [] => true
  | x :: xs, y :: ys => identical x y && allIdentical xs ys
  | _, _ => false

def fieldsIdentical : List (String × Json) → List (String × Json) → Bool
  | [], _ => true
  | (k, v) :: rest, gs =>
    (match gs.lookup k with
      | some w => identical v w
      | none => false) && fieldsIdentical rest gs

end

theorem alike_str (a b : String) : (str a).alike (.str b) = (a == b) := rfl

def ofOption : Option Json → Json
  | some v => v
  | none => null

/-- A text as a value; null where there is none. -/
def ofText? (s : Option String) : Json :=
  match s with
  | some s => str s
  | none => null

def texts (l : List String) : Json :=
  arr (l.map str)

def nat (n : Nat) : Json :=
  int (Int.ofNat n)

end Json
end Flowgraph
