import Flowgraph.Fault
import Flowgraph.Json.Literal
import Flowgraph.Json.Writer
import Flowgraph.Text.Integer

/-!
# Reading unchecked values

A program, a policy or an event may be given with any value in any place. These
functions take a value for what its use asks for, or say why it is not that.
-/
namespace Flowgraph.Json

/-- The value under a key that must be there. -/
def item (v : Json) (key : String) : Except Fault Json :=
  match v with
  | obj fields =>
    match fields.lookup key with
    | some w => .ok w
    | none => .error (.missingKey key)
  | arr _ => .error .listIndex
  | str _ => .error .textIndex
  | v => .error (.notSubscriptable v.kind)

/-- The value under a key of an object, if it is there. -/
def find (v : Json) (key : String) : Except Fault (Option Json) :=
  match v with
  | obj fields => .ok (fields.lookup key)
  | v => .error (.noAttribute v.kind "get")

/-- The value under a key of an object; null where it is missing. -/
def findD (v : Json) (key : String) : Except Fault Json :=
  (v.find key).map Json.ofOption

theorem item_obj {fields : Fields} {key : String} {v : Json}
    (found : fields.lookup key = some v) : (obj fields).item key = .ok v := by
  simp [item, found]

theorem findD_obj (fields : Fields) (key : String) :
    (obj fields).findD key = .ok (ofOption (fields.lookup key)) :=
  rfl

def charText (c : Char) : Json :=
  str (String.ofList [c])

/-- The members of an array, the keys of an object, the characters of a text. -/
def members : Json → Except Fault (List Json)
  | arr items => .ok items
  | obj fields => .ok (fields.map fun f => str f.1)
  | str s => .ok (s.toList.map charText)
  | v => .error (.notIterable v.kind)

/-- A value as a key: whatever is neither an array nor an object. -/
def asKey : Json → Except Fault Json
  | arr items => .error (.unhashable (arr items).kind)
  | obj fields => .error (.unhashable (obj fields).kind)
  | v => .ok v

/-- Whether two values are the same key: true is one, and what is no number is itself. -/
def sameKey : Json → Json → Bool
  | float .nan, float .nan => true
  | k, l => k.alike l

/-- The text that stands for a key in a document. -/
def keyText : Json → String
  | str s => s
  | v => v.write .compact

/-- A field given as a sequence of two values, the `index`-th of a list of fields. -/
def pairAt (index : Nat) (v : Json) : Except Fault (Json × Json) :=
  match v.members with
  | .error _ => .error (.pairShape index)
  | .ok [k, w] => k.asKey.map (·, w)
  | .ok other => .error (.pairLength index other.length)

def pairsFrom (index : Nat) : List Json → Except Fault (List (Json × Json))
  | [] => .ok []
  | v :: rest => do
    let p ← pairAt index v
    let ps ← pairsFrom (index + 1) rest
    return p :: ps

/-- Enters a value under a key. A key that is there keeps its place and its first form. -/
def enterPair : List (Json × Json) → Json × Json → List (Json × Json)
  | [], p => [p]
  | (k, v) :: rest, p =>
    if k.sameKey p.1 then (k, p.2) :: rest else (k, v) :: enterPair rest p

/-- The fields of an object, or those that a sequence of pairs lists. -/
def fields? : Json → Except Fault Fields
  | obj fields => .ok fields
  | v => do
    let items ← v.members
    let pairs ← pairsFrom 0 items
    return (pairs.foldl enterPair []).map fun p => (p.1.keyText, p.2)

def readInteger (s : String) : Except Fault Int :=
  match Text.readInteger s.toList with
  | .ok i => .ok i
  | .error .malformed => .error (.integerText (Text.quote s))
  | .error (.tooLong n) => .error (.integerTooLong n)

/-- The integer that a number or a text stands for; a fraction is cut off. -/
def toInteger : Json → Except Fault Int
  | bool b => .ok (if b then 1 else 0)
  | int i => .ok i
  | float x =>
    match x with
    | .infinity _ => .error .infiniteInteger
    | .nan => .error .undefinedInteger
    | x => match x.ratio? with
      | some (num, den) => .ok (num.tdiv (Int.ofNat den))
      | none => .error .undefinedInteger
  | str s => readInteger s
  | v => .error (.notNumeric v.kind)

/-- One of the values of an enumeration, by its name. -/
def choose {α : Type} (choices : String) (named : String → Option α) (v : Json) :
    Except Fault α :=
  let found := match v with
    | str s => named s
    | _ => none
  match found with
  | some a => .ok a
  | none => .error (.unknownChoice v.literal choices)

end Flowgraph.Json
