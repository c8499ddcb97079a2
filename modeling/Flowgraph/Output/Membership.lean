import Flowgraph.Json.Access
import Flowgraph.State.Ref

/-!
# Membership invariants

An invariant of a step's output is a text. One form is understood: the value under a key
of the output is a member of the list under a key of the input. A key is made of ASCII
letters, digits and underscores. Every other text holds of every output.
-/
namespace Flowgraph

structure Membership where
  outKey : String
  inKey : String
deriving DecidableEq, Repr

namespace Membership

def isKeyChar (c : Char) : Bool :=
  c.isAlphanum || c == '_'

def isKey (s : List Char) : Bool :=
  !s.isEmpty && s.all isKeyChar

/-- What follows a text at the head of another. -/
def after? (head s : List Char) : Option (List Char) :=
  if head.isPrefixOf s then some (s.drop head.length) else none

/-- The membership that a text states; one line break may follow. -/
def parse? (s : String) : Option Membership := do
  let rest ← after? "$out.".toList s.toList
  let outKey := rest.takeWhile isKeyChar
  let rest ← after? " in $in.".toList (rest.drop outKey.length)
  let inKey := StateRef.dropFinalBreak rest
  if isKey outKey && isKey inKey then some ⟨String.ofList outKey, String.ofList inKey⟩ else none

/-- The text that states a membership. -/
def write (m : Membership) : String :=
  "$out." ++ m.outKey ++ " in $in." ++ m.inKey

/-- What an output that is an object has under a key. -/
def field? (output : Json) (key : String) : Option Json :=
  match output with
  | .obj fields => fields.lookup key
  | _ => none

def holds (m : Membership) (output input : Json) : Except Fault Bool := do
  match field? output m.outKey, ← input.find m.inKey with
  | some v, some (.arr items) => return items.any v.alike
  | _, _ => return false

end Membership

/-- Whether an invariant holds of an output and the input it was made from. -/
def invariantHolds (expr output input : Json) : Except Fault Bool :=
  match expr with
  | .str s =>
    match Membership.parse? s with
    | some m => m.holds output input
    | none => .ok true
  | v => .error (.notText v.kind)

end Flowgraph
