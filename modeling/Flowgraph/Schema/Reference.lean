import Flowgraph.Json.Access
import Flowgraph.Text.Percent

/-!
# References between schemas

A reference leads from the root of a schema to a part of it: a number sign alone names
the root, and a number sign with a path names what stands under the keys and indices of
the path. In a key `~1` stands for a slash and `~0` for a tilde.
-/
namespace Flowgraph.Reference

def replaceMark (digit c : Char) : List Char → List Char
  | '~' :: d :: rest =>
    if d = digit then c :: replaceMark digit c rest else '~' :: replaceMark digit c (d :: rest)
  | d :: rest => d :: replaceMark digit c rest
  | [] => []

/-- The key that a part of a path names. -/
def unescape (part : List Char) : String :=
  String.ofList (replaceMark '0' '~' (replaceMark '1' '/' part))

/-- A member of a list; a negative index counts from the end. -/
def memberAt? {α : Type} (items : List α) (i : Int) : Option α :=
  if 0 ≤ i then items[i.toNat]?
  else if (-i).toNat ≤ items.length then items[items.length - (-i).toNat]?
  else none

/-- What a part of a path names in a value; none where there is no such thing. -/
def step (v : Json) (part : List Char) : Except Fault (Option Json) :=
  match v with
  | .obj fields => .ok (fields.lookup (unescape part))
  | .arr items => (Json.readInteger (String.ofList part)).map (memberAt? items)
  | .str s => (Json.readInteger (String.ofList part)).map fun i =>
      (memberAt? s.toList i).map Json.charText
  | v => .error (.notSubscriptable v.kind)

/-- What a path leads to. -/
def walk (missing : Fault) (v : Json) : List (List Char) → Except Fault Json
  | [] => .ok v
  | part :: rest => do
    match ← step v part with
    | some w => walk missing w rest
    | none => .error missing

/-- The part of a schema that a reference names. -/
def resolve (root : Json) (ref : String) : Except Fault Json :=
  match ref.toList with
  | [] | ['#'] => .ok root
  | '#' :: '/' :: path =>
    let pointer := String.ofList ('/' :: path)
    walk (.unresolvedPointer pointer root.literal) root ((Text.percentDecode path).splitOn '/')
  | _ => .error (.unresolvedRef ref)

end Flowgraph.Reference
