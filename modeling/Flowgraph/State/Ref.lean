import Flowgraph.Json.Access

/-!
# State references

A reference names a place in the run-time state: a namespace and one or more segments,
each written after a dot. A segment is not empty and made of ASCII letters, digits,
underscores and hyphens. One line break after the last segment is let through and
belongs to that segment.
-/
namespace Flowgraph

/-- The parts of the run-time state; the context and the input are read-only. -/
inductive Namespace where
  | vars
  | tmp
  | ctx
  | input
deriving DecidableEq, Repr

namespace Namespace

def all : List Namespace := [vars, tmp, ctx, input]

def name : Namespace → String
  | vars => "$vars"
  | tmp => "$tmp"
  | ctx => "$ctx"
  | input => "$in"

def ofName? (s : String) : Option Namespace :=
  all.find? (·.name == s)

def readOnly : Namespace → Bool
  | vars | tmp => false
  | ctx | input => true

def read (v : Json) : Except Fault Namespace :=
  v.choose "StateNamespace" ofName?

end Namespace

structure StateRef where
  space : Namespace
  path : List String
deriving DecidableEq, Repr

namespace StateRef

def isSegmentChar (c : Char) : Bool :=
  c.isAlphanum || c == '_' || c == '-'

def isSegment (s : List Char) : Bool :=
  !s.isEmpty && s.all isSegmentChar

def dropFinalBreak (s : List Char) : List Char :=
  if s.getLast? == some '\n' then s.dropLast else s

def isWellFormed (s : String) : Bool :=
  match (dropFinalBreak s.toList).splitOn '.' with
  | space :: segment :: rest =>
    (Namespace.ofName? (String.ofList space)).isSome && (segment :: rest).all isSegment
  | _ => false

def isRef : Json → Bool
  | .str s => isWellFormed s
  | _ => false

/-- The namespace and the segments of a well-formed text. -/
def parse? (s : String) : Option StateRef :=
  if isWellFormed s then
    match (s.toList.splitOn '.').map String.ofList with
    | space :: path => (Namespace.ofName? space).map (⟨·, path⟩)
    | [] => none
  else none

def read (v : Json) : Except Fault StateRef :=
  let found := match v with
    | .str s => parse? s
    | _ => none
  match found with
  | some r => .ok r
  | none => .error (.invalidRef v.display)

def write (r : StateRef) : String :=
  ".".intercalate (r.space.name :: r.path)

end StateRef
end Flowgraph
