import Flowgraph.Fault

/-!
# Findings

What a check finds in a value: violations in the order of their discovery, each with the
way to the part that is wrong, and perhaps a fault that ended the check. What was found
before a fault stays known, and nothing is looked for after it.
-/
namespace Flowgraph

structure Violation where
  message : String
  /-- The keys and indices that lead to the part, the outermost first. -/
  path : List String := []
deriving DecidableEq, Repr

structure Findings where
  violations : List Violation := []
  fault : Option Fault := none

namespace Findings

def empty : Findings := {}

def one (message : String) : Findings :=
  { violations := [⟨message, []⟩] }

def failed (e : Fault) : Findings :=
  { fault := some e }

/-- A message if something does not hold. -/
def ifNot (holds : Bool) (message : String) : Findings :=
  if holds then empty else one message

/-- The findings of a second check are added unless the first one was ended by a fault. -/
def andThen (a : Findings) (b : Unit → Findings) : Findings :=
  match a.fault with
  | some _ => a
  | none =>
    let rest := b ()
    ⟨a.violations ++ rest.violations, rest.fault⟩

def each {α : Type} (check : α → Findings) : List α → Findings
  | [] => empty
  | a :: rest => (check a).andThen fun _ => each check rest

/-- Continues with a result unless there is a fault instead. -/
def ofResult {α : Type} (x : Except Fault α) (check : α → Findings) : Findings :=
  match x with
  | .ok a => check a
  | .error e => failed e

/-- Findings in the part of a value under a key or an index. -/
def under (segment : String) (x : Findings) : Findings :=
  { x with violations := x.violations.map fun v => { v with path := segment :: v.path } }

/-- Whether nothing is wrong; a fault counts only if no violation was found before it. -/
def clean (x : Findings) : Except Fault Bool :=
  match x.violations, x.fault with
  | _ :: _, _ => .ok false
  | [], some e => .error e
  | [], none => .ok true

/-- All violations, if no fault ended the check. -/
def toList (x : Findings) : Except Fault (List Violation) :=
  match x.fault with
  | some e => .error e
  | none => .ok x.violations

end Findings
end Flowgraph
