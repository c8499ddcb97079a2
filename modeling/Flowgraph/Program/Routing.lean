import Flowgraph.Json.Writer
import Flowgraph.Program.Query
import Flowgraph.State.Store
import Flowgraph.Text.Occurrence

/-!
# Routing

Which edge a run follows. An operand that is a state reference stands for the value
there; values are compared as texts, in which null is empty. Of the guarded edges the
first whose condition holds is taken, and the first unguarded edge where none does. How a
pattern is searched for is a parameter.
-/
namespace Flowgraph

/-- Searches for a pattern in a text, or says why it is no pattern, the one way to fail. -/
abbrev PatternSearch := String → String → Except String Bool

namespace Json

/-- The text that a value is compared as. -/
def comparisonText : Json → String
  | null => ""
  | bool b => if b then "true" else "false"
  | float x =>
    match x.toInt? with
    | some i => toString i
    | none => String.ofList x.display
  | arr items => (arr items).write .compact
  | obj fields => (obj fields).write .compact
  | v => v.display

end Json

namespace Condition

/-- The value of an operand. -/
def operand (s : Store) (v : Json) : Except Fault Json :=
  if StateRef.isRef v then do s.read (← StateRef.read v) .null else .ok v

/-- Compares the texts of two operands. -/
def compare (search : PatternSearch) (op : ConditionOp) (left right : String) :
    Except Fault Bool :=
  match op with
  | .always => .ok true
  | .eq => .ok (left == right)
  | .neq => .ok (left != right)
  | .contains => .ok (Text.occursIn right.toList left.toList)
  | .regex =>
    match search right left with
    | .ok found => .ok found
    | .error reason => .error (.invalidPattern (Text.quote right) reason)

def holds (search : PatternSearch) (s : Store) (c : Condition) : Except Fault Bool := do
  if c.op = .always then return true
  let left ← operand s c.left
  let right ← operand s c.right
  compare search c.op left.comparisonText right.comparisonText

end Condition

namespace Routing

/-- The place and the edge to follow, from a place on; `fallback` is the first unguarded
edge before it. -/
def selectFrom (holds : Condition → Except Fault Bool) (fallback : Option (Nat × ProgramEdge))
    (index : Nat) : List ProgramEdge → Except Fault (Option (Nat × ProgramEdge))
  | [] => .ok fallback
  | e :: rest => do
    if e.condition.op = .always then
      selectFrom holds (fallback.or (some (index, e))) (index + 1) rest
    else if ← holds e.condition then return some (index, e)
    else selectFrom holds fallback (index + 1) rest

/-- The edge to follow with its place among the edges; none where no edge can be followed. -/
def select (search : PatternSearch) (s : Store) (edges : List ProgramEdge) :
    Except Fault (Option (Nat × ProgramEdge)) :=
  selectFrom (Condition.holds search s) none 0 edges

end Routing

end Flowgraph
