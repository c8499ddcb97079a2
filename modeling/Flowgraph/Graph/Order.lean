import Flowgraph.Graph.Basic

/-!
# Execution order

An id is placed once every arc that enters it has been followed; ids without such arcs
come first, in declared order, and the others in the order in which they become free.
What lies on a cycle or behind one is never placed, nor what lies behind an undeclared
id.
-/
namespace Flowgraph.Graph

variable {α : Type} [DecidableEq α]

/-- How many arcs into each id have not been followed yet. -/
abbrev Pending (α : Type) := List (α × Int)

namespace Pending

def count? (p : Pending α) (v : α) : Option Int :=
  (p.find? (·.1 = v)).map (·.2)

def decrement : Pending α → α → Pending α
  | [], _ => []
  | (w, n) :: rest, v => if w = v then (w, n - 1) :: rest else (w, n) :: decrement rest v

theorem count?_cons (w : α) (n : Int) (rest : Pending α) (v : α) :
    count? ((w, n) :: rest) v = if w = v then some n else count? rest v := by
  by_cases h : w = v <;> simp [count?, h]

theorem count?_decrement (p : Pending α) (v w : α) :
    (p.decrement v).count? w = if w = v then (p.count? w).map (· - 1) else p.count? w := by
  induction p with
  | nil => simp [decrement, count?]
  | cons field rest ih =>
    obtain ⟨u, n⟩ := field
    by_cases huv : u = v
    · subst huv
      by_cases hw : u = w
      · subst hw; simp [decrement, count?_cons]
      · have hw' : ¬w = u := fun h => hw h.symm
        simp [decrement, count?_cons, hw, hw']
    · simp only [decrement, huv, if_false, count?_cons, ih]
      by_cases hw : u = w
      · subst hw; simp [huv]
      · simp [hw]

end Pending

def indegree (g : Graph α) (v : α) : Nat :=
  g.arcs.countP (·.2 = v)

def pending (g : Graph α) : Pending α :=
  g.ids.map fun v => (v, Int.ofNat (g.indegree v))

/-- Follows arcs to the given targets; returns the counts and the ids that became free. -/
def follow : Pending α → List α → Pending α × List α
  | p, [] => (p, [])
  | p, v :: rest =>
    let p' := p.decrement v
    let (q, freed) := follow p' rest
    (q, if p'.count? v = some 0 then v :: freed else freed)

/-- Places the ids of a queue and those that they free. -/
def place (g : Graph α) : Nat → Pending α → List α → List α
  | 0, _, _ => []
  | _, _, [] => []
  | fuel + 1, p, v :: queue =>
    let (q, freed) := follow p (g.successors v)
    v :: place g fuel q (queue ++ freed)

/-- The ids that can be placed, in order; each declared id is queued at most once. -/
def executionOrder (g : Graph α) : List α :=
  place g g.ids.length g.pending (g.ids.filter fun v => g.indegree v = 0)

end Flowgraph.Graph
