import Flowgraph.Graph.Analysis
import Flowgraph.Proofs.Graph.Reachability

/-!
# What cannot be reached

The ids that are reported as unreachable are, in declared order and as often as they are
declared, those to which no path leads from a root. A path follows edges whose source is
declared; its ends may be the same. The roots are the start nodes or, where there is none,
the declared ids that no edge enters, be its source declared or not. Without a root nothing
is reported.

The search is compared with one that has no fuel: a round takes the head of the queue, which
may hold an id many times, and whether the id was reached before is asked only then. No
sequence of rounds goes on for ever, whatever queue and ids it begins with, and the rounds
that begin with the roots end with the ids that the search returns.
-/
namespace Flowgraph.Graph

variable {α : Type} [DecidableEq α]

/-! ## Rounds of the search -/

/-- One round, on the queue and the ids reached so far. -/
inductive Round (g : Graph α) : List α × List α → List α × List α → Prop
  | skip {v : α} {queue reached : List α} (seen : v ∈ reached) :
      Round g (v :: queue, reached) (queue, reached)
  | enter {v : α} {queue reached : List α} (fresh : v ∉ reached) :
      Round g (v :: queue, reached)
        (queue ++ (g.successors v).filter (· ∉ v :: reached), v :: reached)

/-- What is queued and the arcs that have not been looked at become fewer in every round. -/
theorem Round.decreases {g : Graph α} {s t : List α × List α} (round : g.Round s t) :
    t.1.length + g.unseenArcs t.2 < s.1.length + g.unseenArcs s.2 := by
  cases round with
  | skip seen =>
    simp only [List.length_cons]
    omega
  | @enter v queue reached fresh =>
    have work := g.work_enter queue fresh
    simp only [List.length_cons]
    omega

theorem wellFounded_round (g : Graph α) : WellFounded (Function.swap g.Round) :=
  Subrelation.wf Round.decreases
    (measure fun s : List α × List α => s.1.length + g.unseenArcs s.2).wf

/-- With enough fuel the search goes through the rounds until the queue is empty. -/
theorem rounds_search (g : Graph α) (fuel : Nat) (queue reached : List α)
    (enough : queue.length + g.unseenArcs reached ≤ fuel) :
    Relation.ReflTransGen g.Round (queue, reached) ([], g.search fuel queue reached) := by
  induction fuel generalizing queue reached with
  | zero =>
    have empty : queue = [] := List.length_eq_zero_iff.mp (by omega)
    subst empty
    exact .refl
  | succ fuel ih =>
    cases queue with
    | nil => exact .refl
    | cons v queue =>
      rw [List.length_cons] at enough
      rw [search]
      split
      · rename_i seen
        exact .head (.skip seen) (ih queue reached (by omega))
      · rename_i fresh
        have work := g.work_enter queue fresh
        exact .head (.enter fresh) (ih _ _ (by omega))

theorem rounds_reachable (g : Graph α) :
    Relation.ReflTransGen g.Round (g.roots, []) ([], g.reachable) :=
  g.rounds_search _ _ _ (by have := g.unseenArcs_le []; omega)

/-! ## Nodes and edges -/

section

variable (nodes : List Node) (edges : List Edge)

/-- A start node, or where there is none, a node that no edge enters. -/
def IsRoot (id : String) : Prop :=
  (∃ n ∈ nodes, n.type = .start ∧ n.id = id) ∨
    (∀ n ∈ nodes, n.type ≠ .start) ∧ (∃ n ∈ nodes, n.id = id) ∧ ∀ e ∈ edges, e.target ≠ id

/-- An edge leads from a node to an id. -/
def Leads (a b : String) : Prop :=
  (∃ n ∈ nodes, n.id = a) ∧ ∃ e ∈ edges, e.source = a ∧ e.target = b

theorem mem_roots_graphOf_iff (id : String) :
    id ∈ (graphOf nodes edges).roots ↔ IsRoot nodes edges id := by
  by_cases none : ∀ n ∈ nodes, n.type ≠ .start
  · have starts : (graphOf nodes edges).starts = [] := by simpa [graphOf] using none
    have neither : ¬∃ n ∈ nodes, n.type = .start ∧ n.id = id :=
      fun ⟨n, hn, start, _⟩ => none n hn start
    rw [IsRoot, or_iff_right neither, and_iff_right none, roots, starts]
    simp [graphOf]
  · have starts : (graphOf nodes edges).starts ≠ [] := by simpa [graphOf] using none
    rw [IsRoot, or_iff_left fun h => none h.1, roots, if_neg (by simpa using starts)]
    simp [graphOf, and_assoc]

theorem arc_graphOf : (graphOf nodes edges).Arc = Leads nodes edges := by
  funext a b
  simp [Arc, Leads, graphOf]

open Classical in
/-- The ids of nodes to which no path leads from a root, in the order of the nodes. -/
structure IsUnreachable (missing : List String) : Prop where
  exact : (∃ r, IsRoot nodes edges r) → missing = (nodes.map (·.id)).filter fun id =>
    ¬∃ r, IsRoot nodes edges r ∧ Relation.ReflTransGen (Leads nodes edges) r id
  noNodes : nodes = [] → missing = []
  noRoots : (¬∃ r, IsRoot nodes edges r) → missing = []

/-- For all nodes and edges, exactly the ids to which no path leads from a root are unreachable,
and the search for the others ends. -/
theorem unreachable_isExact :
    IsUnreachable nodes edges (graphOf nodes edges).unreachable ∧
      WellFounded (Function.swap (graphOf nodes edges).Round) ∧
      Relation.ReflTransGen (graphOf nodes edges).Round ((graphOf nodes edges).roots, [])
        ([], (graphOf nodes edges).reachable) := by
  refine ⟨⟨?_, ?_, ?_⟩, wellFounded_round _, rounds_reachable _⟩
  · rintro ⟨r, root⟩
    have some : (graphOf nodes edges).roots ≠ [] :=
      List.ne_nil_of_mem ((mem_roots_graphOf_iff nodes edges r).mpr root)
    rw [unreachable, if_neg (by simpa using some)]
    refine List.filter_congr fun id _ => decide_eq_decide.mpr (not_congr ?_)
    rw [mem_reachable_iff, Reaches, arc_graphOf]
    exact exists_congr fun r => and_congr_left fun _ => mem_roots_graphOf_iff nodes edges r
  · rintro rfl
    rw [unreachable]
    exact ite_self _
  · intro none
    have empty : (graphOf nodes edges).roots = [] := List.eq_nil_iff_forall_not_mem.mpr
      fun r root => none ⟨r, (mem_roots_graphOf_iff nodes edges r).mp root⟩
    rw [unreachable, if_pos (by rw [empty]; rfl)]

end

/-- Two edges join `loop` and `back`, which are not reached. An edge from an undeclared id leads
to `lost`, so `lost` is no root, and `begin` is the only one. -/
example :
    (graphOf
      [{ id := "loop", type := .prompt }, { id := "begin", type := .prompt },
       { id := "lost", type := .prompt }, { id := "back", type := .prompt },
       { id := "done", type := .stop }]
      [{ id := "1", source := "loop", target := "back" },
       { id := "2", source := "loop", target := "back" },
       { id := "3", source := "back", target := "loop" },
       { id := "4", source := "begin", target := "done" },
       { id := "5", source := "ghost", target := "lost" }]).unreachable =
      ["loop", "lost", "back"] := by decide

end Flowgraph.Graph
