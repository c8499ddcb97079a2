import Flowgraph.Proofs.Graph.CycleWalk

/-!
# The walk as a recursion

A recursive search visits an id by going through its successors with a path of its own, and
calls itself for those that are new. The walk with a stack reports the same cycles in the
same order.

The walk is taken here as a loop that no number of steps ends: it goes on while there is a
path. It comes to an end on every graph, and until then it has looked at each successor of
each visited id once, in their order. Between the arcs of different ids no order is stated.
-/
namespace Flowgraph.Graph

variable {α : Type} [DecidableEq α]

/-! ## The recursive search -/

/-- The ids that a search has visited and the cycles that it has recorded, in order. -/
structure Findings (α : Type) where
  visited : List α := []
  cycles : List (List α) := []

namespace Findings

/-- Findings to which a search may come: what was visited before is visited. -/
abbrev Later (s : Findings α) : Type :=
  {t : Findings α // ∀ v ∈ s.visited, v ∈ t.visited}

theorem Later.unseenArcs_le (g : Graph α) {s : Findings α} (t : s.Later) :
    g.unseenArcs t.1.visited ≤ g.unseenArcs s.visited :=
  List.countP_mono_left fun a _ out => by
    simp only [decide_eq_true_eq] at out ⊢
    exact fun seen => out (t.2 _ seen)

def mark (s : Findings α) (v : α) : Findings α :=
  { s with visited := v :: s.visited }

/-- Records the part of a path from an id on. -/
def record (s : Findings α) (path : List α) (v : α) : Findings α :=
  { s with cycles := s.cycles ++ [path.dropWhile (· ≠ v)] }

/-- Goes through successors of the end of a path. Each call has fewer arcs before it: those of
the ids that were not visited, and those that are left here. -/
def exploreFrom (g : Graph α) (path later : List α) (s : Findings α) : s.Later :=
  match later with
  | [] => ⟨s, fun _ seen => seen⟩
  | v :: later =>
    if v ∈ path then
      let t := exploreFrom g path later (s.record path v)
      ⟨t.1, t.2⟩
    else if v ∈ s.visited then exploreFrom g path later s
    else
      let inner := exploreFrom g (path ++ [v]) (g.successors v) (s.mark v)
      let t := exploreFrom g path later inner.1
      ⟨t.1, fun w seen => t.2 w (inner.2 w (List.mem_cons_of_mem v seen))⟩
termination_by g.unseenArcs s.visited + later.length
decreasing_by
  · simp [record]
  · simp
  · have paid := g.unseenArcs_cons ‹v ∉ s.visited›
    simp only [mark, List.length_cons]
    omega
  · have paid := g.unseenArcs_cons ‹v ∉ s.visited›
    refine Nat.add_lt_add_of_le_of_lt ((Later.unseenArcs_le g _).trans ?_) (by simp)
    simp only [mark]
    omega

def explore (g : Graph α) (path later : List α) (s : Findings α) : Findings α :=
  (exploreFrom g path later s).1

/-- Visits an id at the end of a path. -/
def visit (g : Graph α) (path : List α) (s : Findings α) (v : α) : Findings α :=
  explore g (path ++ [v]) (g.successors v) (s.mark v)

theorem explore_nil (g : Graph α) (path : List α) (s : Findings α) : explore g path [] s = s := by
  rw [explore, exploreFrom]

section

variable {path : List α} {v : α}

/-- An arc back to the path records a cycle. -/
theorem explore_back (g : Graph α) (later : List α) (s : Findings α) (back : v ∈ path) :
    explore g path (v :: later) s = explore g path later (s.record path v) := by
  rw [explore, exploreFrom, if_pos back]
  rfl

theorem explore_seen (g : Graph α) (later : List α) {s : Findings α} (away : v ∉ path)
    (seen : v ∈ s.visited) : explore g path (v :: later) s = explore g path later s := by
  rw [explore, exploreFrom, if_neg away, if_pos seen]
  rfl

/-- A new id is visited with a path of its own. -/
theorem explore_fresh (g : Graph α) (later : List α) {s : Findings α} (away : v ∉ path)
    (fresh : v ∉ s.visited) :
    explore g path (v :: later) s = explore g path later (s.visit g path v) := by
  rw [explore, exploreFrom, if_neg away, if_neg fresh]
  rfl

end

def visitNew (g : Graph α) (s : Findings α) (root : α) : Findings α :=
  if root ∈ s.visited then s else s.visit g [] root

end Findings

/-- The cycles that a recursive search from every declared id records, in order. -/
def recordedCycles (g : Graph α) : List (List α) :=
  (g.ids.foldl (Findings.visitNew g) {}).cycles

/-! ## The loop -/

namespace Walk

/-- The arc that the next step looks at, unless it leaves the end of the path. -/
def next? (w : Walk α) : Option (α × α) :=
  match w.stack with
  | (u, v :: _) :: _ => some (u, v)
  | _ => none

/-- Steps that are made while there is a path, with the arcs that they look at. -/
inductive Steps (g : Graph α) : Walk α → List (α × α) → Walk α → Prop
  | refl (w : Walk α) : Steps g w [] w
  | step {w w' : Walk α} {looked : List (α × α)} (going : w.stack ≠ [])
    (later : Steps g (w.step g) looked w') : Steps g w (w.next?.toList ++ looked) w'

/-- A loop over roots: each that is new is walked from until there is no path. -/
inductive Covers (g : Graph α) : List α → Walk α → List (α × α) → Walk α → Prop
  | done (w : Walk α) : Covers g [] w [] w
  | seen {root : α} {rest : List α} {w w' : Walk α} {looked : List (α × α)}
    (known : root ∈ w.visited) (later : Covers g rest w looked w') :
    Covers g (root :: rest) w looked w'
  | fresh {root : α} {rest : List α} {w between w' : Walk α} {first looked : List (α × α)}
    (new : root ∉ w.visited) (steps : Steps g (w.enter g root) first between)
    (ended : between.stack = []) (later : Covers g rest between looked w') :
    Covers g (root :: rest) w (first ++ looked) w'

theorem Steps.trans {g : Graph α} {w w' w'' : Walk α} {first looked : List (α × α)}
    (h : Steps g w first w') (h' : Steps g w' looked w'') : Steps g w (first ++ looked) w'' := by
  induction h with
  | refl w => exact h'
  | step going _ ih =>
    rw [List.append_assoc]
    exact .step going (ih h')

theorem Steps.next {g : Graph α} {w between w' : Walk α} {looked : List (α × α)}
    (going : w.stack ≠ []) (step : w.step g = between) (later : Steps g between looked w') :
    Steps g w (w.next?.toList ++ looked) w' :=
  .step going (step ▸ later)

/-- The walk that stands for findings, with a path and what is left to look at. -/
def standing (s : Findings α) (stack : List (α × List α)) : Walk α :=
  ⟨s.visited, stack, s.cycles.reverse⟩

theorem cycleFrom_reverse {path : List α} {v : α} (distinct : path.Nodup) (back : v ∈ path) :
    cycleFrom path.reverse v = path.dropWhile (· ≠ v) := by
  obtain ⟨before, after, rfl, first⟩ := List.eq_append_cons_of_mem back
  have last : v ∉ after.reverse := fun h =>
    (List.nodup_cons.mp (List.nodup_append.mp distinct).2.1).1 (List.mem_reverse.mp h)
  have all : ∀ a ∈ before, decide (a ≠ v) = true := by
    intro a ha
    refine decide_eq_true ?_
    rintro rfl
    exact first ha
  rw [List.dropWhile_append_of_pos all, List.reverse_append, List.reverse_cons,
    List.append_assoc, List.singleton_append, cycleFrom_eq last]
  simp

/-- While the search goes through successors, the walk leaves the rest of its stack alone. -/
theorem steps_explore (g : Graph α) (path later : List α) (s : Findings α) (u : α)
    (rest : List (α × List α)) (onPath : u :: rest.map (·.1) = path.reverse)
    (distinct : path.Nodup) (seen : ∀ v ∈ path, v ∈ s.visited) :
    ∃ looked, Steps g (standing s ((u, later) :: rest)) looked
      (standing (s.explore g path later) rest) := by
  induction path, later, s using Findings.exploreFrom.induct g generalizing u rest with
  | case1 path s =>
    rw [Findings.explore_nil]
    exact ⟨_, .next (List.cons_ne_nil _ _) (step_leave g u rest _ _) (.refl _)⟩
  | case2 path s v later back ih =>
    have close := step_close g u v later rest s.visited s.cycles.reverse
      (onPath ▸ List.mem_reverse.mpr back)
    obtain ⟨looked, steps⟩ := ih u rest onPath distinct seen
    have recorded : cycleFrom (u :: rest.map (·.1)) v :: s.cycles.reverse =
        (s.record path v).cycles.reverse := by
      rw [onPath, cycleFrom_reverse distinct back, Findings.record, List.reverse_append]
      rfl
    rw [recorded] at close
    rw [Findings.explore_back g later s back]
    exact ⟨_, .next (List.cons_ne_nil _ _) close steps⟩
  | case3 path s v later away known ih =>
    have skip := step_skip g u v later rest s.visited s.cycles.reverse
      (fun h => away (List.mem_reverse.mp (onPath ▸ h))) known
    obtain ⟨looked, steps⟩ := ih u rest onPath distinct seen
    rw [Findings.explore_seen g later away known]
    exact ⟨_, .next (List.cons_ne_nil _ _) skip steps⟩
  | case4 path s v later away fresh inner visiting _ going =>
    have enter := step_enter g u v later rest s.visited s.cycles.reverse
      (fun h => away (List.mem_reverse.mp (onPath ▸ h))) fresh
    have onward : v :: ((u, later) :: rest).map (·.1) = (path ++ [v]).reverse := by
      rw [List.reverse_append, ← onPath]
      rfl
    obtain ⟨first, visit⟩ := visiting v ((u, later) :: rest) onward
      (List.concat_eq_append ▸ distinct.concat away) fun w hw => by
        rcases List.mem_append.mp hw with hw | hw
        · exact List.mem_cons_of_mem v (seen w hw)
        · exact List.mem_singleton.mp hw ▸ List.mem_cons_self
    obtain ⟨looked, steps⟩ := going u rest onPath distinct fun w hw =>
      inner.2 w (List.mem_cons_of_mem v (seen w hw))
    rw [Findings.explore_fresh g later away fresh]
    exact ⟨_, .next (List.cons_ne_nil _ _) enter (visit.trans steps)⟩

/-- The loop over roots ends, and it comes to what the search finds. -/
theorem covers_explored (g : Graph α) (roots : List α) (s : Findings α) :
    ∃ looked, Covers g roots (standing s []) looked
      (standing (roots.foldl (Findings.visitNew g) s) []) := by
  induction roots generalizing s with
  | nil => exact ⟨[], .done _⟩
  | cons root rest ih =>
    obtain ⟨looked, later⟩ := ih (s.visitNew g root)
    by_cases known : root ∈ s.visited
    · have same : s.visitNew g root = s := if_pos known
      rw [same] at later
      exact ⟨looked, .seen known (by simpa only [List.foldl_cons, same] using later)⟩
    · have new : s.visitNew g root = s.visit g [] root := if_neg known
      rw [new] at later
      obtain ⟨first, steps⟩ := steps_explore g [root] (g.successors root) (s.mark root) root []
        rfl (List.nodup_singleton root) fun v hv => List.mem_singleton.mp hv ▸ List.mem_cons_self
      rw [List.foldl_cons, new]
      exact ⟨first ++ looked, .fresh known steps rfl later⟩

/-! ## The loop and its bound -/

theorem run_of_steps {g : Graph α} {w w' : Walk α} {looked : List (α × α)}
    (h : Steps g w looked w') (ended : w'.stack = []) (fuel : Nat)
    (enough : (run g fuel w).stack = []) : run g fuel w = w' := by
  induction h generalizing fuel with
  | refl w =>
    cases fuel with
    | zero => rfl
    | succ fuel => rw [run, ended, List.isEmpty_nil, if_pos rfl]
  | step going _ ih =>
    cases fuel with
    | zero => exact False.elim (going enough)
    | succ fuel =>
      have more : ¬(List.isEmpty _ = true) := fun none => going (List.isEmpty_iff.mp none)
      rw [run, if_neg more] at enough ⊢
      exact ih ended fuel enough

theorem Covers.foldl_visit {g : Graph α} {roots : List α} {w w' : Walk α}
    {looked : List (α × α)} (h : Covers g roots w looked w') (rested : Rested g w) :
    roots.foldl (Walk.visit g) w = w' := by
  induction h with
  | done w => rfl
  | seen known _ ih =>
    rw [List.foldl_cons, Walk.visit, if_pos known]
    exact ih rested
  | @fresh root rest w between w' _ _ new steps ended _ ih =>
    have visit : w.visit g root = between := by
      rw [Walk.visit, if_neg new]
      exact run_of_steps steps ended _
        (run_stack_eq_nil g _ _ (rested.enter new).1 (work_enter_le g w new))
    rw [List.foldl_cons, visit]
    exact ih (visit ▸ rested.visit root)

/-! ## What is looked at -/

/-- The successors of an id that were looked at, in order. -/
def looksAt (looked : List (α × α)) (u : α) : List α :=
  (looked.filter (·.1 = u)).map (·.2)

/-- The successors of an id that are left to look at. -/
def leftOn (stack : List (α × List α)) (u : α) : List α :=
  (stack.filter (·.1 = u)).flatMap (·.2)

theorem leftOn_cons (u : α) (later : List α) (rest : List (α × List α)) (t : α) :
    leftOn ((u, later) :: rest) t = (if u = t then later else []) ++ leftOn rest t := by
  by_cases h : u = t <;> simp [leftOn, h]

theorem looksAt_append (looked more : List (α × α)) (t : α) :
    looksAt (looked ++ more) t = looksAt looked t ++ looksAt more t := by
  simp [looksAt]

/-- What is looked at is no longer left. -/
theorem looksAt_leftOn (looked : List (α × α)) (u v : α) (later : List α)
    (rest : List (α × List α)) (t : α) :
    looksAt (looked ++ [(u, v)]) t ++ leftOn ((u, later) :: rest) t =
      looksAt looked t ++ leftOn ((u, v :: later) :: rest) t := by
  rw [looksAt_append, leftOn_cons, leftOn_cons]
  by_cases h : u = t <;> simp [looksAt, h]

/-- Of each visited id the successors were looked at or are left, and of others none is. -/
def Accounted (g : Graph α) (looked : List (α × α)) (w : Walk α) : Prop :=
  ∀ t, looksAt looked t ++ leftOn w.stack t = if t ∈ w.visited then g.successors t else []

theorem Accounted.push {g : Graph α} {looked : List (α × α)} {visited : List α}
    {stack : List (α × List α)} {cycles : List (List α)} {v : α}
    (h : Accounted g looked ⟨visited, stack, cycles⟩) (fresh : v ∉ visited) :
    Accounted g looked ⟨v :: visited, (v, g.successors v) :: stack, cycles⟩ := by
  intro t
  have before : looksAt looked t ++ leftOn stack t = if t ∈ visited then g.successors t else [] :=
    h t
  rw [leftOn_cons]
  by_cases hv : v = t
  · subst hv
    rw [if_neg fresh] at before
    obtain ⟨none, nothing⟩ := List.append_eq_nil_iff.mp before
    simp [none, nothing]
  · have ht : ¬t = v := fun e => hv e.symm
    simpa [hv, ht] using before

theorem Accounted.look {g : Graph α} {looked : List (α × α)} {visited : List α} {u v : α}
    {later : List α} {rest : List (α × List α)} {cycles : List (List α)}
    (h : Accounted g looked ⟨visited, (u, v :: later) :: rest, cycles⟩) (cycles' : List (List α)) :
    Accounted g (looked ++ [(u, v)]) ⟨visited, (u, later) :: rest, cycles'⟩ := fun t =>
  (looksAt_leftOn looked u v later rest t).trans (h t)

theorem Accounted.move {g : Graph α} {looked : List (α × α)} {w w' : Walk α} (move : Move g w w')
    (h : Accounted g looked w) : Accounted g (looked ++ w.next?.toList) w' := by
  cases move with
  | leave u rest visited cycles =>
    intro t
    have before := h t
    rw [leftOn_cons, ite_self, List.nil_append] at before
    simpa [next?] using before
  | close | skip => exact h.look _
  | enter u v later rest visited cycles away fresh => exact (h.look cycles).push fresh

theorem Accounted.steps {g : Graph α} {before looked : List (α × α)} {w w' : Walk α}
    (h : Accounted g before w) (steps : Steps g w looked w') :
    Accounted g (before ++ looked) w' := by
  induction steps generalizing before with
  | refl w => rwa [List.append_nil]
  | @step w w' looked going _ ih =>
    rw [← List.append_assoc]
    exact ih (h.move (move_step g w going))

theorem Accounted.covers {g : Graph α} {roots : List α} {before looked : List (α × α)}
    {w w' : Walk α} (h : Accounted g before w) (idle : w.stack = [])
    (covers : Covers g roots w looked w') :
    Accounted g (before ++ looked) w' ∧ w'.stack = [] := by
  induction covers generalizing before with
  | done w => exact ⟨by rwa [List.append_nil], idle⟩
  | seen _ _ ih => exact ih h idle
  | @fresh root rest w between w' first looked new steps ended _ ih =>
    obtain ⟨visited, stack, cycles⟩ := w
    obtain rfl : stack = [] := idle
    have entered : Accounted g before (enter g ⟨visited, [], cycles⟩ root) := h.push new
    rw [← List.append_assoc]
    exact ih (entered.steps steps) ended

end Walk

/-- For all nodes and edges: the walk reports what the recursive search records. As a loop it
ends, and it looks at each successor of each visited id once. -/
theorem walk_is_recursion (nodes : List Node) (edges : List Edge) :
    let g := graphOf nodes edges
    g.cycles = g.recordedCycles ∧
      (∃ looked w, Walk.Covers g g.ids ⟨[], [], []⟩ looked w) ∧
      ∀ looked w, Walk.Covers g g.ids ⟨[], [], []⟩ looked w →
        w.stack = [] ∧ w.cycles.reverse = g.cycles ∧ ∀ u,
          (looked.filter (·.1 = u)).map (·.2) = if u ∈ w.visited then g.successors u else [] := by
  intro g
  have walked : ∀ looked w, Walk.Covers g g.ids ⟨[], [], []⟩ looked w →
      w.cycles.reverse = g.cycles := fun looked w covers => by
    rw [Graph.cycles, covers.foldl_visit (.initial g)]
  obtain ⟨looked, covers⟩ := Walk.covers_explored g g.ids {}
  refine ⟨?_, ⟨looked, _, covers⟩, ?_⟩
  · rw [← walked looked _ covers]
    exact List.reverse_reverse _
  · intro looked w covers
    have start : Walk.Accounted g [] ⟨[], [], []⟩ := fun _ => rfl
    obtain ⟨accounted, idle⟩ := start.covers rfl covers
    refine ⟨idle, walked looked w covers, fun u => ?_⟩
    have all := accounted u
    rw [idle] at all
    exact (List.append_nil _).symm.trans all

end Flowgraph.Graph
