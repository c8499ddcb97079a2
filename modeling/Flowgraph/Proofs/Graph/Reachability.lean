import Flowgraph.Graph.Reach
import Mathlib.Data.List.Count
import Mathlib.Logic.Relation

/-!
# What a search reaches

A path follows arcs that leave declared ids. The breadth-first search reaches exactly the
ids to which a path leads from a root. Its fuel is enough on every graph: each round takes
an id from the queue, and an arc puts its target there at most once. Nothing is claimed of
the order in which ids are reached.
-/
namespace Flowgraph.Graph

variable {α : Type}

def Arc (g : Graph α) (u v : α) : Prop :=
  u ∈ g.ids ∧ (u, v) ∈ g.arcs

/-- A path of arcs, which may be empty. -/
def Reaches (g : Graph α) : α → α → Prop :=
  Relation.ReflTransGen g.Arc

variable [DecidableEq α]

theorem mem_successors_iff (g : Graph α) (u v : α) : v ∈ g.successors u ↔ g.Arc u v :=
  g.mem_successors u v

/-- What is counted outside a list and a further member, and what falls on that member. -/
theorem countP_outside {β : Type} (key : β → α) (l : List β) {seen : List α} {v : α}
    (fresh : v ∉ seen) :
    l.countP (key · ∉ seen) = l.countP (key · ∉ v :: seen) + l.countP (key · = v) := by
  induction l with
  | nil => rfl
  | cons b rest ih =>
    simp only [List.countP_cons, ih, decide_eq_true_eq]
    by_cases hb : key b = v
    · simp only [hb, List.mem_cons_self, fresh, not_true, not_false_iff, if_true, if_false]
      omega
    · by_cases hs : key b ∈ seen
      · simp only [hb, List.mem_cons, hs, or_true, not_true, if_false]
        omega
      · simp only [hb, List.mem_cons, hs, or_self, not_false_iff, if_true, if_false]
        omega

/-- The arcs that have not been looked at: those of the ids outside a list. -/
def unseenArcs (g : Graph α) (seen : List α) : Nat :=
  g.arcs.countP (·.1 ∉ seen)

theorem unseenArcs_le (g : Graph α) (seen : List α) : g.unseenArcs seen ≤ g.arcs.length :=
  List.countP_le_length

theorem length_successors_le (g : Graph α) (v : α) :
    (g.successors v).length ≤ g.arcs.countP (·.1 = v) := by
  unfold successors
  split
  · simp [List.countP_eq_length_filter]
  · simp

/-- Entering an id pays for all of its arcs at once. -/
theorem unseenArcs_cons (g : Graph α) {seen : List α} {v : α} (fresh : v ∉ seen) :
    g.unseenArcs (v :: seen) + (g.successors v).length ≤ g.unseenArcs seen := by
  have own := g.length_successors_le v
  have split := countP_outside Prod.fst g.arcs fresh
  unfold unseenArcs
  omega

/-- An id that is entered leaves no more to do than it paid for. -/
theorem work_enter (g : Graph α) (queue : List α) {reached : List α} {v : α}
    (fresh : v ∉ reached) :
    (queue ++ (g.successors v).filter (· ∉ v :: reached)).length + g.unseenArcs (v :: reached) ≤
      queue.length + g.unseenArcs reached := by
  have paid := g.unseenArcs_cons fresh
  have fewer : ((g.successors v).filter (· ∉ v :: reached)).length ≤ (g.successors v).length :=
    List.length_filter_le _ _
  rw [List.length_append]
  omega

/-! ## The search -/

/-- What the ids reached so far lead to is reached or queued. -/
def SearchClosed (g : Graph α) (queue reached : List α) : Prop :=
  ∀ u ∈ reached, ∀ v, g.Arc u v → v ∈ reached ∨ v ∈ queue

theorem search_keeps (g : Graph α) (fuel : Nat) (queue reached : List α) {u : α}
    (h : u ∈ reached) : u ∈ g.search fuel queue reached := by
  induction fuel generalizing queue reached with
  | zero => exact h
  | succ fuel ih =>
    cases queue with
    | nil => exact h
    | cons v queue =>
      rw [search]
      split
      · exact ih queue reached h
      · exact ih _ _ (List.mem_cons_of_mem v h)

theorem search_sound (g : Graph α) (fuel : Nat) (queue reached : List α) {u : α}
    (h : u ∈ g.search fuel queue reached) :
    u ∈ reached ∨ ∃ q ∈ queue, g.Reaches q u := by
  induction fuel generalizing queue reached with
  | zero => exact Or.inl h
  | succ fuel ih =>
    cases queue with
    | nil => exact Or.inl h
    | cons v queue =>
      rw [search] at h
      split at h
      · rcases ih queue reached h with old | ⟨q, hq, path⟩
        · exact Or.inl old
        · exact Or.inr ⟨q, List.mem_cons_of_mem v hq, path⟩
      · rcases ih _ _ h with old | ⟨q, hq, path⟩
        · rcases List.mem_cons.mp old with rfl | old
          · exact Or.inr ⟨u, List.mem_cons_self, .refl⟩
          · exact Or.inl old
        · rcases List.mem_append.mp hq with hq | hq
          · exact Or.inr ⟨q, List.mem_cons_of_mem v hq, path⟩
          · have arc : g.Arc v q := (g.mem_successors_iff v q).mp (List.mem_filter.mp hq).1
            exact Or.inr ⟨v, List.mem_cons_self, .head arc path⟩

omit [DecidableEq α] in
/-- An id that was reached before can be taken from the queue. -/
theorem SearchClosed.skip {g : Graph α} {queue reached : List α} {v : α}
    (h : g.SearchClosed (v :: queue) reached) (seen : v ∈ reached) :
    g.SearchClosed queue reached := by
  intro u hu w arc
  rcases h u hu w arc with hw | hw
  · exact Or.inl hw
  · rcases List.mem_cons.mp hw with rfl | hw
    · exact Or.inl seen
    · exact Or.inr hw

/-- An id is entered when the targets of its arcs are put in the queue. -/
theorem SearchClosed.enter {g : Graph α} {queue reached : List α} {v : α}
    (h : g.SearchClosed (v :: queue) reached) :
    g.SearchClosed (queue ++ (g.successors v).filter (· ∉ v :: reached)) (v :: reached) := by
  intro u hu w arc
  by_cases hw : w ∈ v :: reached
  · exact Or.inl hw
  · refine Or.inr (List.mem_append.mpr ?_)
    rcases List.mem_cons.mp hu with rfl | hu
    · have next : w ∈ g.successors u := (g.mem_successors_iff u w).mpr arc
      exact Or.inr (List.mem_filter.mpr ⟨next, by simpa using hw⟩)
    · rcases h u hu w arc with old | queued
      · exact False.elim (hw (List.mem_cons_of_mem v old))
      · rcases List.mem_cons.mp queued with rfl | queued
        · exact False.elim (hw List.mem_cons_self)
        · exact Or.inl queued

/-- With enough fuel the queue runs empty, and the ids reached are closed under arcs. -/
theorem search_closed (g : Graph α) (fuel : Nat) (queue reached : List α)
    (enough : queue.length + g.unseenArcs reached ≤ fuel)
    (closed : g.SearchClosed queue reached) :
    (∀ q ∈ queue, q ∈ g.search fuel queue reached) ∧
      g.SearchClosed [] (g.search fuel queue reached) := by
  induction fuel generalizing queue reached with
  | zero =>
    have empty : queue = [] := List.length_eq_zero_iff.mp (by omega)
    subst empty
    exact ⟨by simp, closed⟩
  | succ fuel ih =>
    cases queue with
    | nil => exact ⟨by simp, closed⟩
    | cons v queue =>
      rw [search]
      split
      · rename_i hv
        have enough' : queue.length + g.unseenArcs reached ≤ fuel := by
          simp only [List.length_cons] at enough
          omega
        obtain ⟨all, done⟩ := ih queue reached enough' (closed.skip hv)
        refine ⟨?_, done⟩
        intro q hq
        rcases List.mem_cons.mp hq with rfl | hq
        · exact g.search_keeps fuel queue reached hv
        · exact all q hq
      · rename_i hv
        have enough' : (queue ++ (g.successors v).filter (· ∉ v :: reached)).length +
            g.unseenArcs (v :: reached) ≤ fuel := by
          have work := g.work_enter queue hv
          rw [List.length_cons] at enough
          omega
        obtain ⟨all, done⟩ := ih _ _ enough' closed.enter
        refine ⟨?_, done⟩
        intro q hq
        rcases List.mem_cons.mp hq with rfl | hq
        · exact g.search_keeps fuel _ _ List.mem_cons_self
        · exact all q (List.mem_append_left _ hq)

theorem mem_reachable_iff (g : Graph α) (v : α) :
    v ∈ g.reachable ↔ ∃ r ∈ g.roots, g.Reaches r v := by
  constructor
  · intro h
    rcases g.search_sound _ _ _ h with none | found
    · exact False.elim (List.not_mem_nil none)
    · exact found
  · rintro ⟨r, hr, path⟩
    obtain ⟨all, closed⟩ := g.search_closed (g.roots.length + g.arcs.length) g.roots []
      (by have := g.unseenArcs_le []; omega) (by intro u hu; exact False.elim (List.not_mem_nil hu))
    induction path with
    | refl => exact all r hr
    | tail _ arc ih => exact (closed _ ih _ arc).resolve_right List.not_mem_nil

/-- Where there is a root, an id is unreachable exactly if no path leads to it from one. -/
theorem mem_unreachable_iff (g : Graph α) (v : α) :
    v ∈ g.unreachable ↔ g.roots ≠ [] ∧ v ∈ g.ids ∧ ∀ r ∈ g.roots, ¬ g.Reaches r v := by
  have found := g.mem_reachable_iff v
  by_cases hr : g.roots = []
  · simp [unreachable, hr]
  · simp only [unreachable, List.isEmpty_iff, hr, if_false, List.mem_filter, decide_not,
      Bool.not_eq_true', decide_eq_false_iff_not, found]
    constructor
    · rintro ⟨hv, far⟩
      exact ⟨hr, hv, fun r hr path => far ⟨r, hr, path⟩⟩
    · rintro ⟨_, hv, far⟩
      exact ⟨hv, fun ⟨r, hr, path⟩ => far r hr path⟩

end Flowgraph.Graph
