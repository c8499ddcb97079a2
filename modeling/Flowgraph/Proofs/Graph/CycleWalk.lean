import Flowgraph.Graph.Analysis
import Flowgraph.Proofs.Graph.Reachability
import Mathlib.Data.List.Chain
import Mathlib.Data.List.Nodup

/-!
# What the depth-first walk finds

Every list that the walk reports is a directed cycle, and no directed cycle is left when
the arc from the last to the first id of each reported one is taken out. The cycles that
are reported need not be all cycles of the graph.

An id is done when it was visited and the path has left it. What is kept of its arcs leads
to ids that are done, and no kept path returns to it; the walk adds an id only after all
of its successors.
-/
namespace Flowgraph.Graph

variable {α : Type}

/-- Distinct ids with an arc from each to the next one and from the last to the first. -/
structure IsCycle (g : Graph α) (c : List α) : Prop where
  nonempty : c ≠ []
  distinct : c.Nodup
  chain : c.IsChain g.Arc
  closing : g.Arc (c.getLast nonempty) (c.head nonempty)

theorem IsCycle.returns {g : Graph α} {c : List α} (h : g.IsCycle c) :
    ∃ v, Relation.TransGen g.Arc v v :=
  ⟨c.getLast h.nonempty, .head' h.closing
    (List.relationReflTransGen_of_exists_isChain c h.chain h.nonempty)⟩

/-- An arc leaves each id of a cycle, so each is declared. -/
theorem IsCycle.declared {g : Graph α} {c : List α} (h : g.IsCycle c) : ∀ v ∈ c, v ∈ g.ids := by
  intro v hv
  obtain ⟨before, after, rfl⟩ := List.append_of_mem hv
  cases after with
  | nil => simpa using h.closing.1
  | cons w after =>
    have chain : (v :: w :: after).IsChain g.Arc := h.chain.right_of_append
    exact (List.isChain_cons_cons.mp chain).1.1

/-- An arc that joins the last id of none of the given cycles to its first. -/
def KeptArc (g : Graph α) (cycles : List (List α)) (u v : α) : Prop :=
  g.Arc u v ∧ ∀ c ∈ cycles, ¬(c.getLast? = some u ∧ c.head? = some v)

theorem KeptArc.mono {g : Graph α} {few many : List (List α)} (sub : ∀ c ∈ few, c ∈ many)
    {u v : α} (h : g.KeptArc many u v) : g.KeptArc few u v :=
  ⟨h.1, fun c hc => h.2 c (sub c hc)⟩

namespace Walk

variable [DecidableEq α]

/-! ## Steps -/

section

variable (g : Graph α) (u v : α) (later : List α) (rest : List (α × List α)) (visited : List α)
  (cycles : List (List α))

theorem step_leave :
    step g ⟨visited, (u, []) :: rest, cycles⟩ = ⟨visited, rest, cycles⟩ := rfl

theorem step_close (back : v ∈ u :: rest.map (·.1)) :
    step g ⟨visited, (u, v :: later) :: rest, cycles⟩ =
      ⟨visited, (u, later) :: rest, cycleFrom (u :: rest.map (·.1)) v :: cycles⟩ :=
  if_pos back

theorem step_skip (away : v ∉ u :: rest.map (·.1)) (seen : v ∈ visited) :
    step g ⟨visited, (u, v :: later) :: rest, cycles⟩ =
      ⟨visited, (u, later) :: rest, cycles⟩ :=
  (if_neg away).trans (if_pos seen)

theorem step_enter (away : v ∉ u :: rest.map (·.1)) (fresh : v ∉ visited) :
    step g ⟨visited, (u, v :: later) :: rest, cycles⟩ =
      ⟨v :: visited, (v, g.successors v) :: (u, later) :: rest, cycles⟩ :=
  (if_neg away).trans (if_neg fresh)

end

/-- What one step can do: leave the end of the path, close a cycle, skip an id that was
visited before, or enter a new one. -/
inductive Move (g : Graph α) : Walk α → Walk α → Prop
  | leave (u : α) (rest : List (α × List α)) (visited : List α) (cycles : List (List α)) :
    Move g ⟨visited, (u, []) :: rest, cycles⟩ ⟨visited, rest, cycles⟩
  | close (u v : α) (later : List α) (rest : List (α × List α)) (visited : List α)
      (cycles : List (List α)) (back : v ∈ u :: rest.map (·.1)) :
    Move g ⟨visited, (u, v :: later) :: rest, cycles⟩
      ⟨visited, (u, later) :: rest, cycleFrom (u :: rest.map (·.1)) v :: cycles⟩
  | skip (u v : α) (later : List α) (rest : List (α × List α)) (visited : List α)
      (cycles : List (List α)) (away : v ∉ u :: rest.map (·.1)) (seen : v ∈ visited) :
    Move g ⟨visited, (u, v :: later) :: rest, cycles⟩ ⟨visited, (u, later) :: rest, cycles⟩
  | enter (u v : α) (later : List α) (rest : List (α × List α)) (visited : List α)
      (cycles : List (List α)) (away : v ∉ u :: rest.map (·.1)) (fresh : v ∉ visited) :
    Move g ⟨visited, (u, v :: later) :: rest, cycles⟩
      ⟨v :: visited, (v, g.successors v) :: (u, later) :: rest, cycles⟩

theorem move_step (g : Graph α) (w : Walk α) (going : w.stack ≠ []) : Move g w (w.step g) := by
  obtain ⟨visited, stack, cycles⟩ := w
  match stack with
  | [] => exact False.elim (going rfl)
  | (u, []) :: rest => exact .leave u rest visited cycles
  | (u, v :: later) :: rest =>
    by_cases back : v ∈ u :: rest.map (·.1)
    · rw [step_close g u v later rest visited cycles back]
      exact .close u v later rest visited cycles back
    · by_cases seen : v ∈ visited
      · rw [step_skip g u v later rest visited cycles back seen]
        exact .skip u v later rest visited cycles back seen
      · rw [step_enter g u v later rest visited cycles back seen]
        exact .enter u v later rest visited cycles back seen

/-- What every move keeps, a run keeps. -/
theorem run_keeps (g : Graph α) (P : Walk α → Prop)
    (keeps : ∀ w w', Move g w w' → P w → P w') (fuel : Nat) (w : Walk α) (h : P w) :
    P (run g fuel w) := by
  induction fuel generalizing w with
  | zero => exact h
  | succ fuel ih =>
    rw [run]
    split
    · exact h
    · rename_i going
      exact ih _ (keeps _ _ (move_step g w (by simpa using going)) h)

/-! ## The path and the reported cycles -/

/-- The path has no id twice and follows arcs, and what is reported are cycles. -/
structure Sound (g : Graph α) (w : Walk α) : Prop where
  distinct : w.path.Nodup
  seen : ∀ v ∈ w.path, v ∈ w.visited
  chain : w.path.IsChain fun u t => g.Arc t u
  later : ∀ entry ∈ w.stack, ∀ v ∈ entry.2, g.Arc entry.1 v
  cycles : ∀ c ∈ w.cycles, g.IsCycle c

theorem cycleFrom_eq {before : List α} {v : α} (first : v ∉ before) (after : List α) :
    cycleFrom (before ++ v :: after) v = (before ++ [v]).reverse := by
  have all : ∀ a ∈ before, decide (a ≠ v) = true := by
    intro a ha
    refine decide_eq_true ?_
    rintro rfl
    exact first ha
  rw [cycleFrom, List.takeWhile_append_of_pos all, List.reverse_append]
  simp

/-- An arc from the end of the path back to one of its ids closes a cycle. -/
theorem isCycle_cycleFrom {g : Graph α} {u v : α} {rest : List α} (distinct : (u :: rest).Nodup)
    (chain : (u :: rest).IsChain fun u t => g.Arc t u) (back : v ∈ u :: rest) (arc : g.Arc u v) :
    g.IsCycle (cycleFrom (u :: rest) v) := by
  obtain ⟨before, after, split, first⟩ := List.eq_append_cons_of_mem back
  have part : before ++ [v] <+: u :: rest := ⟨after, by simp [split]⟩
  have last : (before ++ [v]).reverse.getLast (by simp) = u := by
    rw [List.getLast_reverse]
    cases before with
    | nil => exact (List.cons.inj split).1.symm
    | cons b before => exact (List.cons.inj split).1.symm
  rw [split, cycleFrom_eq first]
  refine ⟨by simp, ?_, ?_, ?_⟩
  · exact List.nodup_reverse.mpr (part.sublist.nodup distinct)
  · have front := chain.prefix part
    exact List.isChain_reverse.mpr front
  · rw [last]
    simpa using arc

theorem Sound.move {g : Graph α} {w w' : Walk α} (move : Move g w w') (h : Sound g w) :
    Sound g w' := by
  cases move with
  | leave u rest visited cycles =>
    exact ⟨(List.nodup_cons.mp h.distinct).2, fun v hv => h.seen v (List.mem_cons_of_mem u hv),
      h.chain.tail, fun e he => h.later e (List.mem_cons_of_mem _ he), h.cycles⟩
  | close u v later rest visited cycles back =>
    have arc : g.Arc u v := h.later _ List.mem_cons_self v List.mem_cons_self
    refine ⟨h.distinct, h.seen, h.chain, ?_, ?_⟩
    · intro e he
      rcases List.mem_cons.mp he with rfl | he
      · exact fun t ht => h.later _ List.mem_cons_self t (List.mem_cons_of_mem v ht)
      · exact h.later e (List.mem_cons_of_mem _ he)
    · intro c hc
      rcases List.mem_cons.mp hc with rfl | hc
      · exact isCycle_cycleFrom h.distinct h.chain back arc
      · exact h.cycles c hc
  | skip u v later rest visited cycles away seen =>
    refine ⟨h.distinct, h.seen, h.chain, ?_, h.cycles⟩
    intro e he
    rcases List.mem_cons.mp he with rfl | he
    · exact fun t ht => h.later _ List.mem_cons_self t (List.mem_cons_of_mem v ht)
    · exact h.later e (List.mem_cons_of_mem _ he)
  | enter u v later rest visited cycles away fresh =>
    have arc : g.Arc u v := h.later _ List.mem_cons_self v List.mem_cons_self
    refine ⟨List.nodup_cons.mpr ⟨away, h.distinct⟩, ?_, ?_, ?_, h.cycles⟩
    · intro t ht
      rcases List.mem_cons.mp ht with rfl | ht
      · exact List.mem_cons_self
      · exact List.mem_cons_of_mem v (h.seen t ht)
    · exact List.isChain_cons_cons.mpr ⟨arc, h.chain⟩
    · intro e he
      rcases List.mem_cons.mp he with rfl | he
      · exact fun t ht => (g.mem_successors_iff v t).mp ht
      rcases List.mem_cons.mp he with rfl | he
      · exact fun t ht => h.later _ List.mem_cons_self t (List.mem_cons_of_mem v ht)
      · exact h.later e (List.mem_cons_of_mem _ he)

/-! ## Termination -/

/-- How many ids have not been entered, each counted once for every place where it stands. -/
def unseenIds (g : Graph α) (visited : List α) : Nat :=
  (g.ids ++ g.arcs.map (·.2)).countP (· ∉ visited)

theorem unseenIds_cons (g : Graph α) {visited : List α} {v : α} (fresh : v ∉ visited)
    (known : v ∈ g.ids ++ g.arcs.map (·.2)) :
    unseenIds g (v :: visited) + 1 ≤ unseenIds g visited := by
  have split := countP_outside id (g.ids ++ g.arcs.map (·.2)) fresh
  have one : 0 < (g.ids ++ g.arcs.map (·.2)).countP (· = v) :=
    List.countP_pos_iff.mpr ⟨v, known, by simp⟩
  simp only [id_eq] at split
  unfold unseenIds
  omega

/-- What the path still has to look at and to leave. -/
def ahead : List (α × List α) → Nat
  | [] => 0
  | entry :: rest => entry.2.length + 1 + ahead rest

/-- The steps that are left: those ahead on the path and what entering the other ids can
add. -/
def work (g : Graph α) (w : Walk α) : Nat :=
  ahead w.stack + g.unseenArcs w.visited + unseenIds g w.visited

theorem work_move {g : Graph α} {w w' : Walk α} (move : Move g w w') (h : Sound g w) :
    work g w' + 1 ≤ work g w := by
  cases move with
  | leave u rest visited cycles =>
    simp only [work, ahead, List.length_nil]
    omega
  | close u v later rest visited cycles back =>
    simp only [work, ahead, List.length_cons]
    omega
  | skip u v later rest visited cycles away seen =>
    simp only [work, ahead, List.length_cons]
    omega
  | enter u v later rest visited cycles away fresh =>
    have arc : g.Arc u v := h.later _ List.mem_cons_self v List.mem_cons_self
    have known : v ∈ g.ids ++ g.arcs.map (·.2) :=
      List.mem_append_right _ (List.mem_map.mpr ⟨(u, v), arc.2, rfl⟩)
    have arcs := g.unseenArcs_cons fresh
    have ids := unseenIds_cons g fresh known
    simp only [work, ahead, List.length_cons]
    omega

theorem run_stack_eq_nil (g : Graph α) (fuel : Nat) (w : Walk α) (h : Sound g w)
    (enough : work g w ≤ fuel) : (run g fuel w).stack = [] := by
  induction fuel generalizing w with
  | zero =>
    obtain ⟨visited, stack, cycles⟩ := w
    cases stack with
    | nil => rfl
    | cons entry rest =>
      simp only [work, ahead] at enough
      omega
  | succ fuel ih =>
    rw [run]
    split
    · rename_i done
      simpa using done
    · rename_i going
      have move := move_step g w (by simpa using going)
      have less := work_move move h
      exact ih _ (h.move move) (by omega)

/-! ## Ids that are done -/

/-- Visited ids that are not, or no longer, on the path. -/
def Done (w : Walk α) (v : α) : Prop :=
  v ∈ w.visited ∧ v ∉ w.path

/-- What is kept of the arcs of each id on the path leads to an id that is still to be
looked at, is done, or is the next one on the path. -/
def Followed (kept : α → α → Prop) (done : α → Prop) : Option α → List (α × List α) → Prop
  | _, [] => True
  | next, (u, later) :: rest =>
    (∀ v, kept u v → v ∈ later ∨ done v ∨ next = some v) ∧ Followed kept done (some u) rest

omit [DecidableEq α] in
theorem Followed.mono {kept kept' : α → α → Prop} {done done' : α → Prop} {next : Option α}
    {stack : List (α × List α)} (fewer : ∀ u v, kept' u v → kept u v)
    (more : ∀ v, done v → done' v) (h : Followed kept done next stack) :
    Followed kept' done' next stack := by
  induction stack generalizing next with
  | nil => trivial
  | cons entry rest ih =>
    obtain ⟨u, later⟩ := entry
    refine ⟨?_, ih h.2⟩
    intro v arc
    rcases h.1 v (fewer u v arc) with hv | hv | hv
    · exact Or.inl hv
    · exact Or.inr (Or.inl (more v hv))
    · exact Or.inr (Or.inr hv)

omit [DecidableEq α] in
/-- When the end of the path is left, it is done for the id before it. -/
theorem Followed.leave {kept : α → α → Prop} {done done' : α → Prop} {u : α}
    {stack : List (α × List α)} (more : ∀ v, done v → done' v) (left : done' u)
    (h : Followed kept done (some u) stack) : Followed kept done' none stack := by
  cases stack with
  | nil => trivial
  | cons entry rest =>
    refine ⟨?_, h.2.mono (fun _ _ arc => arc) more⟩
    intro v arc
    rcases h.1 v arc with hv | hv | hv
    · exact Or.inl hv
    · exact Or.inr (Or.inl (more v hv))
    · exact Or.inr (Or.inl (Option.some.inj hv ▸ left))

structure Settled (g : Graph α) (w : Walk α) : Prop where
  followed : Followed (g.KeptArc w.cycles) w.Done none w.stack
  closed : ∀ u v, w.Done u → g.KeptArc w.cycles u v → w.Done v
  free : ∀ u, w.Done u → ¬Relation.TransGen (g.KeptArc w.cycles) u u

omit [DecidableEq α] in
theorem Settled.closed_path {g : Graph α} {w : Walk α} (h : Settled g w) {u v : α}
    (done : w.Done u) (path : Relation.ReflTransGen (g.KeptArc w.cycles) u v) : w.Done v := by
  induction path with
  | refl => exact done
  | tail _ arc ih => exact h.closed _ _ ih arc

theorem getLast?_cycleFrom {u v : α} {rest : List α} (back : v ∈ u :: rest) :
    (cycleFrom (u :: rest) v).getLast? = some u := by
  obtain ⟨before, after, split, first⟩ := List.eq_append_cons_of_mem back
  rw [split, cycleFrom_eq first, List.getLast?_reverse]
  cases before with
  | nil => exact congrArg some (List.cons.inj split).1.symm
  | cons b before => exact congrArg some (List.cons.inj split).1.symm

theorem Settled.leave {g : Graph α} {u : α} {rest : List (α × List α)} {visited : List α}
    {cycles : List (List α)} (sound : Sound g ⟨visited, (u, []) :: rest, cycles⟩)
    (h : Settled g ⟨visited, (u, []) :: rest, cycles⟩) : Settled g ⟨visited, rest, cycles⟩ := by
  have onPath : ¬Done ⟨visited, (u, []) :: rest, cycles⟩ u := fun d => d.2 List.mem_cons_self
  have left : Done ⟨visited, rest, cycles⟩ u :=
    ⟨sound.seen u List.mem_cons_self, (List.nodup_cons.mp sound.distinct).1⟩
  have more : ∀ v, Done ⟨visited, (u, []) :: rest, cycles⟩ v → Done ⟨visited, rest, cycles⟩ v :=
    fun v d => ⟨d.1, fun hv => d.2 (List.mem_cons_of_mem u hv)⟩
  have split : ∀ v, Done ⟨visited, rest, cycles⟩ v →
      v = u ∨ Done ⟨visited, (u, []) :: rest, cycles⟩ v := by
    intro v d
    by_cases hv : v = u
    · exact Or.inl hv
    · exact Or.inr ⟨d.1, fun hp => (List.mem_cons.mp hp).elim hv d.2⟩
  have out : ∀ v, g.KeptArc cycles u v → Done ⟨visited, (u, []) :: rest, cycles⟩ v := by
    intro v arc
    rcases h.followed.1 v arc with hv | hv | hv
    · exact False.elim (List.not_mem_nil hv)
    · exact hv
    · cases hv
  refine ⟨h.followed.2.leave more left, ?_, ?_⟩
  · intro x v dx arc
    rcases split x dx with rfl | dx
    · exact more v (out v arc)
    · exact more v (h.closed x v dx arc)
  · intro x dx path
    rcases split x dx with rfl | dx
    · -- The first arc leads to an id that was done before, and from there nothing returns.
      obtain ⟨v, arc, back⟩ := Relation.TransGen.head'_iff.mp path
      exact onPath (h.closed_path (out v arc) back)
    · exact h.free x dx path

/-- The arc that closes a reported cycle is not kept, so the path need not follow it. -/
theorem Settled.close {g : Graph α} {u v : α} {later : List α} {rest : List (α × List α)}
    {visited : List α} {cycles : List (List α)} (back : v ∈ u :: rest.map (·.1))
    (h : Settled g ⟨visited, (u, v :: later) :: rest, cycles⟩) :
    Settled g ⟨visited, (u, later) :: rest, cycleFrom (u :: rest.map (·.1)) v :: cycles⟩ := by
  have fewer : ∀ x y, g.KeptArc (cycleFrom (u :: rest.map (·.1)) v :: cycles) x y →
      g.KeptArc cycles x y :=
    fun x y => KeptArc.mono fun c hc => List.mem_cons_of_mem _ hc
  have cut : ¬g.KeptArc (cycleFrom (u :: rest.map (·.1)) v :: cycles) u v :=
    fun arc => arc.2 _ List.mem_cons_self ⟨getLast?_cycleFrom back, rfl⟩
  refine ⟨⟨?_, h.followed.2.mono fewer fun _ d => d⟩, ?_, ?_⟩
  · intro x arc
    rcases h.followed.1 x (fewer u x arc) with hx | hx | hx
    · rcases List.mem_cons.mp hx with rfl | hx
      · exact False.elim (cut arc)
      · exact Or.inl hx
    · exact Or.inr (Or.inl hx)
    · exact Or.inr (Or.inr hx)
  · exact fun x y dx arc => h.closed x y dx (fewer x y arc)
  · exact fun x dx path => h.free x dx (Relation.TransGen.mono fewer x x path)

/-- An id that is entered was not done before and is not done now. -/
theorem Settled.enter {g : Graph α} {u v : α} {later : List α} {rest : List (α × List α)}
    {visited : List α} {cycles : List (List α)} (fresh : v ∉ visited)
    (h : Settled g ⟨visited, (u, v :: later) :: rest, cycles⟩) :
    Settled g ⟨v :: visited, (v, g.successors v) :: (u, later) :: rest, cycles⟩ := by
  have same : ∀ x, Done ⟨v :: visited, (v, g.successors v) :: (u, later) :: rest, cycles⟩ x ↔
      Done ⟨visited, (u, v :: later) :: rest, cycles⟩ x := by
    intro x
    constructor
    · rintro ⟨hx, hp⟩
      have ne : x ≠ v := fun e => hp (e ▸ List.mem_cons_self)
      exact ⟨(List.mem_cons.mp hx).resolve_left ne, fun hx => hp (List.mem_cons_of_mem v hx)⟩
    · rintro ⟨hx, hp⟩
      refine ⟨List.mem_cons_of_mem v hx, fun hx' => ?_⟩
      rcases List.mem_cons.mp hx' with rfl | hx'
      · exact fresh hx
      · exact hp hx'
  refine ⟨⟨?_, ?_, h.followed.2.mono (fun _ _ arc => arc) fun x => (same x).mpr⟩, ?_, ?_⟩
  · exact fun x arc => Or.inl ((g.mem_successors_iff v x).mpr arc.1)
  · intro x arc
    rcases h.followed.1 x arc with hx | hx | hx
    · rcases List.mem_cons.mp hx with rfl | hx
      · exact Or.inr (Or.inr rfl)
      · exact Or.inl hx
    · exact Or.inr (Or.inl ((same x).mpr hx))
    · cases hx
  · exact fun x y dx arc => (same y).mpr (h.closed x y ((same x).mp dx) arc)
  · exact fun x dx path => h.free x ((same x).mp dx) path

theorem Settled.move {g : Graph α} {w w' : Walk α} (move : Move g w w') (sound : Sound g w)
    (h : Settled g w) : Settled g w' := by
  cases move with
  | leave u rest visited cycles => exact h.leave sound
  | close u v later rest visited cycles back => exact h.close back
  | skip u v later rest visited cycles away seen =>
    refine ⟨⟨?_, h.followed.2⟩, h.closed, h.free⟩
    intro x arc
    rcases h.followed.1 x arc with hx | hx
    · rcases List.mem_cons.mp hx with rfl | hx
      · exact Or.inr (Or.inl ⟨seen, away⟩)
      · exact Or.inl hx
    · exact Or.inr hx
  | enter u v later rest visited cycles away fresh => exact h.enter fresh

/-! ## The walk from every id -/

/-- Between two roots: the path is empty and every visited id is done. -/
structure Rested (g : Graph α) (w : Walk α) : Prop where
  idle : w.stack = []
  sound : Sound g w
  settled : Settled g w

theorem Rested.enter {g : Graph α} {w : Walk α} (h : Rested g w) {root : α}
    (fresh : root ∉ w.visited) :
    Sound g (w.enter g root) ∧ Settled g (w.enter g root) := by
  obtain ⟨visited, stack, cycles⟩ := w
  obtain rfl : stack = [] := h.idle
  have same : ∀ x, Done (Walk.enter g ⟨visited, [], cycles⟩ root) x →
      Done ⟨visited, [], cycles⟩ x := by
    rintro x ⟨hx, hp⟩
    have ne : x ≠ root := fun e => hp (e ▸ List.mem_cons_self)
    exact ⟨(List.mem_cons.mp hx).resolve_left ne, List.not_mem_nil⟩
  have keep : ∀ x, Done ⟨visited, [], cycles⟩ x →
      Done (Walk.enter g ⟨visited, [], cycles⟩ root) x := by
    rintro x ⟨hx, _⟩
    refine ⟨List.mem_cons_of_mem root hx, fun hp => ?_⟩
    have same : x = root := List.mem_singleton.mp hp
    exact fresh (same ▸ hx)
  constructor
  · refine ⟨List.nodup_singleton root, ?_, List.isChain_singleton root, ?_, h.sound.cycles⟩
    · exact fun v hv => List.mem_singleton.mp hv ▸ List.mem_cons_self
    · intro e he v hv
      obtain rfl := List.mem_singleton.mp he
      exact (g.mem_successors_iff root v).mp hv
  · refine ⟨⟨?_, trivial⟩, ?_, ?_⟩
    · exact fun v arc => Or.inl ((g.mem_successors_iff root v).mpr arc.1)
    · exact fun x y dx arc => keep y (h.settled.closed x y (same x dx) arc)
    · exact fun x dx path => h.settled.free x (same x dx) path

theorem work_enter_le (g : Graph α) (w : Walk α) {root : α} (fresh : root ∉ w.visited) :
    work g (w.enter g root) ≤ 2 * g.arcs.length + g.ids.length + 1 := by
  have paid := g.unseenArcs_cons fresh
  have arcs := g.unseenArcs_le w.visited
  have ids : unseenIds g (root :: w.visited) ≤ (g.ids ++ g.arcs.map (·.2)).length :=
    List.countP_le_length
  simp only [List.length_append, List.length_map] at ids
  simp only [work, ahead, enter]
  omega

theorem Rested.visit {g : Graph α} {w : Walk α} (h : Rested g w) (root : α) :
    Rested g (w.visit g root) := by
  unfold Walk.visit
  split
  · exact h
  · rename_i fresh
    obtain ⟨sound, settled⟩ := h.enter fresh
    have both := run_keeps g (fun w => Sound g w ∧ Settled g w)
      (fun w w' move both => ⟨both.1.move move, both.2.move move both.1⟩)
      (2 * g.arcs.length + g.ids.length + 1) _ ⟨sound, settled⟩
    exact ⟨run_stack_eq_nil g _ _ sound (work_enter_le g w fresh), both.1, both.2⟩

theorem visited_move {g : Graph α} {w w' : Walk α} (move : Move g w w') {v : α}
    (h : v ∈ w.visited) : v ∈ w'.visited := by
  cases move with
  | leave | close | skip => exact h
  | enter => exact List.mem_cons_of_mem _ h

theorem visited_visit (g : Graph α) (w : Walk α) (root : α) {v : α}
    (h : v = root ∨ v ∈ w.visited) : v ∈ (w.visit g root).visited := by
  unfold Walk.visit
  split
  · rename_i seen
    rcases h with rfl | h
    · exact seen
    · exact h
  · refine run_keeps g (fun w => v ∈ w.visited) (fun _ _ move => visited_move move) _ _ ?_
    exact List.mem_cons.mpr h

theorem visited_foldl (g : Graph α) (roots : List α) (w : Walk α) {v : α}
    (h : v ∈ roots ∨ v ∈ w.visited) : v ∈ (roots.foldl (Walk.visit g) w).visited := by
  induction roots generalizing w with
  | nil => exact h.resolve_left List.not_mem_nil
  | cons root rest ih =>
    apply ih
    rcases h with h | h
    · rcases List.mem_cons.mp h with rfl | h
      · exact Or.inr (visited_visit g w v (Or.inl rfl))
      · exact Or.inl h
    · exact Or.inr (visited_visit g w root (Or.inr h))

theorem Rested.foldl {g : Graph α} (roots : List α) {w : Walk α} (h : Rested g w) :
    Rested g (roots.foldl (Walk.visit g) w) := by
  induction roots generalizing w with
  | nil => exact h
  | cons root rest ih => exact ih (h.visit root)

omit [DecidableEq α] in
theorem Rested.initial (g : Graph α) : Rested g ⟨[], [], []⟩ where
  idle := rfl
  sound := ⟨.nil, by simp [path], .nil, by simp, by simp⟩
  settled := ⟨trivial, fun _ _ d => False.elim (List.not_mem_nil d.1),
    fun _ d => False.elim (List.not_mem_nil d.1)⟩

end Walk

variable [DecidableEq α]

theorem isCycle_of_mem_cycles (g : Graph α) {c : List α} (h : c ∈ g.cycles) : g.IsCycle c :=
  ((Walk.Rested.initial g).foldl g.ids).sound.cycles c (List.mem_reverse.mp h)

/-- Taking out the last arc of each reported cycle leaves no directed cycle. -/
theorem no_kept_cycle (g : Graph α) (v : α) :
    ¬Relation.TransGen (g.KeptArc g.cycles) v v := by
  intro path
  have rested := (Walk.Rested.initial g).foldl g.ids
  have kept : ∀ x y, g.KeptArc g.cycles x y →
      g.KeptArc (g.ids.foldl (Walk.visit g) ⟨[], [], []⟩).cycles x y :=
    fun x y => KeptArc.mono fun c hc => List.mem_reverse.mpr hc
  obtain ⟨_, arc, _⟩ := Relation.TransGen.head'_iff.mp path
  have done : (g.ids.foldl (Walk.visit g) ⟨[], [], []⟩).Done v := by
    refine ⟨Walk.visited_foldl g g.ids _ (Or.inl arc.1.1), ?_⟩
    rw [Walk.path, rested.idle]
    exact List.not_mem_nil
  exact rested.settled.free v done (Relation.TransGen.mono kept v v path)

theorem cycles_eq_nil_iff (g : Graph α) :
    g.cycles = [] ↔ ∀ v, ¬Relation.TransGen g.Arc v v := by
  constructor
  · intro none v path
    apply g.no_kept_cycle v
    have kept : ∀ x y, g.Arc x y → g.KeptArc g.cycles x y :=
      fun x y arc => ⟨arc, by simp [none]⟩
    exact Relation.TransGen.mono kept v v path
  · intro acyclic
    refine List.eq_nil_iff_forall_not_mem.mpr fun c hc => ?_
    obtain ⟨v, path⟩ := (g.isCycle_of_mem_cycles hc).returns
    exact acyclic v path

/-- For all nodes and edges: what is reported are cycles of declared ids, the edges that close
them break every cycle, and nothing is reported exactly when there is no cycle. -/
theorem cycles_break_every_cycle (nodes : List Node) (edges : List Edge) :
    let g := graphOf nodes edges
    (∀ c ∈ g.cycles, g.IsCycle c ∧ ∀ v ∈ c, v ∈ g.ids) ∧
      (∀ v, ¬Relation.TransGen (g.KeptArc g.cycles) v v) ∧
      (g.isAcyclic = true ↔ ∀ v, ¬Relation.TransGen g.Arc v v) := by
  intro g
  refine ⟨?_, g.no_kept_cycle, ?_⟩
  · intro c hc
    have cycle := g.isCycle_of_mem_cycles hc
    exact ⟨cycle, cycle.declared⟩
  · rw [isAcyclic, List.isEmpty_iff, cycles_eq_nil_iff]

/-- Not every cycle is reported: `c` was visited from `b` before the arc from `a` is looked at. -/
example :
    let g : Graph String :=
      ⟨["a", "b", "c"], [], [("a", "b"), ("b", "c"), ("c", "a"), ("a", "c")]⟩
    g.cycles = [["a", "b", "c"]] ∧ g.IsCycle ["a", "c"] :=
  ⟨by decide, by simp, by simp, by simp [Arc], by simp [Arc]⟩

end Flowgraph.Graph
