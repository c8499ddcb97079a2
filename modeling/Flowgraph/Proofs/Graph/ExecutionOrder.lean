import Flowgraph.Graph.Analysis
import Flowgraph.Proofs.Graph.CycleWalk
import Mathlib.Data.Fintype.Pigeonhole
import Mathlib.Data.Set.Finite.List
import Mathlib.Order.WellFounded

/-!
# What the execution order holds

An id is placed exactly if every id from which a path of arcs leads to it is declared and
lies on no cycle. Each arc into a placed id comes from an id that was placed before. Here an
arc counts whether its source is declared or not, since an arc from an undeclared id keeps
its target from being placed for good.

The counts of a run are those of the arcs whose source was not placed yet, and the ids with
count zero are those that are placed or queued. Nothing is said of the order in which ids
are placed that could be placed at the same time.
-/
namespace Flowgraph.Graph

variable {α : Type}

/-- An arc leads from one id to another; neither need be declared. -/
def Joins (g : Graph α) (u v : α) : Prop :=
  (u, v) ∈ g.arcs

/-- Every arc into an id of the list comes from an id that stands before it. -/
def Arranged (g : Graph α) (order : List α) : Prop :=
  ∀ (j : Nat) (v : α), order[j]? = some v → ∀ u, g.Joins u v → ∃ i < j, order[i]? = some u

theorem Arranged.concat {g : Graph α} {order : List α} {v : α} (h : g.Arranged order)
    (before : ∀ u, g.Joins u v → u ∈ order) : g.Arranged (order ++ [v]) := by
  intro j w hw u arc
  rcases Nat.lt_or_ge j order.length with hj | hj
  · rw [List.getElem?_append_left hj] at hw
    obtain ⟨i, hi, hu⟩ := h j w hw u arc
    exact ⟨i, hi, by rw [List.getElem?_append_left (hi.trans hj), hu]⟩
  · rw [List.getElem?_append_right hj] at hw
    obtain rfl := List.mem_singleton.mp (List.mem_of_getElem? hw)
    obtain ⟨i, hi⟩ := List.mem_iff_getElem?.mp (before u arc)
    have inside : i < order.length := (List.getElem?_eq_some_iff.mp hi).1
    exact ⟨i, inside.trans_le hj, by rw [List.getElem?_append_left inside, hi]⟩

/-- From an arranged id no way leads back for ever. -/
theorem Arranged.acc {g : Graph α} {order : List α} (h : g.Arranged order) (j : Nat) (v : α)
    (hv : order[j]? = some v) : Acc g.Joins v := by
  induction j using Nat.strongRecOn generalizing v with
  | ind j ih =>
    refine Acc.intro v fun u arc => ?_
    obtain ⟨i, hi, hu⟩ := h j v hv u arc
    exact ih i hi u hu

variable [DecidableEq α]

/-! ## Following the arcs of one id -/

theorem count?_follow (p : Pending α) (targets : List α) (w : α) :
    (follow p targets).1.count? w = (p.count? w).map (· - (targets.count w : Int)) := by
  induction targets generalizing p with
  | nil => cases h : p.count? w <;> simp [follow, h]
  | cons v rest ih =>
    rw [follow, ih, Pending.count?_decrement, List.count_cons]
    cases h : p.count? w with
    | none => split <;> rfl
    | some n =>
      by_cases hw : w = v
      · subst hw
        simp only [if_true, Option.map_some, beq_self_eq_true, Option.some.injEq]
        omega
      · have hv : ¬v = w := fun e => hw e.symm
        simp [hw, hv]

theorem freed_cons (p : Pending α) (v : α) (rest : List α) :
    (follow p (v :: rest)).2 =
      if (p.decrement v).count? v = some 0 then v :: (follow (p.decrement v) rest).2
      else (follow (p.decrement v) rest).2 := rfl

/-- An id without a count is never freed. -/
theorem not_mem_freed (p : Pending α) (targets : List α) {w : α} (h : p.count? w = none) :
    w ∉ (follow p targets).2 := by
  induction targets generalizing p with
  | nil => exact List.not_mem_nil
  | cons v rest ih =>
    have next : (p.decrement v).count? w = none := by
      rw [Pending.count?_decrement, h]
      split <;> rfl
    rw [freed_cons]
    split
    · rename_i freed
      intro hw
      rcases List.mem_cons.mp hw with rfl | hw
      · rw [next] at freed
        cases freed
      · exact ih _ next hw
    · exact ih _ next

/-- An id is freed once, namely when its count reaches zero. -/
theorem count_freed (p : Pending α) (targets : List α) {w : α} {n : Int}
    (h : p.count? w = some n) :
    (follow p targets).2.count w = if 1 ≤ n ∧ n ≤ targets.count w then 1 else 0 := by
  induction targets generalizing p n with
  | nil =>
    rw [if_neg (by simp only [List.count_nil]; omega)]
    rfl
  | cons v rest ih =>
    rw [freed_cons]
    by_cases hw : v = w
    · subst hw
      have next : (p.decrement v).count? v = some (n - 1) := by
        rw [Pending.count?_decrement, h, if_pos rfl]
        rfl
      have later := ih _ next
      rw [next, List.count_cons_self]
      by_cases zero : n - 1 = 0
      · rw [if_pos (congrArg some zero), List.count_cons_self, later, if_neg (by omega),
          if_pos (by omega)]
      · rw [if_neg (fun e => zero (Option.some.inj e)), later]
        exact if_congr (by omega) rfl rfl
    · have next : (p.decrement v).count? w = some n := by
        rw [Pending.count?_decrement, h, if_neg fun e => hw e.symm]
      rw [List.count_cons_of_ne hw, ← ih _ next]
      split
      · exact List.count_cons_of_ne hw
      · rfl

/-! ## The counts -/

/-- How many arcs into an id come from ids outside a list. -/
def openArcs (g : Graph α) (placed : List α) (v : α) : Nat :=
  (g.arcs.filter (·.2 = v)).countP (·.1 ∉ placed)

theorem openArcs_nil (g : Graph α) (v : α) : g.openArcs [] v = g.indegree v := by
  simp [openArcs, indegree, List.countP_eq_length_filter]

theorem openArcs_eq_zero_iff (g : Graph α) (placed : List α) (v : α) :
    g.openArcs placed v = 0 ↔ ∀ u, g.Joins u v → u ∈ placed := by
  simp only [openArcs, List.countP_eq_zero, List.mem_filter, decide_eq_true_eq, Decidable.not_not]
  constructor
  · exact fun all u arc => all (u, v) ⟨arc, rfl⟩
  · rintro all ⟨u, w⟩ ⟨arc, rfl⟩
    exact all u arc

/-- When an id is placed, its arcs are followed, and no other arc is. -/
theorem openArcs_concat (g : Graph α) {placed : List α} {v : α} (fresh : v ∉ placed)
    (declared : v ∈ g.ids) (w : α) :
    g.openArcs placed w = g.openArcs (placed ++ [v]) w + (g.successors v).count w := by
  have own : (g.successors v).count w = (g.arcs.filter (·.2 = w)).countP (·.1 = v) := by
    rw [successors, if_pos declared, List.count, List.countP_map, List.countP_filter,
      List.countP_filter]
    refine List.countP_congr fun a _ => ?_
    simp [and_comm]
  have same : g.openArcs (placed ++ [v]) w = g.openArcs (v :: placed) w :=
    List.countP_congr fun a _ => by simp [and_comm]
  rw [own, same]
  exact countP_outside Prod.fst _ fresh

theorem count?_pending (g : Graph α) (v : α) :
    g.pending.count? v = if v ∈ g.ids then some (g.indegree v : Int) else none := by
  unfold pending
  induction g.ids with
  | nil => rfl
  | cons w rest ih =>
    rw [List.map_cons, Pending.count?_cons, ih]
    by_cases hw : w = v
    · simp [hw]
    · have hv : ¬v = w := fun e => hw e.symm
      simp [hw, hv]

/-! ## Placing ids -/

/-- What holds between two rounds: which ids are placed or queued, and what is counted. -/
structure Placing (g : Graph α) (placed queue : List α) (p : Pending α) : Prop where
  distinct : (placed ++ queue).Nodup
  declared : ∀ v ∈ placed ++ queue, v ∈ g.ids
  counts : ∀ v, p.count? v = if v ∈ g.ids then some (g.openArcs placed v : Int) else none
  free : ∀ v ∈ g.ids, (v ∈ placed ++ queue ↔ g.openArcs placed v = 0)
  arranged : g.Arranged placed

theorem Placing.initial {g : Graph α} (distinct : g.ids.Nodup) :
    g.Placing [] (g.ids.filter fun v => g.indegree v = 0) g.pending where
  distinct := distinct.filter _
  declared := fun v hv => (List.mem_filter.mp hv).1
  counts := fun v => by rw [count?_pending, openArcs_nil]
  free := fun v hv => by simp [openArcs_nil, hv]
  arranged := fun j v hv => by cases hv

section

variable {g : Graph α} {placed queue : List α} {v : α} {p : Pending α}

theorem Placing.head (h : g.Placing placed (v :: queue) p) : v ∈ g.ids ∧ v ∉ placed :=
  ⟨h.declared v (List.mem_append_right _ List.mem_cons_self),
    fun hv => List.disjoint_of_nodup_append h.distinct hv List.mem_cons_self⟩

/-- The ids that become free: those whose last open arc comes from the id that is placed. -/
theorem Placing.freed (h : g.Placing placed (v :: queue) p) :
    (follow p (g.successors v)).2.Nodup ∧ ∀ w, w ∈ (follow p (g.successors v)).2 ↔
      w ∈ g.ids ∧ g.openArcs placed w ≠ 0 ∧ g.openArcs (placed ++ [v]) w = 0 := by
  obtain ⟨known, fresh⟩ := h.head
  have count : ∀ w ∈ g.ids, (follow p (g.successors v)).2.count w =
      if g.openArcs placed w ≠ 0 ∧ g.openArcs (placed ++ [v]) w = 0 then 1 else 0 := by
    intro w hw
    have opened := g.openArcs_concat fresh known w
    rw [count_freed p _ ((h.counts w).trans (if_pos hw))]
    exact if_congr (by omega) rfl rfl
  have unknown : ∀ w, w ∉ g.ids → w ∉ (follow p (g.successors v)).2 := fun w hw =>
    not_mem_freed p _ ((h.counts w).trans (if_neg hw))
  constructor
  · rw [List.nodup_iff_count_le_one]
    intro w
    by_cases hw : w ∈ g.ids
    · rw [count w hw]
      split <;> omega
    · rw [List.count_eq_zero_of_not_mem (unknown w hw)]
      omega
  · intro w
    by_cases hw : w ∈ g.ids
    · rw [← List.count_pos_iff, count w hw]
      split
      · rename_i last
        exact iff_of_true Nat.one_pos ⟨hw, last⟩
      · rename_i last
        exact iff_of_false (Nat.lt_irrefl 0) fun h => last h.2
    · exact iff_of_false (unknown w hw) fun h => hw h.1

theorem Placing.round (h : g.Placing placed (v :: queue) p) :
    g.Placing (placed ++ [v]) (queue ++ (follow p (g.successors v)).2)
      (follow p (g.successors v)).1 := by
  obtain ⟨known, fresh⟩ := h.head
  obtain ⟨once, freed⟩ := h.freed
  have listed : placed ++ [v] ++ (queue ++ (follow p (g.successors v)).2) =
      (placed ++ v :: queue) ++ (follow p (g.successors v)).2 := by simp
  refine ⟨?_, ?_, ?_, ?_, ?_⟩
  · rw [listed, List.nodup_append]
    refine ⟨h.distinct, once, ?_⟩
    rintro w old _ new rfl
    exact ((freed w).mp new).2.1 ((h.free w (h.declared w old)).mp old)
  · rw [listed]
    intro w hw
    rcases List.mem_append.mp hw with old | new
    · exact h.declared w old
    · exact ((freed w).mp new).1
  · intro w
    rw [count?_follow, h.counts w, g.openArcs_concat fresh known w]
    split
    · simp
    · rfl
  · intro w hw
    have opened := g.openArcs_concat fresh known w
    rw [listed, List.mem_append, freed w, h.free w hw]
    constructor
    · rintro (zero | ⟨_, _, zero⟩) <;> omega
    · intro zero
      by_cases old : g.openArcs placed w = 0
      · exact Or.inl old
      · exact Or.inr ⟨hw, old, zero⟩
  · have zero := (h.free v known).mp (List.mem_append_right _ List.mem_cons_self)
    exact h.arranged.concat ((g.openArcs_eq_zero_iff placed v).mp zero)

end

/-- What holds at first and is kept by every round holds when the queue is empty. -/
theorem Placing.run {g : Graph α} {Kept : List α → List α → Prop}
    (keeps : ∀ placed v queue p, g.Placing placed (v :: queue) p → Kept placed (v :: queue) →
      Kept (placed ++ [v]) (queue ++ (follow p (g.successors v)).2))
    (fuel : Nat) {placed queue : List α} {p : Pending α} (h : g.Placing placed queue p)
    (enough : g.ids.length ≤ placed.length + fuel) (kept : Kept placed queue) :
    (∃ q, g.Placing (placed ++ g.place fuel p queue) [] q) ∧
      Kept (placed ++ g.place fuel p queue) [] := by
  induction fuel generalizing placed queue p with
  | zero =>
    have fits := (List.subperm_of_subset h.distinct h.declared).length_le
    have empty : queue = [] := by
      rw [List.length_append] at fits
      exact List.length_eq_zero_iff.mp (by omega)
    subst empty
    rw [place, List.append_nil]
    exact ⟨⟨p, h⟩, kept⟩
  | succ fuel ih =>
    cases queue with
    | nil =>
      have none : g.place (fuel + 1) p [] = [] := rfl
      rw [none, List.append_nil]
      exact ⟨⟨p, h⟩, kept⟩
    | cons v queue =>
      have next := ih h.round (by rw [List.length_append, List.length_singleton]; omega)
        (keeps placed v queue p h kept)
      simpa [place] using next

theorem executionOrder_keeps {g : Graph α} (Kept : List α → List α → Prop)
    (distinct : g.ids.Nodup) (first : Kept [] (g.ids.filter fun v => g.indegree v = 0))
    (keeps : ∀ placed v queue p, g.Placing placed (v :: queue) p → Kept placed (v :: queue) →
      Kept (placed ++ [v]) (queue ++ (follow p (g.successors v)).2)) :
    (∃ q, g.Placing g.executionOrder [] q) ∧ Kept g.executionOrder [] :=
  Placing.run keeps g.ids.length (Placing.initial distinct) (by simp) first

theorem placing_executionOrder {g : Graph α} (distinct : g.ids.Nodup) :
    ∃ q, g.Placing g.executionOrder [] q :=
  (executionOrder_keeps (fun _ _ => True) distinct trivial fun _ _ _ _ _ _ => trivial).1

theorem nodup_executionOrder {g : Graph α} (distinct : g.ids.Nodup) : g.executionOrder.Nodup := by
  obtain ⟨q, done⟩ := placing_executionOrder distinct
  simpa using done.distinct

theorem arranged_executionOrder {g : Graph α} (distinct : g.ids.Nodup) :
    g.Arranged g.executionOrder := by
  obtain ⟨q, done⟩ := placing_executionOrder distinct
  exact done.arranged

/-- No id is left that could be placed. -/
theorem mem_executionOrder_iff {g : Graph α} (distinct : g.ids.Nodup) (v : α) :
    v ∈ g.executionOrder ↔ v ∈ g.ids ∧ ∀ u, g.Joins u v → u ∈ g.executionOrder := by
  obtain ⟨q, done⟩ := placing_executionOrder distinct
  have declared : v ∈ g.executionOrder → v ∈ g.ids := fun hv =>
    done.declared v (List.mem_append_left _ hv)
  rw [← openArcs_eq_zero_iff]
  constructor
  · exact fun hv => ⟨declared hv, (done.free v (declared hv)).mp (List.mem_append_left _ hv)⟩
  · rintro ⟨hv, zero⟩
    simpa using (done.free v hv).mpr zero

/-! ## Going backwards -/

omit [DecidableEq α] in
/-- From where one cannot go back for ever, no way back meets a cycle. -/
theorem no_cycle_of_acc {g : Graph α} {v : α} (h : Acc g.Joins v) (u : α)
    (path : Relation.ReflTransGen g.Joins u v) : ¬Relation.TransGen g.Joins u u := by
  induction h generalizing u with
  | intro v _ ih =>
    intro cycle
    rcases Relation.ReflTransGen.cases_tail path with rfl | ⟨t, path, arc⟩
    · obtain ⟨t, path, arc⟩ := Relation.TransGen.tail'_iff.mp cycle
      exact ih t arc t .refl (.head' arc path)
    · exact ih t arc u path cycle

omit [DecidableEq α] in
/-- Among finitely many ids, a way back that goes on for ever comes to one of them again. -/
theorem acc_of_no_cycle {g : Graph α} {v : α}
    (declared : ∀ u, Relation.TransGen g.Joins u v → u ∈ g.ids)
    (free : ∀ u, Relation.ReflTransGen g.Joins u v → ¬Relation.TransGen g.Joins u u) :
    Acc g.Joins v := by
  by_contra endless
  obtain ⟨walk, start, back⟩ := not_acc_iff_exists_descending_chain.mp endless
  have path : ∀ {i j : Nat}, i < j → Relation.TransGen g.Joins (walk j) (walk i) := fun less =>
    Nat.rel_of_forall_rel_succ_of_lt (Function.swap (Relation.TransGen g.Joins))
      (fun n => .single (back n)) less
  have before : ∀ n, Relation.TransGen g.Joins (walk (n + 1)) v := fun n =>
    start ▸ path (Nat.succ_pos n)
  have finite : Finite {u // u ∈ g.ids} := g.ids.finite_toSet.to_subtype
  obtain ⟨i, j, other, same⟩ := Finite.exists_ne_map_eq_of_infinite fun n =>
    (⟨walk (n + 1), declared _ (before n)⟩ : {u // u ∈ g.ids})
  have same : walk (i + 1) = walk (j + 1) := congrArg Subtype.val same
  rcases Nat.lt_or_gt_of_ne other with less | less
  · have cycle := path (Nat.succ_lt_succ less)
    exact free _ (before i).to_reflTransGen (same ▸ cycle)
  · have cycle := path (Nat.succ_lt_succ less)
    exact free _ (before j).to_reflTransGen (same ▸ cycle)

theorem acc_of_mem_executionOrder {g : Graph α} (distinct : g.ids.Nodup) {v : α}
    (h : v ∈ g.executionOrder) : Acc g.Joins v := by
  obtain ⟨j, hj⟩ := List.mem_iff_getElem?.mp h
  exact (arranged_executionOrder distinct).acc j v hj

theorem declared_before {g : Graph α} (distinct : g.ids.Nodup) {u v : α}
    (h : v ∈ g.executionOrder) (path : Relation.TransGen g.Joins u v) : u ∈ g.ids := by
  have placed : u ∈ g.executionOrder := by
    induction path using Relation.TransGen.head_induction_on with
    | single arc => exact ((mem_executionOrder_iff distinct v).mp h).2 _ arc
    | head arc _ ih => exact ((mem_executionOrder_iff distinct _).mp ih).2 _ arc
  exact ((mem_executionOrder_iff distinct u).mp placed).1

theorem mem_executionOrder_of_acc {g : Graph α} (distinct : g.ids.Nodup) {v : α}
    (known : v ∈ g.ids) (declared : ∀ u, Relation.TransGen g.Joins u v → u ∈ g.ids)
    (h : Acc g.Joins v) : v ∈ g.executionOrder := by
  induction h with
  | intro v _ ih =>
    refine (mem_executionOrder_iff distinct v).mpr ⟨known, fun u arc => ?_⟩
    exact ih u arc (declared u (.single arc)) fun t path => declared t (path.tail arc)

theorem mem_executionOrder_iff_acc {g : Graph α} (distinct : g.ids.Nodup) {v : α}
    (known : v ∈ g.ids) : v ∈ g.executionOrder ↔
      (∀ u, Relation.TransGen g.Joins u v → u ∈ g.ids) ∧ Acc g.Joins v := by
  constructor
  · exact fun h => ⟨fun u path => declared_before distinct h path,
      acc_of_mem_executionOrder distinct h⟩
  · exact fun ⟨declared, h⟩ => mem_executionOrder_of_acc distinct known declared h

theorem mem_executionOrder_iff_noCycle {g : Graph α} (distinct : g.ids.Nodup) {v : α}
    (known : v ∈ g.ids) : v ∈ g.executionOrder ↔
      (∀ u, Relation.TransGen g.Joins u v → u ∈ g.ids) ∧
        ∀ u, Relation.ReflTransGen g.Joins u v → ¬Relation.TransGen g.Joins u u := by
  rw [mem_executionOrder_iff_acc distinct known]
  exact and_congr_right fun declared => ⟨no_cycle_of_acc, acc_of_no_cycle declared⟩

/-- Where every source is declared, nothing but a cycle keeps an id from being placed. -/
theorem all_placed_iff {g : Graph α} (distinct : g.ids.Nodup)
    (sources : ∀ a ∈ g.arcs, a.1 ∈ g.ids) :
    (∀ v ∈ g.ids, v ∈ g.executionOrder) ↔ g.cycles = [] := by
  have same : g.Arc = g.Joins := by
    funext u v
    exact propext ⟨And.right, fun arc => ⟨sources _ arc, arc⟩⟩
  rw [cycles_eq_nil_iff, same]
  constructor
  · intro all v cycle
    obtain ⟨_, arc, _⟩ := Relation.TransGen.head'_iff.mp cycle
    have known : v ∈ g.ids := sources _ arc
    exact ((mem_executionOrder_iff_noCycle distinct known).mp (all v known)).2 v .refl cycle
  · intro acyclic v known
    refine (mem_executionOrder_iff_noCycle distinct known).mpr ⟨?_, fun u _ => acyclic u⟩
    intro u path
    obtain ⟨_, arc, _⟩ := Relation.TransGen.head'_iff.mp path
    exact sources _ arc

/-! ## The largest order -/

/-- An order of declared ids that follows the arcs and could not be longer. -/
structure IsMaximalOrder (g : Graph α) (order : List α) : Prop where
  distinct : order.Nodup
  declared : ∀ v ∈ order, v ∈ g.ids
  /-- On the way back from an id that is in the order every id is declared, and no such way
  goes on for ever. -/
  backwards : ∀ v ∈ g.ids, (v ∈ order ↔ (∀ u, Relation.TransGen g.Joins u v → u ∈ g.ids) ∧
    ¬∃ walk : Nat → α, walk 0 = v ∧ ∀ n, g.Joins (walk (n + 1)) (walk n))
  /-- An id that is in the order neither lies on a cycle nor behind one. -/
  noCycle : ∀ v ∈ g.ids, (v ∈ order ↔ (∀ u, Relation.TransGen g.Joins u v → u ∈ g.ids) ∧
    ∀ u, Relation.ReflTransGen g.Joins u v → ¬Relation.TransGen g.Joins u u)
  arranged : g.Arranged order
  complete : (∀ a ∈ g.arcs, a.1 ∈ g.ids) → ((∀ v ∈ g.ids, v ∈ order) ↔ g.cycles = [])

/-- For all nodes with distinct ids and all edges, the execution order is the largest one that
follows the edges. -/
theorem executionOrder_isMaximal (nodes : List Node) (edges : List Edge)
    (distinct : (nodes.map (·.id)).Nodup) :
    IsMaximalOrder (graphOf nodes edges) (graphOf nodes edges).executionOrder := by
  have distinct : (graphOf nodes edges).ids.Nodup := distinct
  generalize graphOf nodes edges = g at distinct ⊢
  exact {
    distinct := nodup_executionOrder distinct
    declared := fun v h => ((mem_executionOrder_iff distinct v).mp h).1
    backwards := fun v known => by
      rw [mem_executionOrder_iff_acc distinct known]
      exact and_congr_right fun _ => by rw [← not_acc_iff_exists_descending_chain, not_not]
    noCycle := fun v known => mem_executionOrder_iff_noCycle distinct known
    arranged := arranged_executionOrder distinct
    complete := all_placed_iff distinct }

/-- Two edges join `begin` and `write`; `check` and `retry` lie on a cycle, `report` behind it, and
`lost` behind an id that is not declared. -/
def draftNodes : List Node :=
  [{ id := "report", type := .stop }, { id := "begin", type := .start },
   { id := "write", type := .prompt }, { id := "check", type := .ifElse },
   { id := "retry", type := .prompt }, { id := "lost", type := .prompt },
   { id := "done", type := .stop }]

def draftEdges : List Edge :=
  [{ id := "1", source := "begin", target := "write" },
   { id := "2", source := "begin", target := "write" },
   { id := "3", source := "write", target := "done" },
   { id := "4", source := "check", target := "retry" },
   { id := "5", source := "retry", target := "check" },
   { id := "6", source := "retry", target := "report" },
   { id := "7", source := "ghost", target := "lost" }]

theorem draft_order_isMaximal : (draftNodes.map (·.id)).Nodup ∧
    (graphOf draftNodes draftEdges).executionOrder = ["begin", "write", "done"] ∧
    IsMaximalOrder (graphOf draftNodes draftEdges)
      (graphOf draftNodes draftEdges).executionOrder :=
  ⟨by decide, by decide, executionOrder_isMaximal draftNodes draftEdges (by decide)⟩

end Flowgraph.Graph
