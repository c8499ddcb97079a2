import Flowgraph.Proofs.Lowering.ProgramGraph
import Flowgraph.Proofs.Routing

/-!
# Runs of a lowered program

A run begins at the entry and follows the edge that is chosen at each step. Between two
steps the state may change in any way, so a run is told by the states in which it chooses,
and nothing is claimed of what the steps do to them. Where cycles are rejected, the ids on
a run lie on one path of the workflow, and such a path cannot meet an id twice.
-/
namespace Flowgraph

/-- The ids that a run has visited, the latest first. The choice after `k` moves is made in
the state `states k`. -/
inductive Program.Visits (search : PatternSearch) (states : Nat → Store) (p : Program) :
    List Json → Prop
  | start : Visits search states p [p.entry]
  | move {id : Json} {before : List Json} {i : Nat} {e : ProgramEdge}
      (visited : Visits search states p (id :: before))
      (next : Routing.select search (states before.length) (p.outgoing id) = .ok (some (i, e))) :
    Visits search states p (e.target :: id :: before)

namespace Workflow

/-- No edge of the workflow leaves an id. -/
def Leaf (w : Workflow) (id : Json) : Prop :=
  ∀ e ∈ w.edges, Json.str e.source ≠ id

/-- What holds of every run of a program in states that hold JSON values. -/
structure RunsToLeaf (w : Workflow) (p : Program) (search : PatternSearch)
    (states : Nat → Store) : Prop where
  chooses : ∀ id before, p.Visits search states (id :: before) →
    ∃ next, Routing.select search (states before.length) (p.outgoing id) = .ok next
  stops : ∀ id before, p.Visits search states (id :: before) →
    (Routing.select search (states before.length) (p.outgoing id) = .ok none ↔ w.Leaf id)
  inside : ∀ visited, p.Visits search states visited →
    ∀ id ∈ visited, ∃ s ∈ p.steps, s.id = id
  once : ∀ visited, p.Visits search states visited → visited.Nodup
  short : ∀ id before, p.Visits search states (id :: before) → before.length < p.steps.length
  ends : ∃ id before, p.Visits search states (id :: before) ∧ w.Leaf id

variable {table : LowererTable} {w : Workflow}

/-! ## What is offered at a node -/

theorem LoweredAs.edge_op {n : Node} {f : Fragment} (h : w.LoweredAs table n f)
    {e : ProgramEdge} (he : e ∈ f.edges) : e.condition.op = .always ∨ e.condition.op = .eq := by
  by_cases branches : n.type.Branches
  · obtain ⟨l, target, _, _, guards⟩ := h.guarded branches
    obtain ⟨i, hi⟩ := List.mem_iff_getElem?.mp he
    rw [guards i e hi, Lowerer.guardAt]
    split
    · exact Or.inl rfl
    · exact Or.inr rfl
  · rw [h.unguarded branches he]
    exact Or.inl rfl

/-- Where an edge leaves a node, one of the program's edges there is unguarded. -/
theorem LoweredAs.exists_unguarded {n : Node} {f : Fragment} (h : w.LoweredAs table n f)
    (some : w.leaving n.id ≠ []) : ∃ e ∈ f.edges, e.condition.op = .always := by
  have count : f.edges.length = (w.leaving n.id).length := by
    simpa using congrArg List.length h.ends
  have positive : 0 < (w.leaving n.id).length := List.length_pos_of_ne_nil some
  have last : (w.leaving n.id).length - 1 < f.edges.length := by omega
  refine ⟨f.edges[(w.leaving n.id).length - 1], List.getElem_mem last, ?_⟩
  by_cases branches : n.type.Branches
  · obtain ⟨l, target, _, _, guards⟩ := h.guarded branches
    rw [guards _ _ (List.getElem?_eq_getElem last), Lowerer.guardAt, if_pos (by omega)]
    rfl
  · rw [h.unguarded branches (List.getElem_mem last)]
    rfl

theorem LoweredAs.leads {n : Node} {f : Fragment} (h : w.LoweredAs table n f)
    {e : ProgramEdge} (he : e ∈ f.edges) : ∃ v, e.target = .str v ∧ w.Leads n.id v := by
  have pair : (e.source, e.target) ∈ (w.leaving n.id).map
      fun e => (Json.str e.source, Json.str e.target) :=
    h.ends ▸ List.mem_map.mpr ⟨e, he, rfl⟩
  obtain ⟨e', he', same⟩ := List.mem_map.mp pair
  obtain ⟨member, source⟩ := (w.mem_leaving_iff _ _).mp he'
  exact ⟨e'.target, (Prod.mk.inj same).2.symm, e', member, source, rfl⟩

theorem leaf_iff (w : Workflow) (id : String) : w.Leaf (.str id) ↔ w.leaving id = [] := by
  simp [Leaf, leaving]

/-! ## The path of a run -/

/-- Ids, the latest first, each of which a path of the workflow leads to from all before it. -/
def OnPath (w : Workflow) (visited : List Json) : Prop :=
  ∃ ids : List String, visited = ids.map Json.str ∧ (∀ v ∈ ids, w.Declares v) ∧
    ids.Pairwise fun later earlier => Relation.TransGen w.Leads earlier later

/-- The edges of a program that leave a node are those of the node's fragment. -/
def Offers (w : Workflow) (table : LowererTable) (p : Program) : Prop :=
  ∀ n ∈ w.nodes, ∃ f, w.LoweredAs table n f ∧ p.outgoing (.str n.id) = f.edges

theorem OnPath.current {id : Json} {before : List Json} (h : w.OnPath (id :: before)) :
    ∃ n ∈ w.nodes, id = .str n.id := by
  obtain ⟨ids, same, declared, _⟩ := h
  cases ids with
  | nil => cases same
  | cons v ids =>
    obtain ⟨n, hn, rfl⟩ := declared v List.mem_cons_self
    exact ⟨n, hn, (List.cons.inj same).1⟩

theorem OnPath.move {p : Program} (offers : w.Offers table p)
    (ends : ∀ e ∈ w.edges, w.Declares e.source ∧ w.Declares e.target) {id : Json}
    {before : List Json} (h : w.OnPath (id :: before)) {e : ProgramEdge}
    (he : e ∈ p.outgoing id) : w.OnPath (e.target :: id :: before) := by
  obtain ⟨n, hn, rfl⟩ := h.current
  obtain ⟨f, hf, outgoing⟩ := offers n hn
  rw [outgoing] at he
  obtain ⟨v, target, leads⟩ := hf.leads he
  obtain ⟨ids, same, declared, path⟩ := h
  cases ids with
  | nil => cases same
  | cons u ids =>
    obtain ⟨hu, rest⟩ := List.cons.inj same
    obtain rfl : n.id = u := Json.str.inj hu
    have next : w.Declares v := by
      obtain ⟨e', he', _, rfl⟩ := leads
      exact (ends e' he').2
    refine ⟨v :: n.id :: ids, by rw [target, same]; rfl,
      List.forall_mem_cons.mpr ⟨next, declared⟩, List.pairwise_cons.mpr ⟨?_, path⟩⟩
    intro x hx
    rcases List.mem_cons.mp hx with rfl | hx
    · exact .single leads
    · exact .tail ((List.pairwise_cons.mp path).1 x hx) leads

/-- Where no path leads from an id back to it, none is met twice on a path. -/
theorem OnPath.nodup {visited : List Json} (h : w.OnPath visited)
    (acyclic : ∀ v, ¬Relation.TransGen w.Leads v v) : visited.Nodup := by
  obtain ⟨ids, rfl, _, path⟩ := h
  have distinct : ids.Nodup := by
    refine path.imp ?_
    rintro later earlier leads rfl
    exact acyclic _ leads
  exact distinct.map fun a b same => Json.str.inj same

theorem OnPath.subset {p : Program}
    (steps : p.steps.map (·.id) = w.nodes.map fun n => Json.str n.id) {visited : List Json}
    (h : w.OnPath visited) : visited ⊆ p.steps.map (·.id) := by
  obtain ⟨ids, rfl, declared, _⟩ := h
  intro id hid
  obtain ⟨v, hv, rfl⟩ := List.mem_map.mp hid
  obtain ⟨n, hn, rfl⟩ := declared v hv
  rw [steps]
  exact List.mem_map.mpr ⟨n, hn, rfl⟩

theorem OnPath.length_le {p : Program}
    (steps : p.steps.map (·.id) = w.nodes.map fun n => Json.str n.id)
    (acyclic : ∀ v, ¬Relation.TransGen w.Leads v v) {visited : List Json}
    (h : w.OnPath visited) : visited.length ≤ p.steps.length := by
  have count := List.Nodup.length_le_of_subset (h.nodup acyclic) (h.subset steps)
  rwa [List.length_map] at count

theorem onPath_of_visits {p : Program} {search : PatternSearch} {states : Nat → Store}
    (offers : w.Offers table p)
    (ends : ∀ e ∈ w.edges, w.Declares e.source ∧ w.Declares e.target)
    (entry : w.OnPath [p.entry]) {visited : List Json} (h : p.Visits search states visited) :
    w.OnPath visited := by
  induction h with
  | start => exact entry
  | move _ next ih => exact ih.move offers ends (List.mem_of_getElem? (Routing.select_some next))

/-! ## The end of a run -/

/-- In a state of JSON values an edge is chosen at a node, unless none leaves it. -/
theorem select_at {p : Program} (offers : w.Offers table p) (search : PatternSearch) {s : Store}
    (json : s.HoldsJson) {n : Node} (hn : n ∈ w.nodes) :
    ∃ next, Routing.select search s (p.outgoing (.str n.id)) = .ok next ∧
      (next = none ↔ w.Leaf (.str n.id)) := by
  obtain ⟨f, hf, outgoing⟩ := offers n hn
  have plain : ∀ e ∈ f.edges, e.condition.op ≠ .regex := by
    intro e he
    rcases hf.edge_op he with op | op <;> simp [op]
  rw [outgoing, leaf_iff]
  obtain ⟨next, chosen⟩ := Routing.select_ok search json plain
  refine ⟨next, chosen, ?_, ?_⟩
  · rintro rfl
    by_contra some
    obtain ⟨e, he, op⟩ := hf.exists_unguarded some
    exact Routing.select_none chosen e he op
  · intro none
    have empty : f.edges = [] := by
      have := congrArg List.length hf.ends
      rw [none] at this
      exact List.length_eq_zero_iff.mp (by simpa using this)
    rw [empty] at chosen
    exact (Except.ok.inj chosen).symm

/-- A run that cannot visit more than `limit` ids comes to an id that no edge leaves. -/
theorem exists_leaf {p : Program} {search : PatternSearch} {states : Nat → Store} (limit : Nat)
    (short : ∀ visited, p.Visits search states visited → visited.length ≤ limit)
    (chooses : ∀ id before, p.Visits search states (id :: before) →
      ∃ next, Routing.select search (states before.length) (p.outgoing id) = .ok next ∧
        (next = none ↔ w.Leaf id)) {id : Json} {before : List Json}
    (h : p.Visits search states (id :: before)) :
    ∃ id before, p.Visits search states (id :: before) ∧ w.Leaf id := by
  induction left : limit - before.length generalizing id before with
  | zero =>
    have := short _ h
    rw [List.length_cons] at this
    omega
  | succ left ih =>
    obtain ⟨next, chosen, stop⟩ := chooses id before h
    cases next with
    | none => exact ⟨id, before, h, stop.mp rfl⟩
    | some choice =>
      refine ih (h.move chosen) ?_
      rw [List.length_cons]
      omega

/-- A program on whose runs the ids lie on a path of a workflow without cycles. -/
theorem runsToLeaf {p : Program} {search : PatternSearch} {states : Nat → Store}
    (offers : w.Offers table p) (steps : p.steps.map (·.id) = w.nodes.map fun n => Json.str n.id)
    (path : ∀ visited, p.Visits search states visited → w.OnPath visited)
    (acyclic : ∀ v, ¬Relation.TransGen w.Leads v v) (json : ∀ k, (states k).HoldsJson) :
    w.RunsToLeaf p search states := by
  have short : ∀ visited, p.Visits search states visited → visited.length ≤ p.steps.length :=
    fun visited hv => (path visited hv).length_le steps acyclic
  have chooses : ∀ id before, p.Visits search states (id :: before) →
      ∃ next, Routing.select search (states before.length) (p.outgoing id) = .ok next ∧
        (next = none ↔ w.Leaf id) := by
    intro id before hv
    obtain ⟨n, hn, rfl⟩ := (path _ hv).current
    exact select_at offers search (json before.length) hn
  constructor
  · intro id before hv
    obtain ⟨next, chosen, _⟩ := chooses id before hv
    exact ⟨next, chosen⟩
  · intro id before hv
    obtain ⟨next, chosen, stop⟩ := chooses id before hv
    rw [chosen, ← stop]
    exact ⟨Except.ok.inj, congrArg Except.ok⟩
  · intro visited hv id hid
    exact List.mem_map.mp ((path visited hv).subset steps hid)
  · exact fun visited hv => (path visited hv).nodup acyclic
  · exact fun id before hv => short (id :: before) hv
  · exact exists_leaf p.steps.length short chooses .start

/-- Where cycles are rejected, every run of a lowered program moves from step to step without
a failed choice, visits no step twice, and comes to one that no edge of the workflow leaves. -/
theorem lower_runsToLeaf (table : LowererTable) (version : String) (w : Workflow)
    (lowered : Lowered) (distinct : (w.nodes.map (·.id)).Nodup)
    (h : w.lower table version true = .ok lowered) (search : PatternSearch)
    (states : Nat → Store) (json : ∀ k, (states k).HoldsJson) :
    w.RunsToLeaf lowered.program search states := by
  have ends := ends_of_not_dangling (lower_ok_clear h .danglingEdge)
  have acyclic : ∀ v, ¬Relation.TransGen w.Leads v v := fun v path =>
    lower_ok_clear h .directedCycle ⟨rfl, v, path⟩
  obtain ⟨entry, fragments, check, made, _, rfl⟩ := lower_eq_ok h
  have offers : w.Offers table (assemble version entry fragments) := fun n hn =>
    let ⟨f, hf, outgoing, _⟩ := exists_fragment made distinct hn
    ⟨f, hf, outgoing⟩
  have first : w.OnPath [Json.str entry] := by
    have declared : w.Declares entry :=
      declares_of_mem_startIds (by simp [startIds_of_checkGraph check])
    exact ⟨[entry], rfl, by simpa using declared, List.pairwise_singleton _ _⟩
  exact runsToLeaf offers (step_ids made) (fun _ => onPath_of_visits offers ends first) acyclic json

theorem triage_runsToLeaf : (triage.nodes.map (·.id)).Nodup ∧
    (Store.start .null .null).HoldsJson ∧
    ∃ lowered, triage.lower .standard "0.1" true = .ok lowered ∧
      triage.RunsToLeaf lowered.program (fun _ _ => .ok false) fun _ => Store.start .null .null :=
  ⟨by decide, ⟨_, rfl⟩, _, rfl, lower_runsToLeaf .standard "0.1" triage _ (by decide) rfl _ _
    fun _ => ⟨_, rfl⟩⟩

end Workflow
end Flowgraph
