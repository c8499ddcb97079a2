import Flowgraph.Program.Routing
import Flowgraph.Proofs.State.Reading
import Flowgraph.Proofs.State.Refs

/-!
# Choosing an edge

The choice ends at the first guarded edge whose condition holds or cannot be decided, and
otherwise with the first unguarded edge, if there is one. So an edge that is chosen is one of
those that are offered, at the place that is told, and the choice can fail only on a condition
that cannot be decided; in a state of JSON values that takes a pattern.
-/
namespace Flowgraph

namespace Condition

theorem operand_ok {s : Store} (json : s.HoldsJson) (v : Json) : ∃ w, operand s v = .ok w := by
  unfold operand
  split
  · rename_i ref
    obtain ⟨r, hr⟩ := StateRef.exists_read_of_isRef ref
    obtain ⟨w, hw⟩ := json.read r .null
    exact ⟨w, by rw [hr]; exact hw⟩
  · exact ⟨v, rfl⟩

theorem holds_ok (search : PatternSearch) {s : Store} (json : s.HoldsJson) {c : Condition}
    (plain : c.op ≠ .regex) : ∃ b, c.holds search s = .ok b := by
  obtain ⟨left, hl⟩ := operand_ok json c.left
  obtain ⟨right, hr⟩ := operand_ok json c.right
  unfold holds
  rw [hl, hr]
  cases op : c.op with
  | regex => exact False.elim (plain op)
  | always | eq | neq | contains => exact ⟨_, rfl⟩

theorem operand_of_read {v : Json} {r : StateRef} (h : StateRef.read v = .ok r) (s : Store) :
    operand s v = s.read r .null := by
  rw [operand, if_pos (StateRef.isRef_of_read h), h]
  rfl

/-- An equality compares the texts of its operands. -/
theorem holds_eq (search : PatternSearch) {s : Store} {left right v w : Json}
    (first : operand s left = .ok v) (second : operand s right = .ok w) :
    holds search s ⟨.eq, left, right⟩ = .ok (v.comparisonText == w.comparisonText) := by
  simp only [holds, first, second]
  rfl

end Condition

/-! ## Edges in order -/

namespace Routing

/-- The first edge without a guard and its place, if there is one. -/
inductive FirstUnguarded (edges : List ProgramEdge) : Option (Nat × ProgramEdge) → Prop
  | absent (guarded : ∀ e ∈ edges, e.condition.op ≠ .always) : FirstUnguarded edges none
  | found {before after : List ProgramEdge} {e : ProgramEdge} (place : edges = before ++ e :: after)
      (guarded : ∀ f ∈ before, f.condition.op ≠ .always) (own : e.condition.op = .always) :
      FirstUnguarded edges (some (before.length, e))

/-- An edge that is left behind on the search for a guard that holds. -/
def Passed (holds : Condition → Except Fault Bool) (e : ProgramEdge) : Prop :=
  e.condition.op = .always ∨ holds e.condition = .ok false

/-- How the choice of an edge can end. -/
inductive Outcome (holds : Condition → Except Fault Bool) (edges : List ProgramEdge) :
    Except Fault (Option (Nat × ProgramEdge)) → Prop
  | taken {before after : List ProgramEdge} {e : ProgramEdge} (place : edges = before ++ e :: after)
      (passed : ∀ f ∈ before, Passed holds f) (guarded : e.condition.op ≠ .always)
      (decided : holds e.condition = .ok true) : Outcome holds edges (.ok (some (before.length, e)))
  | undecided {before after : List ProgramEdge} {e : ProgramEdge} {fault : Fault}
      (place : edges = before ++ e :: after) (passed : ∀ f ∈ before, Passed holds f)
      (guarded : e.condition.op ≠ .always) (failed : holds e.condition = .error fault) :
      Outcome holds edges (.error fault)
  | fallback {next : Option (Nat × ProgramEdge)} (passed : ∀ f ∈ edges, Passed holds f)
      (first : FirstUnguarded edges next) : Outcome holds edges (.ok next)

variable {holds : Condition → Except Fault Bool} {fallback : Option (Nat × ProgramEdge)}
  {e : ProgramEdge}

theorem FirstUnguarded.guarded {seen : List ProgramEdge} (first : FirstUnguarded seen fallback)
    (guarded : e.condition.op ≠ .always) : FirstUnguarded (seen ++ [e]) fallback := by
  cases first with
  | absent others =>
    refine .absent fun f member => ?_
    rcases List.mem_append.mp member with old | new
    · exact others f old
    · rwa [List.mem_singleton.mp new]
  | @found before after f place others own =>
    have further : seen ++ [e] = before ++ f :: (after ++ [e]) := by
      rw [place, List.append_assoc, List.cons_append]
    exact .found further others own

theorem FirstUnguarded.unguarded {seen : List ProgramEdge} (first : FirstUnguarded seen fallback)
    (own : e.condition.op = .always) :
    FirstUnguarded (seen ++ [e]) (fallback.or (some (seen.length, e))) := by
  cases first with
  | absent others => exact .found rfl others own
  | @found before after f place others old =>
    have further : seen ++ [e] = before ++ f :: (after ++ [e]) := by
      rw [place, List.append_assoc, List.cons_append]
    exact .found further others old

/-- The search goes on behind edges that are passed, with the first unguarded one of them. -/
theorem selectFrom_outcome {seen : List ProgramEdge} (passed : ∀ f ∈ seen, Passed holds f)
    (first : FirstUnguarded seen fallback) (rest : List ProgramEdge) :
    Outcome holds (seen ++ rest) (selectFrom holds fallback seen.length rest) := by
  -- What was seen grows with each edge, and its length is the place of the next one.
  induction rest generalizing seen fallback with
  | nil =>
    rw [List.append_nil]
    exact .fallback passed first
  | cons e rest ih =>
    have onward {next : Option (Nat × ProgramEdge)} (own : Passed holds e)
        (first : FirstUnguarded (seen ++ [e]) next) :
        Outcome holds (seen ++ e :: rest) (selectFrom holds next (seen.length + 1) rest) := by
      have passed : ∀ f ∈ seen ++ [e], Passed holds f :=
        List.forall_mem_append.mpr ⟨passed, List.forall_mem_singleton.mpr own⟩
      have found := ih passed first
      rwa [List.append_assoc, List.singleton_append, List.length_append, List.length_singleton]
        at found
    rw [selectFrom]
    by_cases unguarded : e.condition.op = .always
    · rw [if_pos unguarded]
      exact onward (.inl unguarded) (first.unguarded unguarded)
    · rw [if_neg unguarded]
      cases decided : holds e.condition with
      | error fault => exact .undecided rfl passed unguarded decided
      | ok b =>
        cases b with
        | true => exact .taken rfl passed unguarded decided
        | false => exact onward (.inr decided) (first.guarded unguarded)

theorem select_outcome (search : PatternSearch) (s : Store) (edges : List ProgramEdge) :
    Outcome (Condition.holds search s) edges (select search s edges) := by
  have passed : ∀ f ∈ ([] : List ProgramEdge), Passed (Condition.holds search s) f :=
    fun _ member => False.elim (List.not_mem_nil member)
  have first : FirstUnguarded [] none :=
    .absent fun _ member => False.elim (List.not_mem_nil member)
  exact selectFrom_outcome passed first edges

theorem select_ok (search : PatternSearch) {s : Store} (json : s.HoldsJson)
    {edges : List ProgramEdge} (plain : ∀ e ∈ edges, e.condition.op ≠ .regex) :
    ∃ next, select search s edges = .ok next := by
  cases chosen : select search s edges with
  | ok next => exact ⟨next, rfl⟩
  | error fault =>
    have outcome := select_outcome search s edges
    rw [chosen] at outcome
    cases outcome with
    | @undecided before after e _ place _ _ failed =>
      obtain ⟨b, decided⟩ := Condition.holds_ok search json (plain e (by simp [place]))
      rw [failed] at decided
      cases decided

theorem select_some {search : PatternSearch} {s : Store} {edges : List ProgramEdge} {i : Nat}
    {e : ProgramEdge} (h : select search s edges = .ok (some (i, e))) : edges[i]? = some e := by
  have outcome := select_outcome search s edges
  rw [h] at outcome
  cases outcome with
  | taken place => simp [place]
  | fallback _ first =>
    cases first with
    | found place => simp [place]

theorem select_none {search : PatternSearch} {s : Store} {edges : List ProgramEdge}
    (h : select search s edges = .ok none) : ∀ e ∈ edges, e.condition.op ≠ .always := by
  have outcome := select_outcome search s edges
  rw [h] at outcome
  cases outcome with
  | fallback _ first =>
    cases first with
    | absent guarded => exact guarded

end Routing
end Flowgraph
