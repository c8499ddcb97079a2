import Flowgraph.Proofs.Lowering.StateAccess
import Flowgraph.Proofs.State.TwoWrites

/-!
# Where results are kept

A step keeps its result in the variables, under the path that its id spells: every dot of the
id leads one object further. Two results have places of their own unless the id of one step
leads to the result of the other, or past it, and unless an object that takes one of the
results stands at two places.
-/
namespace Flowgraph

open LiveStore

/-- Where a path begins another one, its text begins the other's, a dot behind each. -/
theorem StateRef.text_prefix {s t : List Char}
    (h : (s.splitOn '.').map String.ofList <+: (t.splitOn '.').map String.ofList) :
    s ++ ['.'] <+: t ++ ['.'] := by
  have back (parts : List (List Char)) : (parts.map String.ofList).map String.toList = parts := by
    rw [List.map_map]
    exact (List.map_congr_left fun part _ => String.toList_ofList).trans parts.map_id
  have parts := h.map String.toList
  rw [back, back] at parts
  obtain ⟨more, whole⟩ := parts
  rw [← flatMap_splitOn, ← flatMap_splitOn, ← whole, List.flatMap_append]
  exact List.prefix_append _ _

namespace Workflow

variable {table : LowererTable} {version : String} {rejectCycles : Bool} {w : Workflow}
  {lowered : Lowered}

/-- The place of a result is told by the id of the step. -/
theorem read_result (h : w.lower table version rejectCycles = .ok lowered) {s : Step}
    (member : s ∈ lowered.program.steps) {id : String} (named : s.id = .str id) {ref : Json}
    (result : s.outputs.item "result" = .ok ref) :
    StateRef.read ref =
      .ok ⟨.vars, ((id ++ ".result").toList.splitOn '.').map String.ofList⟩ := by
  obtain ⟨entry, fragments, _, made, valid, rfl⟩ := lower_eq_ok h
  obtain ⟨f, hf, rfl⟩ := List.mem_map.mp member
  obtain ⟨n, _, l, _, _, rfl⟩ := forall₂_exists_left made hf
  rw [l.fragment_step_id] at named
  obtain rfl := Json.str.inj named
  rcases l.fragment_outputs n (w.leaving n.id) with none | outputs
  · rw [none] at result
    cases result
  · rw [outputs] at result
    obtain rfl := Except.ok.inj result
    have formed := valid _ hf _ (.output outputs List.mem_cons_self)
    have text : n.resultRef = Namespace.vars.name ++ "." ++ (n.id ++ ".result") := by
      rw [Node.resultRef, Node.varRef_eq, @String.append_assoc n.id]
      rfl
    rw [text] at formed ⊢
    exact StateRef.read_of_space formed

/-- Two results stay apart where neither id, with the name of the result behind it, begins the
other. -/
theorem results_stay_apart (h : w.lower table version rejectCycles = .ok lowered)
    {s t : Step} (hs : s ∈ lowered.program.steps) (ht : t ∈ lowered.program.steps)
    {a b : String} (ha : s.id = .str a) (hb : t.id = .str b)
    (before : ¬(a ++ ".result.").toList <+: (b ++ ".result.").toList)
    (after : ¬(b ++ ".result.").toList <+: (a ++ ".result.").toList)
    {ref ref' : Json} (result : s.outputs.item "result" = .ok ref)
    (result' : t.outputs.item "result" = .ok ref') :
    ∃ q r, StateRef.read ref = .ok q ∧ StateRef.read ref' = .ok r ∧
      ∀ (σ : Store) v v', σ.Sound → σ.heap.Within v →
        (∀ x ∈ [q, r], ∀ y ∈ [q, r], σ.PassesOnce x y) →
        ∃ σ₁ σ₂, σ.write q v = .ok σ₁ ∧ σ₁.write r v' = .ok σ₂ ∧
          σ₂.get? q = some v ∧ σ₂.get? r = some v' := by
  have read := read_result h hs ha result
  have read' := read_result h ht hb result'
  have texts (c : String) : (c ++ ".result.").toList = (c ++ ".result").toList ++ ['.'] := by simp
  rw [texts, texts] at before after
  refine ⟨_, _, read, read', fun σ v v' sound kept once => ?_⟩
  exact Store.get?_put_put sound kept rfl rfl (StateRef.path_ne_nil_of_read read)
    (StateRef.path_ne_nil_of_read read') (fun longer => before (StateRef.text_prefix longer))
    (fun longer => after (StateRef.text_prefix longer)) once

/-- Three steps with results. The id of the third one leads to the result of the first. -/
def relayed : Workflow where
  id := "relayed"
  name := "Relayed"
  version := formatVersion
  createdAt := ""
  updatedAt := ""
  nodes :=
    [{ id := "begin", type := .start },
     { id := "a", type := .prompt },
     { id := "b", type := .mcp },
     { id := "a.result", type := .prompt },
     { id := "done", type := .stop }]
  edges :=
    [{ id := "1", source := "begin", target := "a" },
     { id := "2", source := "a", target := "b" },
     { id := "3", source := "b", target := "a.result" },
     { id := "4", source := "a.result", target := "done" }]

/-- One result is put into an object, the other one in the place of a number. -/
theorem relayed_results_stay_apart : ∃ lowered s t,
    relayed.lower .standard "0.1" true = .ok lowered ∧
    s ∈ lowered.program.steps ∧ t ∈ lowered.program.steps ∧
    s.id = .str "a" ∧ t.id = .str "b" ∧
    s.outputs.item "result" = .ok (.str "$vars.a.result") ∧
    t.outputs.item "result" = .ok (.str "$vars.b.result") ∧
    ∃ σ₁ σ₂, Store.numberAndObject.write ⟨.vars, ["a", "result"]⟩ (.cell 4) = .ok σ₁ ∧
      σ₁.write ⟨.vars, ["b", "result"]⟩ (.leaf (.int 7)) = .ok σ₂ ∧
      σ₂.get? ⟨.vars, ["a", "result"]⟩ = some (.cell 4) ∧
      σ₂.get? ⟨.vars, ["b", "result"]⟩ = some (.leaf (.int 7)) := by
  obtain ⟨lowered, s, t, made, hs, ht, ha, hb, result, result'⟩ : ∃ lowered s t,
      relayed.lower .standard "0.1" true = .ok lowered ∧
      s ∈ lowered.program.steps ∧ t ∈ lowered.program.steps ∧
      s.id = .str "a" ∧ t.id = .str "b" ∧
      s.outputs.item "result" = .ok (.str "$vars.a.result") ∧
      t.outputs.item "result" = .ok (.str "$vars.b.result") :=
    ⟨_, _, _, rfl, List.mem_cons_of_mem _ List.mem_cons_self,
      List.mem_cons_of_mem _ (List.mem_cons_of_mem _ List.mem_cons_self), rfl, rfl, rfl, rfl⟩
  obtain ⟨q, r, read, read', stay⟩ :=
    results_stay_apart made hs ht ha hb (by decide) (by decide) result result'
  obtain rfl : ⟨.vars, ["a", "result"]⟩ = q := Except.ok.inj read
  obtain rfl : ⟨.vars, ["b", "result"]⟩ = r := Except.ok.inj read'
  refine ⟨lowered, s, t, made, hs, ht, ha, hb, result, result', ?_⟩
  refine stay Store.numberAndObject (.cell 4) (.leaf (.int 7)) Store.numberAndObject_arises.sound
    (Nat.lt_succ_self 4) ?_
  -- The object at `$vars.a` takes one result and that of all variables the other one.
  intro x hx y hy p key rest split _ here
  have two : y.path.length = 2 := by rcases List.mem_pair.mp hy with rfl | rfl <;> rfl
  rcases p with _ | ⟨k, _ | ⟨k', p⟩⟩
  · rcases List.mem_pair.mp hx with rfl | rfl
    · cases here
    · rfl
  · rcases List.mem_pair.mp hx with rfl | rfl <;> rcases List.mem_pair.mp hy with rfl | rfl
    · cases split
      rfl
    all_goals
      cases split
      cases here
  · rw [split] at two
    simp at two

/-- A result gives way to an object in which that of the step `a.result` is kept. One result
replaces another one, too, where one object stands at the places of two steps. -/
theorem results_overwritten : ∃ lowered s t u,
    relayed.lower .standard "0.1" true = .ok lowered ∧
    (s ∈ lowered.program.steps ∧ s.id = .str "a" ∧
      s.outputs.item "result" = .ok (.str "$vars.a.result")) ∧
    (t ∈ lowered.program.steps ∧ t.id = .str "a.result" ∧
      t.outputs.item "result" = .ok (.str "$vars.a.result.result")) ∧
    (u ∈ lowered.program.steps ∧ u.id = .str "b" ∧
      u.outputs.item "result" = .ok (.str "$vars.b.result")) ∧
    StateRef.read (.str "$vars.a.result") = .ok ⟨.vars, ["a", "result"]⟩ ∧
    StateRef.read (.str "$vars.a.result.result") = .ok ⟨.vars, ["a", "result", "result"]⟩ ∧
    StateRef.read (.str "$vars.b.result") = .ok ⟨.vars, ["b", "result"]⟩ ∧
    (∃ σ₁ σ₂, (Store.start .null .null).write ⟨.vars, ["a", "result"]⟩ (.leaf (.int 1)) = .ok σ₁ ∧
      σ₁.write ⟨.vars, ["a", "result", "result"]⟩ (.leaf (.int 2)) = .ok σ₂ ∧
      σ₂.get? ⟨.vars, ["a", "result"]⟩ ≠ some (.leaf (.int 1))) ∧
    ∃ σ₁ σ₂, Store.sharedObject.write ⟨.vars, ["a", "result"]⟩ (.leaf (.int 1)) = .ok σ₁ ∧
      σ₁.write ⟨.vars, ["b", "result"]⟩ (.leaf (.int 2)) = .ok σ₂ ∧
      σ₂.get? ⟨.vars, ["a", "result"]⟩ ≠ some (.leaf (.int 1)) := by
  have second {α : Type} {a b : α} {l : List α} : b ∈ a :: b :: l :=
    List.mem_cons_of_mem a List.mem_cons_self
  refine ⟨_, _, _, _, rfl, ⟨second, rfl, rfl⟩,
    ⟨List.mem_cons_of_mem _ (List.mem_cons_of_mem _ second), rfl, rfl⟩,
    ⟨List.mem_cons_of_mem _ second, rfl, rfl⟩, by decide, by decide, by decide, ?_, ?_⟩
  · refine ⟨_, _, rfl, rfl, ?_⟩
    intro kept
    cases kept
  · refine ⟨_, _, rfl, rfl, ?_⟩
    intro kept
    cases kept

end Workflow
end Flowgraph
