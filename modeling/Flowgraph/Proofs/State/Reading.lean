import Flowgraph.Proofs.Sequencing
import Flowgraph.State.Store

/-!
# Reading the state

A state holds JSON values where all of it can be written out. Every part of such a state
can be written out too, so that nothing that is read from it is refused.
-/
namespace Flowgraph

namespace Heap

/-- Where the objects of a value end at some depth, a greater depth changes nothing. -/
theorem view_succ (h : Heap) (depth : Nat) (s : Slot) {v : Json} (hv : h.view depth s = some v) :
    h.view (depth + 1) s = some v := by
  induction depth generalizing s v with
  | zero =>
    cases s with
    | leaf w => simpa [view] using hv
    | cell i => simp [view] at hv
  | succ depth ih =>
    cases s with
    | leaf w => simpa [view] using hv
    | cell i =>
      rw [view] at hv ⊢
      obtain ⟨fields, hf, rfl⟩ := Option.map_eq_some_iff.mp hv
      have members := (mapM_eq_some_iff _ _ _).mp hf
      refine Option.map_eq_some_iff.mpr ⟨fields, (mapM_eq_some_iff _ _ _).mpr ?_, rfl⟩
      refine members.imp fun f g hg => ?_
      obtain ⟨w, hw, rfl⟩ := Option.map_eq_some_iff.mp hg
      exact Option.map_eq_some_iff.mpr ⟨w, ih f.2 hw, rfl⟩

theorem view_child (h : Heap) {depth : Nat} {s t : Slot} {v : Json} {key : String}
    (hv : h.view depth s = some v) (child : h.child? s key = some t) :
    ∃ w, h.view depth t = some w := by
  cases s with
  | leaf w => cases child
  | cell i =>
    cases depth with
    | zero => simp [view] at hv
    | succ depth =>
      rw [view] at hv
      obtain ⟨fields, hf, _⟩ := Option.map_eq_some_iff.mp hv
      have members := (mapM_eq_some_iff _ _ _).mp hf
      obtain ⟨before, after, here, _⟩ := List.lookup_eq_some_iff.mp child
      have member : (key, t) ∈ h.fields i := here ▸ List.mem_append_right before List.mem_cons_self
      obtain ⟨g, _, hg⟩ := forall₂_exists_right members member
      obtain ⟨w, hw, _⟩ := Option.map_eq_some_iff.mp hg
      exact ⟨w, h.view_succ depth t hw⟩

theorem view_find (h : Heap) {depth : Nat} (path : List String) {s t : Slot} {v : Json}
    (hv : h.view depth s = some v) (found : h.find? s path = some t) :
    ∃ w, h.view depth t = some w := by
  induction path generalizing s v with
  | nil => exact ⟨v, Option.some.inj found ▸ hv⟩
  | cons key rest ih =>
    obtain ⟨u, child, found⟩ := Option.bind_eq_some_iff.mp found
    obtain ⟨w, hw⟩ := h.view_child hv child
    exact ih hw found

end Heap

namespace Store

/-- All of the state can be written out as JSON: no object lies within itself. -/
def HoldsJson (s : Store) : Prop :=
  ∃ v, s.snapshot = .ok v

theorem HoldsJson.view_root {s : Store} (h : s.HoldsJson) (space : Namespace) :
    ∃ v, s.heap.json? (s.root space) = some v := by
  obtain ⟨v, hv⟩ := h
  unfold snapshot at hv
  cases written : Namespace.all.mapM fun space => do
      return (space.name, ← s.json (s.root space)) with
  | error e =>
    rw [written] at hv
    cases hv
  | ok fields =>
    have all : space ∈ Namespace.all := by cases space <;> decide
    obtain ⟨f, _, hf⟩ := forall₂_exists_right ((mapM_eq_ok_iff _ _ _).mp written) all
    unfold json at hf
    cases seen : s.heap.json? (s.root space) with
    | none =>
      rw [seen] at hf
      cases hf
    | some v => exact ⟨v, rfl⟩

theorem HoldsJson.read {s : Store} (h : s.HoldsJson) (r : StateRef) (default : Json) :
    ∃ v, s.read r default = .ok v := by
  unfold Store.read
  cases found : s.get? r with
  | none => exact ⟨default, rfl⟩
  | some t =>
    obtain ⟨v, hv⟩ := h.view_root r.space
    obtain ⟨w, hw⟩ := s.heap.view_find r.path hv found
    have written : s.heap.json? t = some w := hw
    exact ⟨w, by simp only [json, written]⟩

end Store

end Flowgraph
