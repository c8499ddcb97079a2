import Flowgraph.Proofs.State.Operations
import Flowgraph.Proofs.State.Taken

/-!
# The read-only namespaces

The context and the input stay what they were at the beginning, as long as none of their
objects is stored anywhere else: no other object leads to one of them then, and a write goes
through objects from which nothing leads there. An object is not copied when it is read or
stored. One of the input that is stored in a variable is written through the variable.
-/
namespace Flowgraph

namespace Heap

variable {K : Nat → Prop} {h₀ h h' : Heap} {u v : Slot} {i : Nat} {key : String}

/-- A value that is none of some objects. -/
def Outside (K : Nat → Prop) (v : Slot) : Prop :=
  ∀ j, v = .cell j → ¬K j

/-- Some objects of a heap are as they were in an earlier one, and no other object holds
one of them. -/
structure Guards (K : Nat → Prop) (h₀ h : Heap) : Prop where
  below : ∀ i, K i → i < h₀.length
  longer : h₀.length ≤ h.length
  same : ∀ i, K i → h.fields i = h₀.fields i
  apart : ∀ i, ¬K i → ∀ f ∈ h.fields i, Outside K f.2

theorem Guards.fresh (guards : Guards K h₀ h) : ¬K h.length := by
  intro guarded
  have := guards.below _ guarded
  have := guards.longer
  omega

theorem Guards.append (guards : Guards K h₀ h) {objects : Heap}
    (outside : ∀ c ∈ objects, ∀ f ∈ c, Outside K f.2) : Guards K h₀ (h ++ objects) where
  below := guards.below
  longer := guards.longer.trans (List.prefix_append h objects).length_le
  same := by
    intro i guarded
    have within : i < h.length := Nat.lt_of_lt_of_le (guards.below i guarded) guards.longer
    rw [fields_append_objects, if_pos within]
    exact guards.same i guarded
  apart := by
    intro i free f hf
    rw [fields_append_objects] at hf
    split at hf
    · exact guards.apart i free f hf
    · unfold fields at hf
      cases found : objects[i - h.length]? with
      | none =>
        rw [found] at hf
        exact False.elim (List.not_mem_nil hf)
      | some c =>
        rw [found] at hf
        exact outside c (List.mem_of_getElem? found) f hf

/-- Of objects that were added none holds a guarded one. -/
theorem Guards.appended {objects : Heap} (guards : Guards K h₀ (h ++ objects))
    (longer : h₀.length ≤ h.length) : ∀ c ∈ objects, ∀ f ∈ c, Outside K f.2 := by
  intro c hc f hf
  obtain ⟨k, at_⟩ := List.mem_iff_getElem?.mp hc
  have free : ¬K (h.length + k) := by
    intro guarded
    have := guards.below _ guarded
    omega
  apply guards.apart _ free
  rw [fields_append_objects, if_neg (by omega), Nat.add_sub_cancel_left, fields, at_]
  exact hf

theorem Guards.setField (guards : Guards K h₀ h) (free : ¬K i) (outside : Outside K v)
    (key : String) : Guards K h₀ (h.setField i key v) where
  below := guards.below
  longer := guards.longer.trans (length_setField h i key v).ge
  same := by
    intro j guarded
    have other : i ≠ j := by
      rintro rfl
      exact free guarded
    rw [fields_setField, if_neg fun at_ => other at_.1]
    exact guards.same j guarded
  apart := by
    intro j other f hf
    rw [fields_setField] at hf
    split at hf
    · rcases Cell.mem_insert hf with same | hf
      · rw [same]
        exact outside
      · exact guards.apart j other f hf
    · exact guards.apart j other f hf

theorem Guards.grow (guards : Guards K h₀ h) : Guards K h₀ h.grow.2 :=
  guards.append fun c hc f hf => by
    rw [List.mem_singleton.mp hc] at hf
    exact False.elim (List.not_mem_nil hf)

/-- A write from an object that is not guarded goes on through such objects only. -/
theorem Guards.put (guards : Guards K h₀ h) (free : ¬K i) (outside : Outside K v)
    (path : List String) : Guards K h₀ (h.put i path v) := by
  induction path generalizing h i with
  | nil => exact guards
  | cons key rest ih =>
    cases rest with
    | nil => exact guards.setField free outside key
    | cons next rest =>
      rcases h.exists_child_or (.cell i) key with ⟨j, found⟩ | none
      · rw [put_old found]
        exact ih guards (guards.apart i free _ (mem_of_child found) j rfl)
      · rw [put_new h i next rest v none]
        have new : Outside K (.cell h.length) := by
          rintro j ⟨⟩
          exact guards.fresh
        exact ih (guards.grow.setField free new key) guards.fresh

mutual

/-- A JSON value is taken in without any object that was there before. -/
theorem Guards.store (v : Json) {h : Heap} (guards : Guards K h₀ h) :
    Guards K h₀ (h.store v).2 ∧ Outside K (h.store v).1 := by
  match v with
  | .obj fields =>
    obtain ⟨guards', outside⟩ := Guards.storeFields fields guards
    rw [store_obj]
    constructor
    · apply guards'.append
      intro c hc
      rw [List.mem_singleton.mp hc]
      exact outside
    · rintro j ⟨⟩
      exact guards'.fresh
  | .null | .bool _ | .int _ | .float _ | .str _ | .arr _ =>
    refine ⟨guards, ?_⟩
    intro j same
    cases same

theorem Guards.storeFields (fields : List (String × Json)) {h : Heap} (guards : Guards K h₀ h) :
    Guards K h₀ (h.storeFields fields).2 ∧ ∀ f ∈ (h.storeFields fields).1, Outside K f.2 := by
  match fields with
  | [] => exact ⟨guards, fun _ hf => False.elim (List.not_mem_nil hf)⟩
  | (k, v) :: rest =>
    obtain ⟨guards₁, own⟩ := Guards.store v guards
    obtain ⟨guards₂, others⟩ := Guards.storeFields rest guards₁
    refine ⟨guards₂, ?_⟩
    intro f hf
    rcases List.mem_cons.mp hf with rfl | hf
    · exact own
    · exact others f hf

end

/-- From outside of guarded objects no path leads to one. -/
theorem Guards.outside_find (guards : Guards K h₀ h) (outside : Outside K u) {path : List String}
    {w : Slot} (found : h.find? u path = some w) : Outside K w := by
  induction path generalizing u with
  | nil => exact Option.some.inj found ▸ outside
  | cons key rest ih =>
    obtain ⟨t, child, rest⟩ := Option.bind_eq_some_iff.mp found
    cases u with
    | leaf v => cases child
    | cell i =>
      have apart : Outside K t := guards.apart i (outside i rfl) _ (mem_of_child child)
      exact ih apart rest

/-- Within guarded objects everything is seen as before. -/
theorem Guards.view_eq (guards : Guards K h₀ h)
    (closed : ∀ i, K i → ∀ f ∈ h₀.fields i, ∀ j, f.2 = .cell j → K j)
    (inside : ∀ j, u = .cell j → K j) (depth : Nat) : h.view depth u = h₀.view depth u := by
  induction depth generalizing u with
  | zero => cases u <;> rfl
  | succ depth ih =>
    cases u with
    | leaf v => rfl
    | cell i =>
      have guarded := inside i rfl
      rw [view, view, guards.same i guarded]
      congr 1
      exact mapM_option_congr fun f hf => by rw [ih (closed i guarded f hf)]

theorem Guards.find?_eq (guards : Guards K h₀ h)
    (closed : ∀ i, K i → ∀ f ∈ h₀.fields i, ∀ j, f.2 = .cell j → K j)
    (inside : ∀ j, u = .cell j → K j) (path : List String) : h.find? u path = h₀.find? u path := by
  induction path generalizing u with
  | nil => rfl
  | cons key rest ih =>
    have child : h.child? u key = h₀.child? u key := by
      cases u with
      | leaf v => rfl
      | cell i => simp only [child?, guards.same i (inside i rfl)]
    rw [find?, find?, child]
    cases found : h₀.child? u key with
    | none => rfl
    | some w =>
      apply ih
      rintro j rfl
      cases u with
      | leaf v => cases found
      | cell i => exact closed i (inside i rfl) _ (mem_of_child found) j rfl

end Heap

namespace Store

/-- An object of the context or of the input. -/
def ReadOnlyObject (s : Store) (i : Nat) : Prop :=
  ∃ r : StateRef, r.space.readOnly = true ∧ s.get? r = some (.cell i)

/-- What a snapshot shows of a namespace. -/
def shown (s : Store) (space : Namespace) : Except Fault Json :=
  s.json (s.root space)

variable {s₀ s s' : Store} {i : Nat}

theorem ReadOnlyObject.within (sound : s.Sound) (own : s.ReadOnlyObject i) :
    i < s.heap.length := by
  obtain ⟨r, _, found⟩ := own
  exact sound.heap.within_find (sound.within r.space) found

theorem ReadOnlyObject.closed (sound : s.Sound) (own : s.ReadOnlyObject i) :
    ∀ f ∈ s.heap.fields i, ∀ j, f.2 = .cell j → s.ReadOnlyObject j := by
  rintro ⟨key, w⟩ hf j rfl
  obtain ⟨r, readOnly, found⟩ := own
  refine ⟨r.below [key], readOnly, ?_⟩
  rw [get?_below, found, Option.bind_some, Heap.find?, sound.heap.child_of_mem hf]
  rfl

theorem shown_eq_ok_iff {space : Namespace} {v : Json} :
    s.shown space = .ok v ↔ s.heap.json? (s.root space) = some v := by
  unfold shown json
  cases s.heap.json? (s.root space) with
  | none => simp
  | some w => simp

/-- The parts of a snapshot. -/
theorem find_snapshot {v : Json} (taken : s.snapshot = .ok v) (space : Namespace) :
    ∃ w, s.shown space = .ok w ∧ v.find space.name = .ok (some w) := by
  unfold snapshot at taken
  have shown : ∀ space, ∃ w, s.shown space = .ok w := by
    intro space
    obtain ⟨w, seen⟩ := HoldsJson.view_root ⟨v, taken⟩ space
    exact ⟨w, shown_eq_ok_iff.mpr seen⟩
  obtain ⟨vars, hvars⟩ := shown .vars
  obtain ⟨tmp, htmp⟩ := shown .tmp
  obtain ⟨ctx, hctx⟩ := shown .ctx
  obtain ⟨input, hinput⟩ := shown .input
  unfold Store.shown at hvars htmp hctx hinput
  simp only [Namespace.all, List.mapM_cons, List.mapM_nil, hvars, htmp, hctx, hinput, bind,
    Except.bind, pure, Except.pure, Except.ok.injEq] at taken
  subst taken
  cases space
  · exact ⟨vars, hvars, rfl⟩
  · exact ⟨tmp, htmp, rfl⟩
  · exact ⟨ctx, hctx, rfl⟩
  · exact ⟨input, hinput, rfl⟩

/-! ## The beginning of a run -/

theorem json?_store {h : Heap} (sound : h.Sound) {v : Json} (proper : v.Proper) :
    (h.store v).2.json? (h.store v).1 = some v := by
  obtain ⟨sound', _, within⟩ := sound.store v proper
  exact (Heap.json?_eq_some_iff sound' within).mpr (Heap.view_store v sound proper)

section Start

variable {input context : Json}

/-- The context and the input are shown as they were given. -/
theorem shown_start (hi : input.Proper) (hc : context.Proper) :
    (start input context).shown .ctx = .ok (objectIfAbsent context) ∧
      (start input context).shown .input = .ok (objectIfAbsent input) := by
  have first := proper_objectIfAbsent hc
  have second := proper_objectIfAbsent hi
  obtain ⟨sound₁, _, within₁⟩ := Heap.sound_blank.store _ first
  obtain ⟨sound₂, _, _⟩ := sound₁.store _ second
  have more := Heap.prefix_store (Heap.store [[], []] (objectIfAbsent context)).2
    (objectIfAbsent input)
  constructor
  · have seen := Heap.json?_extended more sound₁ sound₂ within₁
    rw [json?_store Heap.sound_blank first] at seen
    exact shown_eq_ok_iff.mpr seen
  · exact shown_eq_ok_iff.mpr (json?_store sound₁ second)

/-- The two objects of the namespaces that can be written are no objects of the others. -/
theorem guards_blank (input context : Json) :
    Heap.Guards (· < 2) [[], []] (start input context).heap ∧
    Heap.Outside (· < 2) (start input context).ctx ∧
    Heap.Outside (· < 2) (start input context).input := by
  have blank : Heap.Guards (· < 2) [[], []] [[], []] := by
    refine ⟨fun i within => within, Nat.le_refl _, fun _ _ => rfl, ?_⟩
    intro i beyond f hf
    rw [Heap.fields_beyond (Nat.le_of_not_lt beyond)] at hf
    exact False.elim (List.not_mem_nil hf)
  obtain ⟨guards₁, ctx⟩ := blank.store (objectIfAbsent context)
  obtain ⟨guards₂, own⟩ := guards₁.store (objectIfAbsent input)
  exact ⟨guards₂, ctx, own⟩

theorem ReadOnlyObject.not_blank {i : Nat} (own : (start input context).ReadOnlyObject i) :
    ¬i < 2 := by
  obtain ⟨⟨space, path⟩, readOnly, found⟩ := own
  obtain ⟨guards, ctx, input⟩ := guards_blank input context
  cases space with
  | vars => cases readOnly
  | tmp => cases readOnly
  | ctx => exact guards.outside_find ctx found i rfl
  | input => exact guards.outside_find input found i rfl

/-- All objects behind the first two are objects of the context or of the input. -/
theorem readOnlyObject_start (hi : input.Proper) (hc : context.Proper) {i : Nat} (second : 2 ≤ i)
    (within : i < (start input context).heap.length) : (start input context).ReadOnlyObject i := by
  have first := proper_objectIfAbsent hc
  obtain ⟨sound₁, _, within₁⟩ := Heap.sound_blank.store _ first
  have more := Heap.prefix_store (Heap.store [[], []] (objectIfAbsent context)).2
    (objectIfAbsent input)
  by_cases early : i < (Heap.store [[], []] (objectIfAbsent context)).2.length
  · obtain ⟨path, found⟩ := Heap.find_store _ Heap.sound_blank first second early
    rw [← Heap.find?_extended more sound₁ within₁] at found
    exact ⟨⟨.ctx, path⟩, rfl, found⟩
  · obtain ⟨path, found⟩ := Heap.find_store _ sound₁ (proper_objectIfAbsent hi)
      (Nat.le_of_not_lt early) within
    exact ⟨⟨.input, path⟩, rfl, found⟩

end Start

/-! ## What is kept -/

/-- The context and the input are those of an earlier state, and no object of theirs is held
by any other. -/
structure Kept (s₀ s : Store) : Prop where
  ctx : s.ctx = s₀.ctx
  input : s.input = s₀.input
  guards : Heap.Guards s₀.ReadOnlyObject s₀.heap s.heap
  vars : ¬s₀.ReadOnlyObject s.vars
  tmp : ¬s₀.ReadOnlyObject s.tmp

theorem Kept.start {input context : Json} (hi : input.Proper) (hc : context.Proper) :
    Kept (start input context) (start input context) where
  ctx := rfl
  input := rfl
  guards := by
    refine ⟨fun i own => own.within (Sound.start hi hc), Nat.le_refl _, fun _ _ => rfl, ?_⟩
    intro i other f hf
    have blank : i < 2 ∨ (Store.start input context).heap.length ≤ i := by
      by_contra neither
      apply other
      apply readOnlyObject_start hi hc <;> omega
    have none : (Store.start input context).heap.fields i = [] := by
      rcases blank with early | beyond
      · rw [(guards_blank _ _).1.same i early]
        match i, early with
        | 0, _ => rfl
        | 1, _ => rfl
      · exact Heap.fields_beyond beyond
    rw [none] at hf
    exact False.elim (List.not_mem_nil hf)
  vars := fun own => own.not_blank Nat.zero_lt_two
  tmp := fun own => own.not_blank Nat.one_lt_two

theorem Kept.root (kept : s₀.Kept s) {space : Namespace} (readOnly : space.readOnly = true) :
    s.root space = s₀.root space ∧ ∀ j, s₀.root space = .cell j → s₀.ReadOnlyObject j := by
  constructor
  · cases space with
    | vars => cases readOnly
    | tmp => cases readOnly
    | ctx => exact kept.ctx
    | input => exact kept.input
  · intro j same
    exact ⟨⟨space, []⟩, readOnly, congrArg some same⟩

section Kept

variable (sound₀ : s₀.Sound) (kept : s₀.Kept s)

include sound₀ kept

theorem Kept.readOnlyObject_iff : s.ReadOnlyObject i ↔ s₀.ReadOnlyObject i := by
  have same : ∀ r : StateRef, r.space.readOnly = true → s.get? r = s₀.get? r := by
    intro r readOnly
    obtain ⟨root, inside⟩ := kept.root readOnly
    rw [get?, get?, root]
    exact kept.guards.find?_eq (fun i own => own.closed sound₀) inside r.path
  constructor
  · rintro ⟨r, readOnly, found⟩
    exact ⟨r, readOnly, same r readOnly ▸ found⟩
  · rintro ⟨r, readOnly, found⟩
    exact ⟨r, readOnly, (same r readOnly).symm ▸ found⟩

theorem Kept.outside_iff {v : Slot} :
    Heap.Outside s.ReadOnlyObject v ↔ Heap.Outside s₀.ReadOnlyObject v := by
  unfold Heap.Outside
  simp only [kept.readOnlyObject_iff sound₀]

/-- A read-only namespace is shown as before. -/
theorem Kept.shown {space : Namespace} (readOnly : space.readOnly = true) {v : Json}
    (seen : s₀.shown space = .ok v) : s.shown space = .ok v := by
  obtain ⟨root, inside⟩ := kept.root readOnly
  rw [shown_eq_ok_iff] at seen ⊢
  have same := kept.guards.view_eq (fun i own => own.closed sound₀) inside (s₀.heap.length + 1)
  have longer := kept.guards.longer
  apply Heap.view_mono s.heap (Nat.succ_le_succ longer)
  rw [root, same]
  exact seen

end Kept

theorem Kept.write {r : StateRef} {v : Slot} (kept : s₀.Kept s)
    (outside : Heap.Outside s₀.ReadOnlyObject v) (wrote : s.write r v = .ok s') : s₀.Kept s' := by
  obtain ⟨i, root, same⟩ := exists_write (s := s) (readOnly_of_write wrote) v
  obtain rfl := Except.ok.inj (wrote.symm.trans same)
  have free : ¬s₀.ReadOnlyObject i := by
    obtain ⟨space, path⟩ := r
    cases space with
    | vars => exact Slot.cell.inj root ▸ kept.vars
    | tmp => exact Slot.cell.inj root ▸ kept.tmp
    | ctx => cases wrote
    | input => cases wrote
  exact ⟨kept.ctx, kept.input, kept.guards.put free outside r.path, kept.vars, kept.tmp⟩

theorem Kept.make (kept : s₀.Kept s) {objects : Heap}
    (outside : ∀ c ∈ objects, ∀ f ∈ c, Heap.Outside s₀.ReadOnlyObject f.2) :
    s₀.Kept { s with heap := s.heap ++ objects } :=
  ⟨kept.ctx, kept.input, kept.guards.append outside, kept.vars, kept.tmp⟩

theorem Kept.clear {space : Namespace} (kept : s₀.Kept s) (cleared : s.clear space = .ok s') :
    s₀.Kept s' := by
  cases space with
  | vars =>
    obtain rfl := Except.ok.inj cleared
    exact ⟨kept.ctx, kept.input, kept.guards.grow, kept.guards.fresh, kept.tmp⟩
  | tmp =>
    obtain rfl := Except.ok.inj cleared
    exact ⟨kept.ctx, kept.input, kept.guards.grow, kept.vars, kept.guards.fresh⟩
  | ctx => cases cleared
  | input => cases cleared

end Store
end Flowgraph
