import Flowgraph.Proofs.State.ReadAfterWrite

/-!
# Values taken into the heap

A value that is taken into the heap is kept in new objects behind the old ones. It is seen
as it was, every new object is found within it, and what was kept before is seen as before.
-/
namespace Flowgraph

namespace Heap

variable {h h' : Heap} {s u : Slot} {t i : Nat}

/-! ## More objects -/

theorem fields_append_objects (h objects : Heap) (i : Nat) :
    (h ++ objects : Heap).fields i =
      if i < h.length then h.fields i else objects.fields (i - h.length) := by
  unfold fields
  rw [List.getElem?_append]
  split <;> rfl

theorem fields_extended (more : h <+: h') (within : i < h.length) : h'.fields i = h.fields i := by
  obtain ⟨objects, rfl⟩ := more
  rw [fields_append_objects, if_pos within]

theorem fields_beyond (beyond : h.length ≤ i) : h.fields i = [] := by
  unfold fields
  rw [List.getElem?_eq_none beyond]
  rfl

theorem sameBut_extended (more : h <+: h') (t : Nat) : SameBut t h h' :=
  fun _ within _ => fields_extended more within

/-- What is kept in a heap contains no object beyond it. -/
theorem Sound.avoids_beyond (sound : h.Sound) (within : h.Within s) (beyond : h.length ≤ t) :
    h.Avoids s t := by
  intro path found
  have inside : t < h.length := sound.within_find within found
  omega

theorem find?_extended (more : h <+: h') (sound : h.Sound) (within : h.Within s)
    (path : List String) : h'.find? s path = h.find? s path := by
  apply find?_of_sameBut (sameBut_extended more h.length) sound within
  intro pre key rest _
  exact sound.avoids_beyond within (Nat.le_refl _) pre

theorem view_extended (more : h <+: h') (sound : h.Sound) (within : h.Within s) (depth : Nat) :
    h'.view depth s = h.view depth s :=
  view_of_sameBut (sameBut_extended more h.length) sound within
    (sound.avoids_beyond within (Nat.le_refl _)) depth

theorem json?_extended (more : h <+: h') (sound : h.Sound) (sound' : h'.Sound)
    (within : h.Within s) : h'.json? s = h.json? s :=
  json?_of_sameBut (sameBut_extended more h.length) sound sound' more.length_le within
    (sound.avoids_beyond within (Nat.le_refl _))

/-! ## Taking a value in -/

theorem store_obj (h : Heap) (fields : List (String × Json)) :
    h.store (.obj fields) = (.cell (h.storeFields fields).2.length,
      (h.storeFields fields).2 ++ [(h.storeFields fields).1]) := rfl

mutual

theorem prefix_store (h : Heap) (v : Json) : h <+: (h.store v).2 := by
  match v with
  | .obj fields =>
    exact (prefix_storeFields h fields).trans (List.prefix_append _ _)
  | .null | .bool _ | .int _ | .float _ | .str _ | .arr _ => exact List.prefix_refl h

theorem prefix_storeFields (h : Heap) (fields : List (String × Json)) :
    h <+: (h.storeFields fields).2 := by
  match fields with
  | [] => exact List.prefix_refl h
  | (k, v) :: rest =>
    exact (prefix_store h v).trans (prefix_storeFields (h.store v).2 rest)

end

theorem view_append_cell {c : Cell} {fields : List (String × Json)} {depth : Nat}
    (sound : h.Sound) (within : ∀ f ∈ c, h.Within f.2)
    (members : List.Forall₂ (fun f g => h.view depth f.2 = some g.2 ∧ g.1 = f.1) c fields) :
    view (h ++ [c]) (depth + 1) (.cell h.length) = some (.obj fields) := by
  have own : Heap.fields (h ++ [c]) h.length = c := by rw [fields_append, if_pos rfl]
  rw [view, own]
  refine Option.map_eq_some_iff.mpr ⟨fields, (mapM_eq_some_iff _ _ _).mpr ?_, rfl⟩
  have both := (List.forall₂_and_left c fields).mpr ⟨within, members⟩
  refine both.imp fun f g hf => ?_
  obtain ⟨inside, seen, key⟩ := hf
  refine Option.map_eq_some_iff.mpr ⟨g.2, ?_, by rw [← key]⟩
  rw [view_extended (List.prefix_append h [c]) sound inside, seen]

mutual

/-- A value that was taken in is seen as it was. -/
theorem view_store (v : Json) {h : Heap} (sound : h.Sound) (proper : v.Proper) :
    ∃ depth, (h.store v).2.view depth (h.store v).1 = some v := by
  match v with
  | .obj fields =>
    obtain ⟨_, proper⟩ := proper
    obtain ⟨sound', _, within, _⟩ := Sound.storeFields fields sound proper
    obtain ⟨depth, members⟩ := view_storeFields fields sound proper
    exact ⟨depth + 1, view_append_cell sound' within members⟩
  | .null | .bool _ | .int _ | .float _ | .str _ | .arr _ => exact ⟨0, rfl⟩

theorem view_storeFields (fields : List (String × Json)) {h : Heap} (sound : h.Sound)
    (proper : Json.FieldsProper fields) :
    ∃ depth,
      List.Forall₂ (fun f g => (h.storeFields fields).2.view depth f.2 = some g.2 ∧ g.1 = f.1)
        (h.storeFields fields).1 fields := by
  match fields with
  | [] => exact ⟨0, .nil⟩
  | (k, v) :: rest =>
    obtain ⟨first, others⟩ := proper
    obtain ⟨sound₁, _, within₁⟩ := Sound.store v sound first
    obtain ⟨depth₁, seen⟩ := view_store v sound first
    obtain ⟨depth₂, members⟩ := view_storeFields rest sound₁ others
    have more := prefix_storeFields (h.store v).2 rest
    rw [← view_extended more sound₁ within₁] at seen
    refine ⟨max depth₁ depth₂, .cons ⟨view_mono _ (Nat.le_max_left _ _) seen, rfl⟩ ?_⟩
    exact members.imp fun f g hf => ⟨view_mono _ (Nat.le_max_right _ _) hf.1, hf.2⟩

end

mutual

/-- The new objects are found within the value that was taken in. -/
theorem find_store (v : Json) {h : Heap} (sound : h.Sound) (proper : v.Proper)
    (fresh : h.length ≤ i) (within : i < (h.store v).2.length) :
    ∃ path, (h.store v).2.find? (h.store v).1 path = some (.cell i) := by
  match v with
  | .obj fields =>
    obtain ⟨whole, _, _⟩ := Sound.store (.obj fields) sound proper
    obtain ⟨_, proper⟩ := proper
    obtain ⟨sound', _, kept, _⟩ := Sound.storeFields fields sound proper
    rw [store_obj] at whole within ⊢
    by_cases inside : i < (h.storeFields fields).2.length
    · obtain ⟨f, hf, path, found⟩ := find_storeFields fields sound proper fresh inside
      have own : Heap.fields ((h.storeFields fields).2 ++ [(h.storeFields fields).1])
          (h.storeFields fields).2.length = (h.storeFields fields).1 := by
        rw [fields_append, if_pos rfl]
      have child := whole.child_of_mem (own ▸ hf)
      refine ⟨f.1 :: path, ?_⟩
      rw [find?, child, Option.bind_some,
        find?_extended (List.prefix_append _ _) sound' (kept f hf), found]
    · rw [List.length_append, List.length_singleton] at within
      have last : i = (h.storeFields fields).2.length := by omega
      exact ⟨[], by rw [last]; rfl⟩
  | .null | .bool _ | .int _ | .float _ | .str _ | .arr _ =>
    exact False.elim (Nat.not_lt_of_le fresh within)

theorem find_storeFields (fields : List (String × Json)) {h : Heap} (sound : h.Sound)
    (proper : Json.FieldsProper fields) (fresh : h.length ≤ i)
    (within : i < (h.storeFields fields).2.length) :
    ∃ f ∈ (h.storeFields fields).1, ∃ path,
      (h.storeFields fields).2.find? f.2 path = some (.cell i) := by
  match fields with
  | [] => exact False.elim (Nat.not_lt_of_le fresh within)
  | (k, v) :: rest =>
    obtain ⟨first, others⟩ := proper
    obtain ⟨sound₁, _, within₁⟩ := Sound.store v sound first
    by_cases inside : i < (h.store v).2.length
    · obtain ⟨path, found⟩ := find_store v sound first fresh inside
      have more := prefix_storeFields (h.store v).2 rest
      refine ⟨_, List.mem_cons_self, path, ?_⟩
      rw [← find?_extended more sound₁ within₁] at found
      exact found
    · obtain ⟨f, hf, path, found⟩ :=
        find_storeFields rest sound₁ others (Nat.le_of_not_lt inside) within
      exact ⟨f, List.mem_cons_of_mem _ hf, path, found⟩

end

end Heap
end Flowgraph
