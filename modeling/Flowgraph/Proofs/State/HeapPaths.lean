import Flowgraph.Proofs.State.Reading
import Mathlib.Data.Finset.Card

/-!
# Paths through the heap

What is found along a path, and what is seen of a value, depends on the objects that are
met. A change of one object is not seen from a value that does not contain it. An object
that does not lie within itself is no deeper than there are objects, so that a value is
written out at the standard depth whenever it is written out at any.
-/
namespace Flowgraph

namespace Heap

/-- What can be kept in the heap: a value that is no object, or an object that exists. -/
def Within (h : Heap) : Slot → Prop
  | .leaf (.obj _) => False
  | .leaf _ => True
  | .cell i => i < h.length

/-- Every object has each key once and keeps what can be kept in the heap. -/
structure Sound (h : Heap) : Prop where
  distinct : ∀ i, ((h.fields i).map (·.1)).Nodup
  within : ∀ i, ∀ f ∈ h.fields i, h.Within f.2

/-- An object is not found anywhere within a value. -/
def Avoids (h : Heap) (s : Slot) (t : Nat) : Prop :=
  ∀ path, h.find? s path ≠ some (.cell t)

variable {h h' : Heap} {s u : Slot} {t : Nat} {key : String}

theorem Within.mono (longer : h.length ≤ h'.length) (within : h.Within s) : h'.Within s := by
  cases s with
  | leaf v => cases v <;> exact within
  | cell i => exact Nat.lt_of_lt_of_le within longer

theorem Sound.child_of_mem (sound : h.Sound) {i : Nat} {f : String × Slot}
    (member : f ∈ h.fields i) : h.child? (.cell i) f.1 = some f.2 :=
  lookup_of_mem (sound.distinct i) member

theorem mem_of_child {i : Nat} (child : h.child? (.cell i) key = some u) :
    (key, u) ∈ h.fields i := by
  obtain ⟨before, after, here, _⟩ := List.lookup_eq_some_iff.mp child
  exact here ▸ List.mem_append_right before List.mem_cons_self

theorem Sound.within_child (sound : h.Sound) (child : h.child? s key = some u) : h.Within u := by
  cases s with
  | leaf v => cases child
  | cell i => exact sound.within i _ (mem_of_child child)

theorem find?_append (h : Heap) (s : Slot) (p q : List String) :
    h.find? s (p ++ q) = (h.find? s p).bind fun u => h.find? u q := by
  induction p generalizing s with
  | nil => rfl
  | cons key p ih =>
    simp only [List.cons_append, find?, ih, Option.bind_assoc]

theorem Sound.within_find (sound : h.Sound) (within : h.Within s) {path : List String}
    (found : h.find? s path = some u) : h.Within u := by
  induction path generalizing s with
  | nil => exact Option.some.inj found ▸ within
  | cons key rest ih =>
    obtain ⟨w, child, found⟩ := Option.bind_eq_some_iff.mp found
    exact ih (sound.within_child child) found

theorem Avoids.child (avoids : h.Avoids s t) (child : h.child? s key = some u) :
    h.Avoids u t := by
  intro path found
  apply avoids (key :: path)
  rw [find?, child]
  exact found

theorem Avoids.ne {i : Nat} (avoids : h.Avoids (.cell i) t) : i ≠ t := by
  rintro rfl
  exact avoids [] rfl

/-! ## A change of one object -/

/-- Two heaps have the same objects, but for one of the first heap and new ones in the
second. -/
def SameBut (t : Nat) (h h' : Heap) : Prop :=
  ∀ j, j < h.length → j ≠ t → h'.fields j = h.fields j

/-- A path that does not go on from the changed object leads to the same place. -/
theorem find?_of_sameBut (same : SameBut t h h') (sound : h.Sound) {path : List String}
    (within : h.Within s)
    (passes : ∀ pre key rest, path = pre ++ key :: rest → h.find? s pre ≠ some (.cell t)) :
    h'.find? s path = h.find? s path := by
  induction path generalizing s with
  | nil => rfl
  | cons key rest ih =>
    have child : h'.child? s key = h.child? s key := by
      cases s with
      | leaf v => rfl
      | cell i =>
        have other : i ≠ t := by
          rintro rfl
          exact passes [] key rest rfl rfl
        simp only [child?, same i within other]
    rw [find?, find?, child]
    cases found : h.child? s key with
    | none => rfl
    | some u =>
      apply ih (sound.within_child found)
      intro pre key' rest' split here
      apply passes (key :: pre) key' rest' (by rw [split, List.cons_append])
      rw [find?, found]
      exact here

theorem view_of_sameBut (same : SameBut t h h') (sound : h.Sound) (within : h.Within s)
    (avoids : h.Avoids s t) (depth : Nat) : h'.view depth s = h.view depth s := by
  induction depth generalizing s with
  | zero => cases s <;> rfl
  | succ depth ih =>
    cases s with
    | leaf v => rfl
    | cell i =>
      have members : ∀ f ∈ h.fields i, h'.view depth f.2 = h.view depth f.2 := by
        intro f hf
        exact ih (sound.within i f hf) (avoids.child (sound.child_of_mem hf))
      rw [view, view, same i within avoids.ne]
      congr 1
      exact mapM_option_congr fun f hf => by rw [members f hf]

/-! ## Depth -/

theorem view_mono (h : Heap) {depth depth' : Nat} (le : depth ≤ depth') {v : Json}
    (seen : h.view depth s = some v) : h.view depth' s = some v := by
  induction le with
  | refl => exact seen
  | step _ ih => exact h.view_succ _ s ih

theorem view_fields {depth i : Nat} {v : Json} (seen : h.view (depth + 1) (.cell i) = some v) :
    ∀ f ∈ h.fields i, ∃ w, h.view depth f.2 = some w := by
  rw [view] at seen
  obtain ⟨fields, members, _⟩ := Option.map_eq_some_iff.mp seen
  intro f hf
  obtain ⟨g, _, hg⟩ := forall₂_exists_right ((mapM_eq_some_iff _ _ _).mp members) hf
  obtain ⟨w, hw, _⟩ := Option.map_eq_some_iff.mp hg
  exact ⟨w, hw⟩

/-- What can be written out does not lie within itself. -/
theorem not_within_itself {depth i : Nat} {v : Json}
    (seen : h.view depth (.cell i) = some v) {path : List String} (nonempty : path ≠ []) :
    h.find? (.cell i) path ≠ some (.cell i) := by
  intro back
  obtain ⟨key, rest, rfl⟩ := List.exists_cons_of_ne_nil nonempty
  obtain ⟨u, child, back⟩ := Option.bind_eq_some_iff.mp back
  induction depth generalizing v with
  | zero => cases seen
  | succ depth ih =>
    obtain ⟨w, hw⟩ := view_fields seen _ (mem_of_child child)
    obtain ⟨w', hw'⟩ := h.view_find rest hw back
    exact ih hw'

open Classical in
/-- The objects that are found within a value. -/
noncomputable def contents (h : Heap) (s : Slot) : Finset Nat :=
  (Finset.range h.length).filter fun j => ∃ path, h.find? s path = some (.cell j)

theorem mem_contents {j : Nat} : j ∈ h.contents s ↔
    j < h.length ∧ ∃ path, h.find? s path = some (.cell j) := by
  simp [contents]

theorem contents_subset (h : Heap) (s : Slot) : h.contents s ⊆ Finset.range h.length := by
  intro j hj
  exact Finset.mem_range.mpr (mem_contents.mp hj).1

/-- Below an object that does not lie within itself there are fewer objects. -/
theorem card_contents_lt {depth i : Nat} {v : Json} (within : i < h.length)
    (seen : h.view depth (.cell i) = some v) (child : h.child? (.cell i) key = some u) :
    (h.contents u).card < (h.contents (.cell i)).card := by
  apply Finset.card_lt_card
  refine Finset.ssubset_iff_subset_ne.mpr ⟨?_, ?_⟩
  · intro j hj
    obtain ⟨hlt, path, found⟩ := mem_contents.mp hj
    refine mem_contents.mpr ⟨hlt, key :: path, ?_⟩
    rw [find?, child]
    exact found
  · intro same
    have own : i ∈ h.contents u := same ▸ mem_contents.mpr ⟨within, [], rfl⟩
    obtain ⟨_, path, found⟩ := mem_contents.mp own
    apply not_within_itself seen (List.cons_ne_nil key path)
    rw [find?, child]
    exact found

theorem view_contents (sound : h.Sound) (within : h.Within s) {depth : Nat} {v : Json}
    (seen : h.view depth s = some v) : h.view ((h.contents s).card + 1) s = some v := by
  induction depth generalizing s v with
  | zero =>
    cases s with
    | leaf w => simpa [view] using seen
    | cell i => cases seen
  | succ depth ih =>
    cases s with
    | leaf w => simpa [view] using seen
    | cell i =>
      have whole := seen
      rw [view] at seen ⊢
      obtain ⟨fields, members, rfl⟩ := Option.map_eq_some_iff.mp seen
      refine Option.map_eq_some_iff.mpr ⟨fields, ?_, rfl⟩
      rw [← members]
      refine mapM_option_congr fun f hf => ?_
      obtain ⟨w, hw⟩ := view_fields whole f hf
      have fewer := card_contents_lt within whole (sound.child_of_mem hf)
      have deep := ih (sound.within i f hf) hw
      rw [hw, h.view_mono (by omega) deep]

/-- A value is written out whenever it is written out to some depth. -/
theorem json?_eq_some_iff (sound : h.Sound) (within : h.Within s) {v : Json} :
    h.json? s = some v ↔ ∃ depth, h.view depth s = some v := by
  constructor
  · intro seen
    exact ⟨h.length + 1, seen⟩
  · rintro ⟨depth, seen⟩
    have few : (h.contents s).card ≤ h.length := by
      have le := Finset.card_le_card (h.contents_subset s)
      rwa [Finset.card_range] at le
    exact h.view_mono (by omega) (view_contents sound within seen)

/-- A change of an object is not seen from a value that does not contain it. -/
theorem json?_of_sameBut (same : SameBut t h h') (sound : h.Sound) (sound' : h'.Sound)
    (longer : h.length ≤ h'.length) (within : h.Within s) (avoids : h.Avoids s t) :
    h'.json? s = h.json? s := by
  apply Option.ext
  intro v
  rw [json?_eq_some_iff sound' (within.mono longer), json?_eq_some_iff sound within]
  constructor
  · rintro ⟨depth, seen⟩
    exact ⟨depth, (view_of_sameBut same sound within avoids depth) ▸ seen⟩
  · rintro ⟨depth, seen⟩
    exact ⟨depth, (view_of_sameBut same sound within avoids depth).symm ▸ seen⟩

end Heap
end Flowgraph
