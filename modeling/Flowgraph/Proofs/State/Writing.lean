import Flowgraph.Proofs.State.HeapPaths

/-!
# Writing into the heap

A value that is put at the end of a path changes one object: the last one on the way.
From there on new objects lead to the value, each with a single key. Every other object
stays as it is, so that a path that does not lead through the changed object to the value
leads where it led before.
-/
namespace Flowgraph

theorem Cell.keys_insert (c : Cell) (key : String) (s : Slot) :
    (c.insert key s).map (·.1) =
      if key ∈ c.map (·.1) then c.map (·.1) else c.map (·.1) ++ [key] := by
  induction c with
  | nil => rfl
  | cons field rest ih =>
    obtain ⟨k, old⟩ := field
    by_cases own : k = key
    · simp [Cell.insert, own]
    · have other : key ≠ k := Ne.symm own
      simp only [Cell.insert, own, if_false, List.map_cons, ih, List.mem_cons, other, false_or]
      split <;> rfl

theorem Cell.mem_insert {c : Cell} {key : String} {s : Slot} {f : String × Slot}
    (member : f ∈ c.insert key s) : f.2 = s ∨ f ∈ c := by
  induction c with
  | nil =>
    rw [Cell.insert, List.mem_singleton] at member
    exact .inl (member ▸ rfl)
  | cons field rest ih =>
    obtain ⟨k, old⟩ := field
    by_cases own : k = key
    · rw [Cell.insert, if_pos own] at member
      rcases List.mem_cons.mp member with rfl | member
      · exact .inl rfl
      · exact .inr (List.mem_cons_of_mem _ member)
    · rw [Cell.insert, if_neg own] at member
      rcases List.mem_cons.mp member with rfl | member
      · exact .inr List.mem_cons_self
      · rcases ih member with same | member
        · exact .inl same
        · exact .inr (List.mem_cons_of_mem _ member)

/-- Neither of two lists begins with the other: they part somewhere. -/
theorem exists_parting {α : Type} {p q : List α} (before : ¬p <+: q) (after : ¬q <+: p) :
    ∃ way a b p' q', p = way ++ a :: p' ∧ q = way ++ b :: q' ∧ a ≠ b := by
  induction p generalizing q with
  | nil => exact False.elim (before List.nil_prefix)
  | cons a p ih =>
    cases q with
    | nil => exact False.elim (after List.nil_prefix)
    | cons b q =>
      by_cases same : a = b
      · subst same
        rw [List.cons_prefix_cons] at before after
        obtain ⟨way, c, d, p', q', rfl, rfl, differ⟩ :=
          ih (fun h => before ⟨rfl, h⟩) (fun h => after ⟨rfl, h⟩)
        exact ⟨a :: way, c, d, p', q', rfl, rfl, differ⟩
      · exact ⟨[], a, b, p, q, rfl, rfl, same⟩

namespace Heap

variable {h h' : Heap} {s u v : Slot} {t i : Nat} {key : String} {path : List String}

/-- The last object on the way along a path to a value that is written there, and how far
the way to it is. -/
def receiver (h : Heap) (u : Slot) : List String → List String × Slot
  | key :: next :: rest =>
    match h.child? u key with
    | some (.cell j) =>
      let (way, t) := h.receiver (.cell j) (next :: rest)
      (key :: way, t)
    | _ => ([], u)
  | _ => ([], u)

/-- Objects with a single key each lead along a path to a value. -/
def Chain (h : Heap) (e : Slot) : List String → Slot → Prop
  | [], v => e = v
  | key :: rest, v => ∃ n e', e = .cell n ∧ h.fields n = [(key, e')] ∧ h.Chain e' rest v

/-- What a write at a path below `u` does: the object `t` is given a value under one key,
from which a chain leads to the value that is written. -/
structure Wrote (h h' : Heap) (u : Slot) (path : List String) (v : Slot)
    (way : List String) (t : Nat) (key : String) (rest : List String) (e : Slot) : Prop where
  path_eq : path = way ++ key :: rest
  place : h.find? u way = some (.cell t)
  within : t < h.length
  /-- Only where no object stands under the key is the chain longer than nothing. -/
  blocked : rest = [] ∨ ∀ j, h.child? (.cell t) key ≠ some (.cell j)
  others : SameBut t h h'
  changed : h'.fields t = (h.fields t).insert key e
  chain : h'.Chain e rest v

/-! ## One step -/

theorem fields_setField (h : Heap) (i j : Nat) (key : String) (s : Slot) :
    (h.setField i key s).fields j =
      if i = j ∧ j < h.length then (h.fields j).insert key s else h.fields j := by
  unfold fields setField
  rw [List.getElem?_modify]
  by_cases same : i = j
  · by_cases within : j < h.length
    · simp [same, within]
    · simp [same, within]
  · simp [same]

theorem length_setField (h : Heap) (i : Nat) (key : String) (s : Slot) :
    (h.setField i key s).length = h.length :=
  List.length_modify _ _ _

theorem fields_append (h : Heap) (c : Cell) (j : Nat) :
    (h ++ [c] : Heap).fields j = if j = h.length then c else h.fields j := by
  unfold fields
  rcases Nat.lt_trichotomy j h.length with before | same | beyond
  · rw [List.getElem?_append_left before, if_neg (Nat.ne_of_lt before)]
  · subst same
    rw [if_pos rfl, List.getElem?_concat_length]
    rfl
  · have none : h[j]? = Option.none := List.getElem?_eq_none (Nat.le_of_lt beyond)
    have none' : (h ++ [c])[j]? = Option.none := by
      apply List.getElem?_eq_none
      rw [List.length_append, List.length_singleton]
      exact beyond
    rw [none, none', if_neg (Nat.ne_of_gt beyond)]

theorem Sound.setField (sound : h.Sound) (within : h.Within s) (i : Nat) (key : String) :
    (h.setField i key s).Sound := by
  have longer : h.length ≤ (h.setField i key s).length := (length_setField h i key s).ge
  constructor
  · intro j
    rw [fields_setField]
    split
    · rw [Cell.keys_insert]
      split
      · exact sound.distinct j
      · rename_i fresh
        have own : ([key] : List String).Nodup := List.nodup_singleton key
        refine (sound.distinct j).append own ?_
        exact List.disjoint_singleton.mpr fresh
    · exact sound.distinct j
  · intro j f hf
    rw [fields_setField] at hf
    split at hf
    · rcases Cell.mem_insert hf with same | hf
      · rw [same]
        exact within.mono longer
      · exact (sound.within j f hf).mono longer
    · exact (sound.within j f hf).mono longer

theorem Sound.append (sound : h.Sound) {c : Cell} (distinct : (c.map (·.1)).Nodup)
    (within : ∀ f ∈ c, h.Within f.2) : Sound (h ++ [c]) := by
  have longer : h.length ≤ (h ++ [c]).length := by simp
  constructor
  · intro j
    rw [fields_append]
    split
    · exact distinct
    · exact sound.distinct j
  · intro j f hf
    rw [fields_append] at hf
    split at hf
    · exact (within f hf).mono longer
    · exact (sound.within j f hf).mono longer

theorem within_append (h : Heap) (c : Cell) : Within (h ++ [c]) (.cell h.length) := by
  simp [Within]

theorem Sound.grow (sound : h.Sound) : h.grow.2.Sound :=
  sound.append List.nodup_nil fun _ hf => False.elim (List.not_mem_nil hf)

/-! ## A new object under a key -/

/-- The heap in which a new object stands under a key of another one. -/
def entered (h : Heap) (i : Nat) (key : String) : Heap :=
  setField (h ++ [[]]) i key (.cell h.length)

theorem length_entered (h : Heap) (i : Nat) (key : String) :
    (h.entered i key).length = h.length + 1 := by
  rw [entered, length_setField, List.length_append, List.length_singleton]

theorem fields_entered_new (other : i ≠ h.length) (key : String) :
    (h.entered i key).fields h.length = [] := by
  rw [entered, fields_setField, if_neg fun same => other same.1, fields_append, if_pos rfl]

theorem fields_entered_own (within : i < h.length) (key : String) :
    (h.entered i key).fields i = (h.fields i).insert key (.cell h.length) := by
  have inside : i < (h ++ [[]] : Heap).length := by
    rw [List.length_append]
    omega
  rw [entered, fields_setField, if_pos ⟨rfl, inside⟩, fields_append,
    if_neg (Nat.ne_of_lt within)]

theorem sameBut_entered (h : Heap) (i : Nat) (key : String) : SameBut i h (h.entered i key) := by
  intro j inside apart
  rw [entered, fields_setField, if_neg fun same => apart same.1.symm, fields_append,
    if_neg (Nat.ne_of_lt inside)]

theorem Sound.entered (sound : h.Sound) (i : Nat) (key : String) : (h.entered i key).Sound :=
  sound.grow.setField (h.within_append []) i key

theorem child?_of_fields_nil (empty : h.fields i = []) (key : String) :
    h.child? (.cell i) key = none := by
  rw [child?, empty]
  rfl

theorem receiver_of_fields_nil (empty : h.fields i = []) (path : List String) :
    h.receiver (.cell i) path = ([], .cell i) := by
  match path with
  | [] => rfl
  | [_] => rfl
  | key :: next :: rest => rw [receiver, child?_of_fields_nil empty]

/-! ## A whole write -/

theorem put_new (h : Heap) (i : Nat) (next : String) (rest : List String) (v : Slot)
    (none : ∀ j, h.child? (.cell i) key ≠ some (.cell j)) :
    h.put i (key :: next :: rest) v =
      (h.entered i key).put h.length (next :: rest) v := by
  rw [put]
  · split
    · rename_i j found
      exact False.elim (none j found)
    · rfl
  · exact List.cons_ne_nil next rest

theorem put_old {j : Nat} (found : h.child? (.cell i) key = some (.cell j)) (next : String)
    (rest : List String) (v : Slot) :
    h.put i (key :: next :: rest) v = h.put j (next :: rest) v := by
  rw [put]
  · rw [found]
  · exact List.cons_ne_nil next rest

theorem exists_child_or (h : Heap) (u : Slot) (key : String) :
    (∃ j, h.child? u key = some (.cell j)) ∨ ∀ j, h.child? u key ≠ some (.cell j) := by
  by_cases found : ∃ j, h.child? u key = some (.cell j)
  · exact .inl found
  · exact .inr fun j here => found ⟨j, here⟩

theorem receiver_old {j : Nat} (found : h.child? u key = some (.cell j)) (next : String)
    (rest : List String) : h.receiver u (key :: next :: rest) =
      (key :: (h.receiver (.cell j) (next :: rest)).1,
        (h.receiver (.cell j) (next :: rest)).2) := by
  rw [receiver, found]

theorem receiver_new (none : ∀ j, h.child? u key ≠ some (.cell j)) (next : String)
    (rest : List String) : h.receiver u (key :: next :: rest) = ([], u) := by
  rw [receiver]
  split
  · rename_i j found
    exact False.elim (none j found)
  · rfl

/-- A write keeps the heap sound and drops no object. -/
theorem Sound.put (sound : h.Sound) (within : h.Within v) (i : Nat) (path : List String) :
    (h.put i path v).Sound ∧ h.length ≤ (h.put i path v).length := by
  induction path generalizing h i with
  | nil => exact ⟨sound, Nat.le_refl _⟩
  | cons key rest ih =>
    cases rest with
    | nil => exact ⟨sound.setField within i key, (length_setField h i key v).ge⟩
    | cons next rest =>
      rcases h.exists_child_or (.cell i) key with ⟨j, found⟩ | none
      · rw [put_old found]
        exact ih sound within j
      · rw [put_new h i next rest v none]
        have longer : h.length ≤ (h.entered i key).length := by
          rw [length_entered]
          exact Nat.le_succ h.length
        obtain ⟨sound', longer'⟩ := ih (sound.entered i key) (within.mono longer) h.length
        exact ⟨sound', longer.trans longer'⟩

section Steps

variable {way below : List String} {last : String} {e : Slot}

/-- A write goes on from an object that exists. -/
theorem Wrote.through {j : Nat} (found : h.child? (.cell i) key = some (.cell j))
    (wrote : Wrote h h' (.cell j) path v way t last below e) :
    Wrote h h' (.cell i) (key :: path) v (key :: way) t last below e := by
  refine { wrote with path_eq := ?_, place := ?_ }
  · rw [wrote.path_eq, List.cons_append]
  · rw [find?, found]
    exact wrote.place

/-- A write into a new object is a write into the object in which the new one stands. -/
theorem Wrote.around (within : i < h.length)
    (none : ∀ j, h.child? (.cell i) key ≠ some (.cell j))
    (wrote : Wrote (h.entered i key) h' (.cell h.length) (last :: below) v [] h.length last below e) :
    Wrote h h' (.cell i) (key :: last :: below) v [] i key (last :: below) (.cell h.length) := by
  have other : i ≠ h.length := Nat.ne_of_lt within
  have longer := h.length_entered i key
  have chained := wrote.changed
  rw [fields_entered_new other] at chained
  refine ⟨rfl, rfl, within, .inr none, ?_, ?_, h.length, e, rfl, chained, wrote.chain⟩
  · intro j inside apart
    rw [wrote.others j (by omega) (Nat.ne_of_lt inside), h.sameBut_entered i key j inside apart]
  · rw [wrote.others i (by omega) other, fields_entered_own within]

end Steps

/-- A write gives the last object on the way a value under one key. -/
theorem wrote_put (sound : h.Sound) (within : i < h.length) (nonempty : path ≠ []) (v : Slot) :
    ∃ way t key rest e, h.receiver (.cell i) path = (way, .cell t) ∧
      Wrote h (h.put i path v) (.cell i) path v way t key rest e := by
  induction path generalizing h i with
  | nil => exact False.elim (nonempty rfl)
  | cons key rest ih =>
    cases rest with
    | nil =>
      refine ⟨[], i, key, [], v, rfl, rfl, rfl, within, .inl rfl, ?_, ?_, rfl⟩
      · intro j _ other
        rw [put, fields_setField, if_neg fun same => other same.1.symm]
      · rw [put, fields_setField, if_pos ⟨rfl, within⟩]
    | cons next rest =>
      rcases h.exists_child_or (.cell i) key with ⟨j, found⟩ | none
      · have inside : j < h.length := sound.within_child found
        obtain ⟨way, t, last, below, e, receives, wrote⟩ :=
          ih sound inside (List.cons_ne_nil next rest)
        refine ⟨key :: way, t, last, below, e, ?_, ?_⟩
        · rw [receiver_old found, receives]
        · rw [put_old found]
          exact wrote.through found
      · rw [put_new h i next rest v none]
        have empty := fields_entered_new (Nat.ne_of_lt within) key
        have longer := h.length_entered i key
        have room : h.length < (h.entered i key).length := by omega
        obtain ⟨way, t, last, below, e, receives, wrote⟩ :=
          ih (sound.entered i key) room (List.cons_ne_nil next rest)
        -- The new object has no keys, so that it takes the write itself.
        rw [receiver_of_fields_nil empty] at receives
        obtain ⟨rfl, same⟩ := Prod.mk.inj receives
        obtain rfl : h.length = t := Slot.cell.inj same
        obtain ⟨rfl, rfl⟩ : next = last ∧ rest = below := by simpa using wrote.path_eq
        exact ⟨[], i, key, next :: rest, .cell h.length, receiver_new none next rest,
          wrote.around within none⟩

/-! ## Reading after a write -/

theorem Chain.find {e : Slot} {rest : List String} (chain : h.Chain e rest v)
    (tail : List String) : h.find? e (rest ++ tail) = h.find? v tail := by
  induction rest generalizing e with
  | nil =>
    obtain rfl : e = v := chain
    rfl
  | cons key rest ih =>
    obtain ⟨n, e', rfl, only, chain⟩ := chain
    have child : h.child? (.cell n) key = some e' := by
      rw [child?, only, Cell.lookup_cons, if_pos rfl]
    rw [List.cons_append, find?, child]
    exact ih chain

theorem Chain.find_parting {e : Slot} {way tail : List String} {a b : String} {below : List String}
    (chain : h.Chain e (way ++ a :: tail) v) (parts : b ≠ a) :
    h.find? e (way ++ b :: below) = none := by
  induction way generalizing e with
  | nil =>
    obtain ⟨n, e', rfl, only, _⟩ := chain
    have child : h.child? (.cell n) b = none := by
      rw [child?, only, Cell.lookup_cons, if_neg parts]
      rfl
    rw [List.nil_append, find?, child]
    rfl
  | cons key way ih =>
    obtain ⟨n, e', rfl, only, chain⟩ := chain
    have child : h.child? (.cell n) key = some e' := by
      rw [child?, only, Cell.lookup_cons, if_pos rfl]
    rw [List.cons_append, find?, child]
    exact ih chain

theorem find?_leaf (blocked : ∀ j, u ≠ .cell j) (key : String) (rest : List String) :
    h.find? u (key :: rest) = none := by
  cases u with
  | leaf v => rfl
  | cell j => exact False.elim (blocked j rfl)

namespace Wrote

variable {way rest : List String} {e : Slot}

theorem child_key (wrote : Wrote h h' u path v way t key rest e) :
    h'.child? (.cell t) key = some e := by
  rw [child?, wrote.changed, Cell.lookup_insert, if_pos rfl]

theorem child_other (wrote : Wrote h h' u path v way t key rest e) {k : String} (other : k ≠ key) :
    h'.child? (.cell t) k = h.child? (.cell t) k := by
  rw [child?, wrote.changed, Cell.lookup_insert, if_neg other]
  rfl

/-- The way to the changed object stays, where that object is met at the end of it only. -/
theorem find_way (wrote : Wrote h h' u path v way t key rest e) (sound : h.Sound)
    (within : h.Within u)
    (once : ∀ p, p <+: way → h.find? u p = some (.cell t) → p = way) :
    h'.find? u way = some (.cell t) := by
  rw [find?_of_sameBut wrote.others sound within, wrote.place]
  intro p k below split here
  have same := once p (split ▸ List.prefix_append p (k :: below)) here
  have lengths := congrArg List.length split
  rw [same, List.length_append, List.length_cons] at lengths
  omega

/-- At the end of the path stands the value that was written. -/
theorem find_beyond (wrote : Wrote h h' u path v way t key rest e) (sound : h.Sound)
    (within : h.Within u)
    (once : ∀ p, p <+: way → h.find? u p = some (.cell t) → p = way) (tail : List String) :
    h'.find? u (path ++ tail) = h'.find? v tail := by
  rw [wrote.path_eq, List.append_assoc, find?_append, wrote.find_way sound within once,
    List.cons_append, Option.bind_some, find?, wrote.child_key, Option.bind_some]
  exact wrote.chain.find tail

/-- From the changed object a path that parts from the one of the write leads where it led. -/
theorem find_parting (wrote : Wrote h h' u path v way t key rest e) (sound : h.Sound)
    {q : List String} (before : ¬q <+: key :: rest) (after : ¬key :: rest <+: q)
    (once : ∀ p, p ≠ [] → p <+: q → h.find? (.cell t) p ≠ some (.cell t)) :
    h'.find? (.cell t) q = h.find? (.cell t) q := by
  cases q with
  | nil => rfl
  | cons k q =>
    by_cases same : k = key
    · -- Below the key there is a chain now, and there was no object before.
      subst same
      rw [List.cons_prefix_cons] at before after
      obtain ⟨common, a, b, q', rest', rfl, rfl, parts⟩ :=
        exists_parting (fun h => before ⟨rfl, h⟩) (fun h => after ⟨rfl, h⟩)
      have blocked := wrote.blocked.resolve_left (by simp)
      have now : h'.find? (.cell t) (k :: (common ++ a :: q')) = none := by
        rw [find?, wrote.child_key, Option.bind_some]
        exact wrote.chain.find_parting parts
      have then_ : h.find? (.cell t) (k :: (common ++ a :: q')) = none := by
        rw [find?]
        cases found : h.child? (.cell t) k with
        | none => rfl
        | some w =>
          have leaf : ∀ j, w ≠ .cell j := fun j here => blocked j (here ▸ found)
          rw [Option.bind_some]
          cases common with
          | nil => exact find?_leaf leaf a q'
          | cons c common => exact find?_leaf leaf c _
      rw [now, then_]
    · rw [find?, find?, wrote.child_other same]
      cases found : h.child? (.cell t) k with
      | none => rfl
      | some w =>
        have inside : h.Within w := sound.within_child found
        apply find?_of_sameBut wrote.others sound inside
        intro p k' below split here
        apply once (k :: p) (List.cons_ne_nil k p)
        · rw [split]
          exact List.prefix_append (k :: p) (k' :: below)
        · rw [find?, found]
          exact here

/-- A path that parts from the one of the write leads where it led before. -/
theorem find_apart (wrote : Wrote h h' u path v way t key rest e) (sound : h.Sound)
    (within : h.Within u) {q : List String} (before : ¬q <+: path) (after : ¬path <+: q)
    (once : ∀ p, p <+: q → h.find? u p = some (.cell t) → p = way) :
    h'.find? u q = h.find? u q := by
  have path_eq := wrote.path_eq
  subst path_eq
  by_cases through : way <+: q
  · obtain ⟨q', rfl⟩ := through
    have own : ∀ p, p <+: way → h.find? u p = some (.cell t) → p = way :=
      fun p hp => once p (hp.trans (List.prefix_append way q'))
    rw [find?_append, find?_append, wrote.find_way sound within own, wrote.place]
    rw [List.prefix_append_right_inj] at before after
    apply wrote.find_parting sound before after
    intro p nonempty hp here
    apply nonempty
    have again : h.find? u (way ++ p) = some (.cell t) := by
      rw [find?_append, wrote.place]
      exact here
    have same := once (way ++ p) ((List.prefix_append_right_inj way).mpr hp) again
    exact List.append_right_eq_self.mp same
  · apply find?_of_sameBut wrote.others sound within
    intro p k below split here
    apply through
    rw [← once p (split ▸ List.prefix_append p (k :: below)) here, split]
    exact List.prefix_append p (k :: below)

end Wrote

end Heap
end Flowgraph
