import Flowgraph.Proofs.State.ReadAfterWrite

/-!
# Two writes

A write sets one entry, the value under a key of the last object on the way, and makes new
objects from there on. Two writes at places of which neither lies below the other leave both
values where they were put, as long as the entries that they set are passed on the two ways
at no other place: an object that stands at two places of the state is one object, and a
write at one of them is a write at both.
-/
namespace Flowgraph

namespace Heap

variable {h h' : Heap} {u v w s : Slot} {t i : Nat} {key : String} {path q : List String}

/-- The entry that a write at a path below `u` sets is passed on the way along `q` at its own
place only. -/
def PassesOnce (h : Heap) (u : Slot) (path q : List String) : Prop :=
  ∀ p key rest, q = p ++ key :: rest → (h.receiver u path).1 ++ [key] <+: path →
    h.find? u p = some (h.receiver u path).2 → p = (h.receiver u path).1

/-- A write as it is done: the object that takes it is the last one on the way, and the
objects of the chain are new, one after the other. -/
structure WroteAnew (h h' : Heap) (u : Slot) (path : List String) (v : Slot)
    (way : List String) (t : Nat) (key : String) (rest : List String) (e : Slot) : Prop
    extends Wrote h h' u path v way t key rest e where
  receives : h.receiver u path = (way, .cell t)
  new : ∀ m k below, rest = m ++ k :: below → h'.find? e m = some (.cell (h.length + m.length))

/-! ## New objects -/

/-- A write that has to enter a new object goes on from there, and the new object stays. -/
theorem find_put_entered (sound : h.Sound) (within : i < h.length)
    (none : ∀ j, h.child? (.cell i) key ≠ some (.cell j)) (nonempty : path ≠ []) (v : Slot)
    (m : List String) : (h.put i (key :: path) v).find? (.cell i) (key :: m) =
      ((h.entered i key).put h.length path v).find? (.cell h.length) m := by
  have other : i ≠ h.length := Nat.ne_of_lt within
  have longer := h.length_entered i key
  obtain ⟨way, t, last, rest, e, receives, wrote⟩ :=
    wrote_put (sound.entered i key) (by omega : h.length < (h.entered i key).length) nonempty v
  -- The new object has no keys, so that it takes the write and the one above it does not.
  rw [receiver_of_fields_nil (fields_entered_new other key)] at receives
  obtain rfl : h.length = t := Slot.cell.inj (Prod.mk.inj receives).2
  have child : ((h.entered i key).put h.length path v).child? (.cell i) key =
      some (.cell h.length) := by
    rw [child?, wrote.others i (by omega) other, fields_entered_own within, Cell.lookup_insert,
      if_pos rfl]
  obtain ⟨first, rest, rfl⟩ := List.exists_cons_of_ne_nil nonempty
  rw [put_new h i first rest v none, find?, child, Option.bind_some]

/-- What is put below the newest object, where that is empty, is put below new objects. -/
theorem find_put_blank (sound : h.Sound) (blank : h.fields i = []) (newest : i + 1 = h.length)
    (v : Slot) (m : List String) (k : String) (below : List String) :
    (h.put i (m ++ k :: below) v).find? (.cell i) m = some (.cell (i + m.length)) := by
  induction m generalizing h i with
  | nil => rfl
  | cons key m ih =>
    have within : i < h.length := by omega
    have longer := h.length_entered i key
    have none : ∀ j, h.child? (.cell i) key ≠ some (.cell j) := by
      intro j found
      rw [child?_of_fields_nil blank] at found
      cases found
    have more : m ++ k :: below ≠ [] :=
      List.append_ne_nil_of_right_ne_nil m (List.cons_ne_nil k below)
    rw [List.cons_append, find_put_entered sound within none more,
      ih (sound.entered i key) (fields_entered_new (Nat.ne_of_lt within) key) (by omega),
      List.length_cons]
    congr 2
    omega

/-- From the object that takes a write new objects lead on to the value. -/
theorem find_put_new (sound : h.Sound) (within : i < h.length) (v : Slot)
    {way m below : List String} {k : String} (path_eq : path = way ++ key :: (m ++ k :: below))
    (receives : h.receiver (.cell i) path = (way, .cell t)) :
    (h.put i path v).find? (.cell t) (key :: m) = some (.cell (h.length + m.length)) := by
  induction path generalizing i way with
  | nil => simp at path_eq
  | cons first path ih =>
    cases path with
    | nil =>
      have lengths := congrArg List.length path_eq
      simp at lengths
      omega
    | cons next rest =>
      rcases h.exists_child_or (.cell i) first with ⟨j, found⟩ | none
      · rw [receiver_old found] at receives
        obtain ⟨rfl, last⟩ := Prod.mk.inj receives
        obtain ⟨_, path_eq⟩ := List.cons.inj path_eq
        rw [put_old found]
        exact ih (sound.within_child found) path_eq (Prod.ext rfl last)
      · rw [receiver_new none] at receives
        obtain ⟨rfl, same⟩ := Prod.mk.inj receives
        obtain rfl := Slot.cell.inj same
        obtain ⟨rfl, split⟩ := List.cons.inj path_eq
        have longer := h.length_entered i first
        rw [find_put_entered sound within none (List.cons_ne_nil next rest), split]
        exact find_put_blank (sound.entered i first)
          (fields_entered_new (Nat.ne_of_lt within) first) (by omega) v m k below

theorem wroteAnew_put (sound : h.Sound) (within : i < h.length) (nonempty : path ≠ [])
    (v : Slot) : ∃ way t key rest e,
      WroteAnew h (h.put i path v) (.cell i) path v way t key rest e := by
  obtain ⟨way, t, key, rest, e, receives, wrote⟩ := wrote_put sound within nonempty v
  refine ⟨way, t, key, rest, e, wrote, receives, ?_⟩
  intro m k below split
  have found := find_put_new sound within v (split ▸ wrote.path_eq) receives
  rwa [find?, wrote.child_key] at found

/-- The last object on a way is the one from which the path leads to no further object. -/
theorem receiver_eq {way rest : List String} (place : h.find? u way = some (.cell t))
    (blocked : rest = [] ∨ ∀ j, h.child? (.cell t) key ≠ some (.cell j)) :
    h.receiver u (way ++ key :: rest) = (way, .cell t) := by
  induction way generalizing u with
  | nil =>
    obtain rfl : u = .cell t := Option.some.inj place
    cases rest with
    | nil => rfl
    | cons next rest =>
      exact receiver_new (blocked.resolve_left (List.cons_ne_nil next rest)) next rest
  | cons first way ih =>
    obtain ⟨x, child, place⟩ := Option.bind_eq_some_iff.mp place
    obtain ⟨next, more, split⟩ := List.exists_cons_of_ne_nil
      (List.append_ne_nil_of_right_ne_nil way (List.cons_ne_nil key rest))
    have on := ih place
    -- What lies on the way to an object is an object.
    obtain ⟨j, rfl⟩ : ∃ j, x = .cell j := by
      cases x with
      | cell j => exact ⟨j, rfl⟩
      | leaf x =>
        cases way with
        | nil => cases place
        | cons => cases place
    rw [split] at on
    rw [List.cons_append, split, receiver_old child, on]

/-! ## Reading after one write -/

/-- A path that is not led over the entry that was set leads where it led. -/
theorem Wrote.find_unused {way rest : List String} {e : Slot}
    (wrote : Wrote h h' u path v way t key rest e) (sound : h.Sound) (within : h.Within s)
    (unused : ∀ p below, q = p ++ key :: below → h.find? s p ≠ some (.cell t)) :
    h'.find? s q = h.find? s q := by
  induction q generalizing s with
  | nil => rfl
  | cons k q ih =>
    have child : h'.child? s k = h.child? s k := by
      cases s with
      | leaf x => rfl
      | cell i =>
        by_cases changed : i = t
        · subst changed
          refine wrote.child_other ?_
          rintro rfl
          exact unused [] q rfl rfl
        · simp only [child?, wrote.others i within changed]
    rw [find?, find?, child]
    cases found : h.child? s k with
    | none => rfl
    | some x =>
      refine ih (sound.within_child found) fun p below split here => ?_
      refine unused (k :: p) below (by rw [split, List.cons_append]) ?_
      rw [find?, found]
      exact here

namespace WroteAnew

variable {way rest : List String} {e : Slot}

/-- Before the entry that was set, a path leads where it led. -/
theorem find_before (wrote : WroteAnew h h' u path v way t key rest e) (sound : h.Sound)
    (within : h.Within u) (once : h.PassesOnce u path q) {p : List String} (onWay : p <+: q)
    (before : ¬way ++ [key] <+: p) : h'.find? u p = h.find? u p := by
  refine wrote.find_unused sound within fun a below split here => before ?_
  obtain ⟨more, rfl⟩ := onWay
  have own : a = way := by
    have passed := once a key (below ++ more) (by rw [split]; simp)
    rw [wrote.receives, wrote.path_eq] at passed
    exact passed (by simp) here
  rw [split, own]
  simp

theorem find_place (wrote : WroteAnew h h' u path v way t key rest e) (sound : h.Sound)
    (within : h.Within u) (once : h.PassesOnce u path path) :
    h'.find? u (way ++ [key]) = some e := by
  have onWay : way <+: path := wrote.path_eq ▸ List.prefix_append way (key :: rest)
  have before : ¬way ++ [key] <+: way := fun longer => by simpa using longer.length_le
  rw [find?_append, wrote.find_before sound within once onWay before, wrote.place,
    Option.bind_some, find?, wrote.child_key]
  rfl

theorem find_value (wrote : WroteAnew h h' u path v way t key rest e) (sound : h.Sound)
    (within : h.Within u) (once : h.PassesOnce u path path) : h'.find? u path = some v := by
  have whole : path = way ++ [key] ++ rest := by rw [wrote.path_eq]; simp
  have chain := wrote.chain.find []
  rw [List.append_nil] at chain
  rw [whole, find?_append, wrote.find_place sound within once, Option.bind_some, chain]
  rfl

/-- Between the entry and the value stand new objects. -/
theorem find_between (wrote : WroteAnew h h' u path v way t key rest e) (sound : h.Sound)
    (within : h.Within u) (once : h.PassesOnce u path path) {m below : List String} {k : String}
    (split : rest = m ++ k :: below) :
    h'.find? u (way ++ [key] ++ m) = some (.cell (h.length + m.length)) := by
  rw [find?_append, wrote.find_place sound within once, Option.bind_some,
    wrote.new m k below split]

/-- Nothing stands where a path leaves the new objects before the value. -/
theorem find_parted (wrote : WroteAnew h h' u path v way t key rest e) (sound : h.Sound)
    (within : h.Within u) (once : h.PassesOnce u path path) {m : List String}
    (before : ¬m <+: rest) (after : ¬rest <+: m) :
    h'.find? u (way ++ [key] ++ m) = none := by
  obtain ⟨common, a, b, m', rest', rfl, rfl, parts⟩ := exists_parting before after
  rw [find?_append, wrote.find_place sound within once, Option.bind_some]
  exact wrote.chain.find_parting parts

/-- An object that is met after the write on a way that does not pass the value is an old
one before the entry, or a new one behind it. -/
theorem met (wrote : WroteAnew h h' u path v way t key rest e) (sound : h.Sound)
    (within : h.Within u) (own : h.PassesOnce u path path) (once : h.PassesOnce u path q)
    {p : List String} {x : Nat} (onWay : p <+: q) (short : ¬path <+: p)
    (here : h'.find? u p = some (.cell x)) :
    (¬way ++ [key] <+: p ∧ h.find? u p = some (.cell x)) ∨
      ∃ m, p = way ++ [key] ++ m ∧ x = h.length + m.length ∧ p <+: path := by
  by_cases before : way ++ [key] <+: p
  · obtain ⟨m, rfl⟩ := before
    have path_eq : path = way ++ [key] ++ rest := by rw [wrote.path_eq]; simp
    rw [path_eq, List.prefix_append_right_inj] at short
    by_cases along : m <+: rest
    · obtain ⟨below, split⟩ := along
      cases below with
      | nil =>
        rw [List.append_nil] at split
        exact False.elim (short (split ▸ List.prefix_refl m))
      | cons k below =>
        rw [wrote.find_between sound within own split.symm] at here
        refine .inr ⟨m, rfl, (Slot.cell.inj (Option.some.inj here)).symm, ?_⟩
        rw [path_eq, ← split, List.prefix_append_right_inj]
        exact List.prefix_append m (k :: below)
    · rw [wrote.find_parted sound within own along short] at here
      cases here
  · rw [wrote.find_before sound within once onWay before] at here
    exact .inl ⟨before, here⟩

/-- What stands at a place that a write neither leads to nor passes stays there. -/
theorem find_other (wrote : WroteAnew h h' u path v way t key rest e) (sound : h.Sound)
    (within : h.Within u) (there : h.find? u q = some w) (before : ¬q <+: path)
    (after : ¬path <+: q) (once : h.PassesOnce u path q) : h'.find? u q = some w := by
  rw [wrote.find_before sound within once (List.prefix_refl q), there]
  rintro ⟨below, through⟩
  have path_eq : path = way ++ [key] ++ rest := by rw [wrote.path_eq]; simp
  rcases wrote.blocked with rfl | blocked
  · rw [path_eq, List.append_nil] at after
    exact after ⟨below, through⟩
  · cases below with
    | nil =>
      rw [List.append_nil] at through
      exact before (path_eq ▸ through ▸ List.prefix_append _ rest)
    | cons k below =>
      -- Something is found below the entry, so that an object stands there.
      rw [← through, List.append_assoc, find?_append, wrote.place, Option.bind_some,
        List.singleton_append, find?] at there
      obtain ⟨x, child, there⟩ := Option.bind_eq_some_iff.mp there
      cases x with
      | leaf x => cases there
      | cell j => exact blocked j child

end WroteAnew

/-! ## Reading after two writes -/

section Two

variable {h₁ h₂ : Heap} {way₁ way₂ rest₁ rest₂ : List String} {t₁ t₂ : Nat} {key₁ key₂ : String}
  {e₁ e₂ : Slot}

/-- The object that takes the second write takes it, too, where the first one is not done,
if it was there. -/
theorem WroteAnew.receiver_before (first : WroteAnew h h₁ u path v way₁ t₁ key₁ rest₁ e₁)
    (second : Wrote h₁ h₂ u q w way₂ t₂ key₂ rest₂ e₂) (sound : h.Sound) (within : h.Within u)
    (before : ¬path <+: q) (own : h.PassesOnce u path path) (once : h.PassesOnce u path q)
    (old : ¬way₁ ++ [key₁] <+: way₂) (place : h.find? u way₂ = some (.cell t₂)) :
    h.receiver u q = (way₂, .cell t₂) := by
  have onward (g : Heap) (place : g.find? u way₂ = some (.cell t₂)) :
      g.find? u (way₂ ++ [key₂]) = g.child? (.cell t₂) key₂ := by
    rw [find?_append, place, Option.bind_some, find?]
    cases g.child? (.cell t₂) key₂ <;> rfl
  have q_eq : q = way₂ ++ [key₂] ++ rest₂ := by rw [second.path_eq]; simp
  have onWay : way₂ ++ [key₂] <+: q := q_eq ▸ List.prefix_append _ rest₂
  rw [second.path_eq]
  refine receiver_eq place (second.blocked.imp_right fun blocked j found => ?_)
  by_cases through : way₁ ++ [key₁] <+: way₂ ++ [key₂]
  · -- Both writes set the same entry, so that the first one has put a new object there.
    obtain same : way₁ ++ [key₁] = way₂ ++ [key₂] := by
      refine through.eq_of_length_le ?_
      by_contra shorter
      refine old (List.prefix_of_prefix_length_le through (List.prefix_append way₂ [key₂]) ?_)
      simp only [List.length_append, List.length_singleton] at shorter ⊢
      omega
    have path_eq : path = way₂ ++ [key₂] ++ rest₁ := by rw [← same, first.path_eq]; simp
    cases rest₁ with
    | nil =>
      rw [path_eq, List.append_nil] at before
      exact before onWay
    | cons k below =>
      have new := first.find_between sound within own (m := []) rfl
      rw [List.append_nil, same, onward h₁ second.place] at new
      exact blocked _ new
  · have kept := first.find_before sound within once onWay through
    rw [onward h₁ second.place, onward h place, found] at kept
    exact blocked j kept

/-- The entry that the second write sets is passed once after the first write, too. -/
theorem WroteAnew.passesOnce (first : WroteAnew h h₁ u path v way₁ t₁ key₁ rest₁ e₁)
    (second : WroteAnew h₁ h₂ u q w way₂ t₂ key₂ rest₂ e₂) (sound : h.Sound) (within : h.Within u)
    (before : ¬path <+: q) (own : h.PassesOnce u path path) (once : h.PassesOnce u path q)
    {r : List String} (other : r = path ∨ r = q) (single : h.PassesOnce u q r) :
    h₁.PassesOnce u q r := by
  intro p k below split onward here
  rw [second.receives] at onward here ⊢
  have toRest : h.PassesOnce u path r := by rcases other with rfl | rfl <;> assumption
  have short : ¬path <+: p := by
    intro longer
    rcases other with rfl | rfl
    · have lengths := longer.length_le
      rw [split, List.length_append, List.length_cons] at lengths
      omega
    · exact before (longer.trans (split ▸ List.prefix_append p (k :: below)))
  have along : way₂ <+: q := (List.prefix_append way₂ [k]).trans onward
  have seen := first.met sound within own toRest (split ▸ List.prefix_append p (k :: below))
    short here
  have seen' := first.met sound within own once along (fun longer => before (longer.trans along))
    second.place
  rcases seen with ⟨_, old⟩ | ⟨m, rfl, new, _⟩
  · rcases seen' with ⟨early, old'⟩ | ⟨m', rfl, new', _⟩
    · have receives := first.receiver_before second.toWrote sound within before own once early old'
      have passed := single p k below split
      rw [receives] at passed
      exact passed onward old
    · have inside : t₂ < h.length := sound.within_find within old
      omega
  · rcases seen' with ⟨_, old'⟩ | ⟨m', rfl, new', inPath⟩
    · have inside : t₂ < h.length := sound.within_find within old'
      omega
    · rename_i inPath'
      refine (List.prefix_of_prefix_length_le inPath' inPath ?_).eq_of_length ?_ <;>
        simp only [List.length_append] <;> omega

end Two

/-- Two values that are put at places of which neither lies below the other both stay. -/
theorem find_put_put (sound : h.Sound) (within : i < h.length) (kept : h.Within v)
    (nonempty : path ≠ []) (nonempty' : q ≠ []) (before : ¬path <+: q) (after : ¬q <+: path)
    (once : h.PassesOnce (.cell i) path path ∧ h.PassesOnce (.cell i) path q ∧
      h.PassesOnce (.cell i) q path ∧ h.PassesOnce (.cell i) q q) :
    ((h.put i path v).put i q w).find? (.cell i) path = some v ∧
      ((h.put i path v).put i q w).find? (.cell i) q = some w := by
  obtain ⟨sound₁, longer⟩ := sound.put kept i path
  have within₁ : i < (h.put i path v).length := Nat.lt_of_lt_of_le within longer
  obtain ⟨way₁, t₁, key₁, rest₁, e₁, first⟩ := wroteAnew_put sound within nonempty v
  obtain ⟨way₂, t₂, key₂, rest₂, e₂, second⟩ := wroteAnew_put sound₁ within₁ nonempty' w
  obtain ⟨own, once, crossing, own'⟩ := once
  have toFirst := first.passesOnce second sound within before own once (.inl rfl) crossing
  have toSecond := first.passesOnce second sound within before own once (.inr rfl) own'
  have value := first.find_value sound within own
  exact ⟨second.find_other sound₁ within₁ value before after toFirst,
    second.find_value sound₁ within₁ toSecond⟩

end Heap

namespace Store

variable {s : Store} {q r : StateRef} {v w : Slot}

/-- The entry that a write at `r` sets is passed on the way to `q`, in the same namespace, at
its own place only. -/
def PassesOnce (s : Store) (r q : StateRef) : Prop :=
  s.heap.PassesOnce (s.root r.space) r.path q.path

theorem get?_put_put (sound : s.Sound) (kept : s.heap.Within v) (same : r.space = q.space)
    (writes : q.space.readOnly = false) (nonempty : q.path ≠ []) (nonempty' : r.path ≠ [])
    (before : ¬q.path <+: r.path) (after : ¬r.path <+: q.path)
    (once : ∀ a ∈ [q, r], ∀ b ∈ [q, r], s.PassesOnce a b) :
    ∃ s₁ s₂, s.write q v = .ok s₁ ∧ s₁.write r w = .ok s₂ ∧
      s₂.get? q = some v ∧ s₂.get? r = some w := by
  obtain ⟨i, root, written⟩ := exists_write (s := s) writes v
  obtain ⟨j, root', written'⟩ :=
    exists_write (s := { s with heap := s.heap.put i q.path v }) (r := r) (same ▸ writes) w
  obtain rfl : i = j := by
    rw [same, root_with_heap, root] at root'
    exact Slot.cell.inj root'
  have within : i < s.heap.length := by
    have inside := sound.within q.space
    rwa [root] at inside
  have passes : ∀ a ∈ [q, r], ∀ b ∈ [q, r], s.heap.PassesOnce (.cell i) a.path b.path := by
    intro a ha b hb
    have space : a.space = q.space := by
      rcases List.mem_pair.mp ha with here | here
      · exact congrArg StateRef.space here
      · exact here ▸ same
    have passed := once a ha b hb
    rwa [PassesOnce, space, root] at passed
  have both := Heap.find_put_put (w := w) sound.heap within kept nonempty nonempty' before after
    ⟨passes q (by simp) q (by simp), passes q (by simp) r (by simp),
      passes r (by simp) q (by simp), passes r (by simp) r (by simp)⟩
  refine ⟨_, _, written, written', ?_, ?_⟩
  · rw [get?, root_with_heap, root_with_heap, root]
    exact both.1
  · rw [get?, root_with_heap, root_with_heap, same, root]
    exact both.2

end Store
end Flowgraph
