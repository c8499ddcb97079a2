import Flowgraph.Proofs.Json.Proper
import Flowgraph.Proofs.State.Refs
import Flowgraph.Proofs.State.Writing

/-!
# Reading after a write

A write determines what is read afterwards at every reference. A reference that neither
leads to the place of the write nor passes it is read as before; one that leads on from
there is read within the value; an object on the way keeps all its other keys.

An object can stand at several places, and it is one object: a write into it is seen at all
of them. So the laws hold of a reference from which the object that takes the write is met
at its own place only.
-/
namespace Flowgraph

namespace Heap

mutual

/-- A value that is taken in is kept in new objects. -/
theorem Sound.store (v : Json) {h : Heap} (sound : h.Sound) (proper : v.Proper) :
    (h.store v).2.Sound ∧ h.length ≤ (h.store v).2.length ∧
      (h.store v).2.Within (h.store v).1 := by
  match v with
  | .obj fields =>
    obtain ⟨distinct, proper⟩ := proper
    obtain ⟨sound', longer, within, keys⟩ := Sound.storeFields fields sound proper
    have distinct' : ((h.storeFields fields).1.map (·.1)).Nodup := keys ▸ distinct
    refine ⟨sound'.append distinct' within, ?_, ?_⟩
    · rw [Heap.store, List.length_append]
      omega
    · simp [Heap.store, Within]
  | .null | .bool _ | .int _ | .float _ | .str _ | .arr _ =>
    exact ⟨sound, Nat.le_refl _, trivial⟩

theorem Sound.storeFields (fields : List (String × Json)) {h : Heap} (sound : h.Sound)
    (proper : Json.FieldsProper fields) :
    (h.storeFields fields).2.Sound ∧ h.length ≤ (h.storeFields fields).2.length ∧
      (∀ f ∈ (h.storeFields fields).1, (h.storeFields fields).2.Within f.2) ∧
      (h.storeFields fields).1.map (·.1) = fields.map (·.1) := by
  match fields with
  | [] => exact ⟨sound, Nat.le_refl _, fun _ hf => False.elim (List.not_mem_nil hf), rfl⟩
  | (k, v) :: rest =>
    obtain ⟨first, others⟩ := proper
    obtain ⟨sound₁, longer₁, within₁⟩ := Sound.store v sound first
    obtain ⟨sound₂, longer₂, within₂, keys⟩ := Sound.storeFields rest sound₁ others
    refine ⟨sound₂, longer₁.trans longer₂, ?_, ?_⟩
    · intro f hf
      rcases List.mem_cons.mp hf with rfl | hf
      · exact within₁.mono longer₂
      · exact within₂ f hf
    · rw [Heap.storeFields, List.map_cons, List.map_cons, keys]

end

/-- The objects of the namespaces that can be written, when a run begins. -/
theorem sound_blank : Sound [[], []] := by
  have none : Sound [] := by
    constructor
    · intro i
      exact List.nodup_nil
    · intro i f hf
      exact False.elim (List.not_mem_nil hf)
  exact none.grow.grow

end Heap

namespace StateRef

/-- A reference that leads on from the place of another one. -/
def below (r : StateRef) (tail : List String) : StateRef :=
  { r with path := r.path ++ tail }

theorem below_nil (r : StateRef) : r.below [] = r := by
  rw [below, List.append_nil]

end StateRef

namespace Store

/-- The objects of the state exist, and each has its keys once. -/
structure Sound (s : Store) : Prop where
  heap : s.heap.Sound
  within : ∀ space, s.heap.Within (s.root space)

/-- The states that come about: from the beginning of a run a value is taken into the heap,
or one from the heap is written, or a namespace is cleared. -/
inductive Arises : Store → Prop
  | start {input context : Json} : input.Proper → context.Proper → Arises (start input context)
  | store {s : Store} {v : Json} : Arises s → v.Proper →
      Arises { s with heap := (s.heap.store v).2 }
  | write {s s' : Store} {r : StateRef} {v : Slot} : Arises s → s.heap.Within v →
      s.write r v = .ok s' → Arises s'
  | clear {s s' : Store} {space : Namespace} : Arises s → s.clear space = .ok s' → Arises s'

/-- The last object on the way to a reference, and how far the way to it is. -/
def receiver (s : Store) (r : StateRef) : List String × Slot :=
  s.heap.receiver (s.root r.space) r.path

/-- On the way to `q`, and within what stands there, the object that takes a write at `r` is
met at its own place only. -/
def MeetsOnce (s : Store) (r q : StateRef) : Prop :=
  ∀ path, path <+: q.path ∨ q.path <+: path →
    s.heap.find? (s.root q.space) path = some (s.receiver r).2 →
      q.space = r.space ∧ path = (s.receiver r).1

/-- What stands under a key of the object at a reference. -/
def field? (s : Store) (q : StateRef) (k : String) : Option (Except Fault Json) :=
  ((s.get? q).bind fun u => s.heap.child? u k).map s.json

/-- What the state `s'` after a write of `v` at `r` answers at `q`, in terms of `v` and of the
state `s` before. -/
structure Determines (s s' : Store) (r : StateRef) (v : Slot) (q : StateRef) : Prop where
  apart : q.space ≠ r.space ∨ ¬q.path <+: r.path ∧ ¬r.path <+: q.path →
    (∀ d, s'.read q d = s.read q d) ∧ s'.has q = s.has q
  beyond : (∀ path, s.heap.find? v path ≠ some (s.receiver r).2) →
    ∀ tail, q = r.below tail →
      (∀ d, s'.read q d =
        match s.heap.find? v tail with
        | some u => s.json u
        | none => .ok d) ∧
      s'.has q = (s.heap.find? v tail).isSome
  own : q = r → s'.get? q = some v ∧ s'.has q = true
  above : ∀ key rest, q.space = r.space → r.path = q.path ++ key :: rest →
    ∃ i, s'.get? q = some (.cell i) ∧ ∀ k, k ≠ key → s'.field? q k = s.field? q k

variable {s s' : Store} {r q : StateRef} {v : Slot}

/-! ## The states that come about -/

theorem exists_write (writes : r.space.readOnly = false) (v : Slot) :
    ∃ i, s.root r.space = .cell i ∧ s.write r v = .ok { s with heap := s.heap.put i r.path v } := by
  obtain ⟨space, path⟩ := r
  cases space with
  | vars => exact ⟨s.vars, rfl, rfl⟩
  | tmp => exact ⟨s.tmp, rfl, rfl⟩
  | ctx => cases writes
  | input => cases writes

theorem root_with_heap (s : Store) (h : Heap) (space : Namespace) :
    { s with heap := h }.root space = s.root space := by
  cases space <;> rfl

theorem Sound.with_heap (sound : s.Sound) {h : Heap} (sound' : h.Sound)
    (longer : s.heap.length ≤ h.length) : { s with heap := h }.Sound := by
  refine ⟨sound', fun space => ?_⟩
  rw [root_with_heap]
  exact (sound.within space).mono longer

theorem readOnly_of_write (wrote : s.write r v = .ok s') : r.space.readOnly = false := by
  obtain ⟨space, path⟩ := r
  cases space with
  | vars => rfl
  | tmp => rfl
  | ctx => cases wrote
  | input => cases wrote

theorem Sound.write (sound : s.Sound) (within : s.heap.Within v)
    (wrote : s.write r v = .ok s') : s'.Sound := by
  obtain ⟨i, _, same⟩ := exists_write (s := s) (readOnly_of_write wrote) v
  obtain rfl := Except.ok.inj (wrote.symm.trans same)
  obtain ⟨sound', longer⟩ := sound.heap.put within i r.path
  exact sound.with_heap sound' longer

/-- A namespace that is cleared gets a new object, and the others keep theirs. -/
theorem exists_clear {space : Namespace} (cleared : s.clear space = .ok s') :
    space.readOnly = false ∧ s'.heap = s.heap ++ [[]] ∧ s'.root space = .cell s.heap.length ∧
      ∀ other, other ≠ space → s'.root other = s.root other := by
  cases space with
  | vars =>
    obtain rfl := Except.ok.inj cleared
    refine ⟨rfl, rfl, rfl, fun other apart => ?_⟩
    cases other <;> first | rfl | exact False.elim (apart rfl)
  | tmp =>
    obtain rfl := Except.ok.inj cleared
    refine ⟨rfl, rfl, rfl, fun other apart => ?_⟩
    cases other <;> first | rfl | exact False.elim (apart rfl)
  | ctx => cases cleared
  | input => cases cleared

theorem Sound.clear (sound : s.Sound) {space : Namespace} (cleared : s.clear space = .ok s') :
    s'.Sound := by
  obtain ⟨_, heap, own, others⟩ := exists_clear cleared
  have longer : s.heap.length ≤ (s.heap ++ [[]] : Heap).length := by simp
  constructor
  · rw [heap]
    exact sound.heap.grow
  · intro other
    rw [heap]
    by_cases same : other = space
    · rw [same, own]
      exact s.heap.within_append []
    · rw [others other same]
      exact (sound.within other).mono longer

theorem proper_objectIfAbsent {v : Json} (proper : v.Proper) : (objectIfAbsent v).Proper := by
  unfold objectIfAbsent
  split
  · exact proper
  · exact ⟨List.nodup_nil, trivial⟩

theorem Sound.start {input context : Json} (hi : input.Proper) (hc : context.Proper) :
    (start input context).Sound := by
  obtain ⟨sound₁, longer₁, within₁⟩ := Heap.sound_blank.store _ (proper_objectIfAbsent hc)
  obtain ⟨sound₂, longer₂, within₂⟩ := sound₁.store _ (proper_objectIfAbsent hi)
  have two : 2 ≤ (Store.start input context).heap.length := longer₁.trans longer₂
  refine ⟨sound₂, fun space => ?_⟩
  cases space with
  | vars => exact Nat.lt_of_lt_of_le Nat.zero_lt_two two
  | tmp => exact Nat.lt_of_lt_of_le Nat.one_lt_two two
  | ctx => exact within₁.mono longer₂
  | input => exact within₂

theorem Arises.sound (arises : s.Arises) : s.Sound := by
  induction arises with
  | start hi hc => exact Sound.start hi hc
  | store _ proper ih =>
    obtain ⟨sound', longer, _⟩ := ih.heap.store _ proper
    exact ih.with_heap sound' longer
  | write _ within wrote ih => exact ih.write within wrote
  | clear _ cleared ih => exact ih.clear cleared

/-! ## One write -/

theorem get?_below (s : Store) (q : StateRef) (tail : List String) :
    s.get? (q.below tail) = (s.get? q).bind fun u => s.heap.find? u tail :=
  s.heap.find?_append _ q.path tail

theorem field?_eq (s : Store) (q : StateRef) (k : String) :
    s.field? q k = (s.get? (q.below [k])).map s.json := by
  rw [get?_below, field?]
  cases s.get? q with
  | none => rfl
  | some u =>
    simp only [Option.bind_some, Heap.find?]
    cases s.heap.child? u k <;> rfl

theorem MeetsOnce.below (once : s.MeetsOnce r q) (k : String) : s.MeetsOnce r (q.below [k]) := by
  intro path near here
  refine once path ?_ here
  rcases near with before | after
  · exact List.prefix_or_prefix_of_prefix before (List.prefix_append q.path [k])
  · exact .inr ((List.prefix_append q.path [k]).trans after)

/-- Two states in which the same stands at a reference, and is seen as the same. -/
theorem reads_same (found : s'.get? q = s.get? q)
    (seen : ∀ u, s.get? q = some u → s'.json u = s.json u) :
    (∀ d, s'.read q d = s.read q d) ∧ s'.has q = s.has q := by
  constructor
  · intro d
    rw [read, read, found]
    cases here : s.get? q with
    | none => rfl
    | some u => exact seen u here
  · rw [has, has, found]

/-- What a write at `r` does to the heap, with all that later reads need of it. -/
structure Writes (s s' : Store) (r : StateRef) (v : Slot) (t : Nat) : Prop where
  before : s.Sound
  after : s'.Sound
  roots : ∀ space, s'.root space = s.root space
  longer : s.heap.length ≤ s'.heap.length
  value : s.heap.Within v
  receives : (s.receiver r).2 = .cell t
  wrote : ∃ key rest e, Heap.Wrote s.heap s'.heap (s.root r.space) r.path v (s.receiver r).1 t
    key rest e

theorem exists_writes (sound : s.Sound) (within : s.heap.Within v)
    (writes : r.space.readOnly = false) (nonempty : r.path ≠ []) :
    ∃ s' t, s.write r v = .ok s' ∧ Writes s s' r v t := by
  obtain ⟨i, root, written⟩ := exists_write (s := s) writes v
  have inside : i < s.heap.length := by
    have kept := sound.within r.space
    rw [root] at kept
    exact kept
  obtain ⟨way, t, key, rest, e, receives, wrote⟩ := Heap.wrote_put sound.heap inside nonempty v
  have receives : s.receiver r = (way, .cell t) := by rw [receiver, root, receives]
  refine ⟨_, t, written, sound, sound.write within written, root_with_heap s _,
    (sound.heap.put within i r.path).2, within, congrArg Prod.snd receives, key, rest, e, ?_⟩
  rw [root, receives]
  exact wrote

namespace Writes

variable {t : Nat}

theorem sameBut (writes : Writes s s' r v t) : Heap.SameBut t s.heap s'.heap := by
  obtain ⟨key, rest, e, wrote⟩ := writes.wrote
  exact wrote.others

theorem way_prefix (writes : Writes s s' r v t) : (s.receiver r).1 <+: r.path := by
  obtain ⟨key, rest, e, wrote⟩ := writes.wrote
  rw [wrote.path_eq]
  exact List.prefix_append _ _

/-- A value that does not contain the object that takes the write is seen as before. -/
theorem json_eq (writes : Writes s s' r v t) {u : Slot} (within : s.heap.Within u)
    (avoids : s.heap.Avoids u t) : s'.json u = s.json u := by
  rw [json, json, Heap.json?_of_sameBut writes.sameBut writes.before.heap writes.after.heap
    writes.longer within avoids]

/-- At a reference that neither leads to the place of the write nor passes it, the same
stands as before and is seen as the same. -/
theorem same_apart (writes : Writes s s' r v t) (once : s.MeetsOnce r q)
    (apart : q.space ≠ r.space ∨ ¬q.path <+: r.path ∧ ¬r.path <+: q.path) :
    s'.get? q = s.get? q ∧ ∀ u, s.get? q = some u → s'.json u = s.json u := by
  have root := writes.before.within q.space
  constructor
  · rw [get?, get?, writes.roots]
    by_cases space : q.space = r.space
    · obtain ⟨before, after⟩ := apart.resolve_left fun elsewhere => elsewhere space
      obtain ⟨key, rest, e, wrote⟩ := writes.wrote
      rw [space]
      apply wrote.find_apart writes.before.heap (space ▸ root) before after
      intro path near here
      rw [← writes.receives, ← space] at here
      exact (once path (.inl near) here).2
    · apply Heap.find?_of_sameBut writes.sameBut writes.before.heap root
      intro path key rest split here
      have near : path <+: q.path := split ▸ List.prefix_append path (key :: rest)
      rw [← writes.receives] at here
      exact space (once path (.inl near) here).1
  · intro u found
    apply writes.json_eq (writes.before.heap.within_find root found)
    intro path here
    have whole : s.heap.find? (s.root q.space) (q.path ++ path) = some (s.receiver r).2 := by
      rw [Heap.find?_append]
      rw [get?] at found
      rw [found, writes.receives]
      exact here
    obtain ⟨space, way⟩ := once _ (.inr (List.prefix_append q.path path)) whole
    rcases apart with elsewhere | ⟨before, _⟩
    · exact elsewhere space
    · apply before
      have onWay : q.path <+: (s.receiver r).1 := way ▸ List.prefix_append q.path path
      exact onWay.trans writes.way_prefix

/-- At and below the place of the write stands what stands in the value. -/
theorem get?_beyond (writes : Writes s s' r v t) (once : s.MeetsOnce r q)
    (space : q.space = r.space) (near : q.path <+: r.path ∨ r.path <+: q.path)
    (tail : List String) : s'.get? (r.below tail) = s'.heap.find? v tail := by
  obtain ⟨key, rest, e, wrote⟩ := writes.wrote
  rw [get?, writes.roots]
  apply wrote.find_beyond writes.before.heap (writes.before.within r.space)
  intro path onWay here
  have inR : path <+: r.path := onWay.trans writes.way_prefix
  have inQ : path <+: q.path ∨ q.path <+: path := by
    rcases near with before | after
    · exact List.prefix_or_prefix_of_prefix inR before
    · exact .inl (inR.trans after)
  rw [← writes.receives, ← space] at here
  exact (once path inQ here).2

theorem determines (writes : Writes s s' r v t) (once : s.MeetsOnce r q) :
    Determines s s' r v q := by
  constructor
  · intro apart
    obtain ⟨found, seen⟩ := writes.same_apart once apart
    exact reads_same found seen
  · rintro clear tail rfl
    have avoids : s.heap.Avoids v t := by
      intro path
      rw [← writes.receives]
      exact clear path
    have found : s'.get? (r.below tail) = s.heap.find? v tail := by
      rw [writes.get?_beyond once rfl (.inr (List.prefix_append r.path tail))]
      apply Heap.find?_of_sameBut writes.sameBut writes.before.heap writes.value
      intro path key rest _
      exact avoids path
    constructor
    · intro d
      rw [read, found]
      cases here : s.heap.find? v tail with
      | none => rfl
      | some u =>
        apply writes.json_eq (writes.before.heap.within_find writes.value here)
        intro path below
        apply avoids (tail ++ path)
        rw [Heap.find?_append, here]
        exact below
    · rw [has, found]
  · rintro rfl
    have there := writes.get?_beyond once rfl (.inl (List.prefix_refl q.path)) []
    rw [StateRef.below_nil] at there
    exact ⟨there, by rw [has, there]; rfl⟩
  · intro key rest space longer
    have near : q.path <+: r.path := longer ▸ List.prefix_append q.path (key :: rest)
    have onward : r = q.below (key :: rest) := by
      rw [StateRef.below, space, ← longer]
    -- Something stands further on, so that what stands at the reference is an object.
    have there := writes.get?_beyond once space (.inl near) []
    rw [StateRef.below_nil, onward, get?_below] at there
    obtain ⟨u, here, there⟩ := Option.bind_eq_some_iff.mp there
    obtain ⟨w, child, _⟩ := Option.bind_eq_some_iff.mp there
    obtain ⟨i, rfl⟩ : ∃ i, u = .cell i := by
      cases u with
      | leaf v => cases child
      | cell i => exact ⟨i, rfl⟩
    refine ⟨i, here, ?_⟩
    intro k other
    have parts : ¬q.path ++ [k] <+: r.path ∧ ¬r.path <+: q.path ++ [k] := by
      rw [longer, List.prefix_append_right_inj, List.prefix_append_right_inj,
        List.cons_prefix_cons, List.cons_prefix_cons]
      exact ⟨fun same => other same.1, fun same => other same.1.symm⟩
    obtain ⟨found, seen⟩ := writes.same_apart (once.below k) (.inr parts)
    rw [field?_eq, field?_eq, found]
    cases kept : s.get? (q.below [k]) with
    | none => rfl
    | some u => exact congrArg some (seen u kept)

end Writes

/-- After a write, what is read at a reference follows from the value that was written and
from what was read before. -/
theorem read_after_write {ref : Json} (parsed : StateRef.read ref = .ok r)
    (writes : r.space.readOnly = false) (sound : s.Sound) (within : s.heap.Within v) :
    ∃ s', s.write r v = .ok s' ∧ s'.Sound ∧ ∀ q, s.MeetsOnce r q → Determines s s' r v q := by
  have nonempty := StateRef.path_ne_nil_of_read parsed
  obtain ⟨s', t, written, writes⟩ := exists_writes sound within writes nonempty
  exact ⟨s', written, writes.after, fun q once => writes.determines once⟩

/-- The number 5 at `$vars.b` beside an object at `$vars.a`. -/
def numberAndObject : Store where
  heap := [[("a", .cell 4), ("b", .leaf (.int 5))], [], [], [], [("y", .leaf (.int 1))]]
  vars := 0
  tmp := 1
  ctx := .cell 2
  input := .cell 3

theorem numberAndObject_arises : numberAndObject.Arises := by
  have start : (start .null .null).Arises := .start trivial trivial
  have taken := start.store (v := .obj [("y", .int 1)]) ⟨by decide, trivial, trivial⟩
  have object := taken.write (r := ⟨.vars, ["a"]⟩) (v := .cell 4) (Nat.lt_succ_self 4) rfl
  exact object.write (r := ⟨.vars, ["b"]⟩) (v := .leaf (.int 5)) trivial rfl

/-- A number gives place to an object in which null is kept. -/
theorem number_replaced :
    StateRef.read (.str "$vars.b.c") = .ok ⟨.vars, ["b", "c"]⟩ ∧
    Namespace.vars.readOnly = false ∧ numberAndObject.Sound ∧
    numberAndObject.heap.Within (.leaf .null) ∧
    ∃ s', numberAndObject.write ⟨.vars, ["b", "c"]⟩ (.leaf .null) = .ok s' ∧ s'.Sound ∧
      ∀ q, q.space = .vars →
        Determines numberAndObject s' ⟨.vars, ["b", "c"]⟩ (.leaf .null) q := by
  have parsed : StateRef.read (.str "$vars.b.c") = .ok ⟨.vars, ["b", "c"]⟩ := by decide
  have sound := numberAndObject_arises.sound
  obtain ⟨s', written, sound', determined⟩ :=
    read_after_write (v := .leaf .null) parsed rfl sound trivial
  refine ⟨parsed, rfl, sound, trivial, s', written, sound', ?_⟩
  rintro ⟨space, path⟩ rfl
  apply determined
  intro path' _ here
  refine ⟨rfl, ?_⟩
  by_contra further
  have seen : ∃ v, numberAndObject.heap.view 3 (.cell 0) = some v := ⟨_, rfl⟩
  obtain ⟨v, seen⟩ := seen
  exact Heap.not_within_itself seen further here

/-- One object at `$vars.a` and at `$vars.b`. -/
def sharedObject : Store where
  heap := [[("a", .cell 4), ("b", .cell 4)], [], [], [], [("y", .leaf (.int 1))]]
  vars := 0
  tmp := 1
  ctx := .cell 2
  input := .cell 3

/-- A write into an object that stands at two places is seen at the other place. -/
theorem shared_object_changes : sharedObject.Arises ∧
    StateRef.read (.str "$vars.b.y") = .ok ⟨.vars, ["b", "y"]⟩ ∧
    StateRef.read (.str "$vars.a.y") = .ok ⟨.vars, ["a", "y"]⟩ ∧
    ¬["a", "y"] <+: ["b", "y"] ∧ ¬["b", "y"] <+: ["a", "y"] ∧
    ∃ s', sharedObject.write ⟨.vars, ["b", "y"]⟩ (.leaf (.int 2)) = .ok s' ∧
      s'.read ⟨.vars, ["a", "y"]⟩ .null ≠ sharedObject.read ⟨.vars, ["a", "y"]⟩ .null := by
  have start : (start .null .null).Arises := .start trivial trivial
  have taken := start.store (v := .obj [("y", .int 1)]) ⟨by decide, trivial, trivial⟩
  have object := taken.write (r := ⟨.vars, ["a"]⟩) (v := .cell 4) (Nat.lt_succ_self 4) rfl
  have copied := object.write (r := ⟨.vars, ["b"]⟩) (v := .cell 4) (Nat.lt_succ_self 4) rfl
  refine ⟨copied, by decide, by decide, by decide, by decide, _, rfl, ?_⟩
  intro same
  cases same

end Store
end Flowgraph
