import Flowgraph.Graph.EdgeIndex
import Mathlib.Data.List.Induction

/-!
# What an edge index collects

An index that is built from values has an entry for each declared key and for each key of a
value. An entry has the values with its key, each once and in their order, and no value stands
anywhere else. Adjacency lists are collected in the same way but for the arcs from ids that are
not declared, which are left out. A key that is declared again has no entry of its own: an entry
is found by its key, and it is the first one that is found and filled.
-/
namespace Flowgraph.EdgeIndex

variable {β : Type}

/-- An index has collected some values under declared keys and their own. -/
structure Collects (index : EdgeIndex β) (declared : List String) (key : β → String)
    (values : List β) : Prop where
  /-- The declared keys and the keys of values have an entry, and no others. -/
  entries : ∀ k, (∃ bs, index.lookup k = some bs) ↔ k ∈ declared ∨ ∃ b ∈ values, key b = k
  /-- An entry has the values with its key, each once, in their order. -/
  own : ∀ k bs, index.lookup k = some bs → bs = values.filter (key · = k)
  /-- All entries together have each value once. -/
  once : (index.flatMap (·.2)).Perm values

/-- The targets of arcs, collected under their sources; an arc from an id that is not declared is
left out. -/
def ofArcs (declared : List String) (arcs : List (String × String)) : EdgeIndex String :=
  arcs.foldl
    (fun index arc => if (index.lookup arc.1).isSome then index.add arc.1 arc.2 else index)
    (declared.map (·, []))

/-! ## One value -/

theorem lookup_cons (k : String) (bs : List β) (rest : EdgeIndex β) (q : String) :
    List.lookup q ((k, bs) :: rest) = if q = k then some bs else rest.lookup q := by
  by_cases same : q = k
  · simp [same]
  · simp [List.lookup_cons, beq_false_of_ne same, same]

theorem lookup_add (index : EdgeIndex β) (key q : String) (b : β) :
    (index.add key b).lookup q =
      if q = key then some (index.entry key ++ [b]) else index.lookup q := by
  induction index with
  | nil => exact lookup_cons key [b] [] q
  | cons field rest ih =>
    obtain ⟨k, bs⟩ := field
    rw [add]
    split
    · rename_i same
      subst same
      rw [lookup_cons, lookup_cons, entry, lookup_cons, if_pos rfl]
      split <;> rfl
    · rename_i other
      rw [lookup_cons, lookup_cons, ih, entry, entry, lookup_cons, if_neg (Ne.symm other)]
      by_cases same : q = k
      · rw [if_pos same, if_neg (same ▸ other), if_pos same]
      · rw [if_neg same, if_neg same]

theorem perm_add (index : EdgeIndex β) (key : String) (b : β) :
    ((index.add key b).flatMap (·.2)).Perm (index.flatMap (·.2) ++ [b]) := by
  induction index with
  | nil => exact .refl _
  | cons field rest ih =>
    obtain ⟨k, bs⟩ := field
    rw [add]
    split
    · simp only [List.flatMap_cons, List.append_assoc]
      exact List.perm_append_comm.append_left bs
    · simp only [List.flatMap_cons, List.append_assoc]
      exact ih.append_left bs

/-! ## Declared keys -/

theorem lookup_declared (declared : List String) (q : String) :
    List.lookup q (declared.map (·, ([] : List β))) = if q ∈ declared then some [] else none := by
  induction declared with
  | nil => rfl
  | cons k rest ih =>
    rw [List.map_cons, lookup_cons, ih]
    by_cases same : q = k <;> simp [same]

namespace Collects

variable {index : EdgeIndex β} {declared : List String} {key : β → String} {values : List β}

theorem entry_eq (h : index.Collects declared key values) (k : String) :
    index.entry k = values.filter (key · = k) := by
  rw [entry]
  cases found : index.lookup k with
  | some bs => exact h.own k bs found
  | none =>
    -- A value with this key would have brought an entry.
    have none : ∀ b ∈ values, ¬key b = k := fun b hb same => by
      obtain ⟨bs, some⟩ := (h.entries k).mpr (.inr ⟨b, hb, same⟩)
      rw [found] at some
      cases some
    exact (List.filter_eq_nil_iff.mpr (by simpa using none)).symm

theorem start (declared : List String) (key : β → String) :
    EdgeIndex.Collects (declared.map (·, [])) declared key [] where
  entries k := by simp [lookup_declared]
  own k bs found := by
    rw [lookup_declared] at found
    split at found
    · exact (Option.some.inj found).symm
    · cases found
  once := by simp

/-- One value more goes to the end of the entry of its key. -/
theorem concat (h : index.Collects declared key values) (b : β) :
    (index.add (key b) b).Collects declared key (values ++ [b]) where
  entries k := by
    have before := h.entries k
    rw [lookup_add]
    split
    · rename_i same
      simp [same]
    · rename_i other
      rw [before]
      simp [Ne.symm other]
  own k bs found := by
    rw [lookup_add, h.entry_eq] at found
    split at found
    · rename_i same
      rw [← Option.some.inj found, same]
      simp
    · rename_i other
      rw [h.own k bs found]
      simp [Ne.symm other]
  once := (perm_add index (key b) b).trans (h.once.append_right [b])

end Collects

/-! ## All values -/

theorem build_concat (declared : List String) (key : β → String) (values : List β) (b : β) :
    build declared key (values ++ [b]) = (build declared key values).add (key b) b := by
  rw [build, List.foldl_append]
  rfl

theorem collects_build (declared : List String) (key : β → String) (values : List β) :
    (build declared key values).Collects declared key values := by
  induction values using List.reverseRecOn with
  | nil => exact .start declared key
  | append_singleton values b ih =>
    rw [build_concat]
    exact ih.concat b

theorem ofArcs_concat (declared : List String) (arcs : List (String × String))
    (arc : String × String) : ofArcs declared (arcs ++ [arc]) =
      if ((ofArcs declared arcs).lookup arc.1).isSome then (ofArcs declared arcs).add arc.1 arc.2
      else ofArcs declared arcs := by
  rw [ofArcs, List.foldl_append]
  rfl

theorem lookup_ofArcs (declared : List String) (arcs : List (String × String)) (id : String) :
    (ofArcs declared arcs).lookup id =
      if id ∈ declared then some ((arcs.filter (·.1 = id)).map (·.2)) else none := by
  -- From the end, since the lists are filled in the order of the arcs.
  induction arcs using List.reverseRecOn generalizing id with
  | nil => exact lookup_declared declared id
  | append_singleton arcs arc ih =>
    have known : ((ofArcs declared arcs).lookup arc.1).isSome = true ↔ arc.1 ∈ declared := by
      rw [ih]
      split <;> simp_all
    rw [ofArcs_concat]
    by_cases source : arc.1 ∈ declared
    · rw [if_pos (known.mpr source), lookup_add, entry, ih, ih, if_pos source]
      by_cases same : id = arc.1
      · simp [same, source]
      · simp [same, Ne.symm same]
    · rw [if_neg (mt known.mp source), ih]
      by_cases same : id = arc.1
      · simp [same, source]
      · simp [Ne.symm same]

end Flowgraph.EdgeIndex
