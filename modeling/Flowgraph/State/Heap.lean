import Flowgraph.Json.Basic

/-!
# Shared objects

The objects of the run-time state have an identity: an object that is stored at two
places is the same object, and a change at one place is seen at the other. A heap keeps
the fields of every object in a cell of its own. Arrays are not entered by references,
so an array is kept as a whole, with the objects in it.
-/
namespace Flowgraph

/-- A value of the state: an object in its cell, or any other value. -/
inductive Slot where
  | leaf (v : Json)
  | cell (i : Nat)
deriving Inhabited

abbrev Cell := List (String × Slot)

def Cell.insert : Cell → String → Slot → Cell
  | [], key, s => [(key, s)]
  | (k, old) :: rest, key, s =>
    if k = key then (k, s) :: rest else (k, old) :: Cell.insert rest key s

theorem Cell.lookup_cons (k : String) (s : Slot) (rest : Cell) (q : String) :
    List.lookup q ((k, s) :: rest) = if q = k then some s else rest.lookup q := by
  rw [List.lookup_cons]
  by_cases h : q = k
  · simp [h]
  · simp [h, beq_false_of_ne h]

theorem Cell.lookup_insert (c : Cell) (key q : String) (s : Slot) :
    (c.insert key s).lookup q = if q = key then some s else c.lookup q := by
  induction c with
  | nil => simp [Cell.insert, Cell.lookup_cons]
  | cons field rest ih =>
    obtain ⟨k, old⟩ := field
    by_cases hk : k = key
    · subst hk
      simp only [Cell.insert, if_pos, Cell.lookup_cons]
      by_cases hq : q = k <;> simp [hq]
    · simp only [Cell.insert, hk, if_false, Cell.lookup_cons, ih]
      by_cases hq : q = k
      · subst hq; simp [hk]
      · simp [hq]

/-- The fields of all objects, by the number of their cell. -/
abbrev Heap := List Cell

namespace Heap

def fields (h : Heap) (i : Nat) : Cell :=
  h[i]?.getD []

/-- Adds an object with no fields. -/
def grow (h : Heap) : Nat × Heap :=
  (h.length, h ++ [[]])

/-- What stands under a key of a value, if the value is an object. -/
def child? (h : Heap) (s : Slot) (key : String) : Option Slot :=
  match s with
  | .cell i => (h.fields i).lookup key
  | .leaf _ => none

/-- What stands at the end of a path. -/
def find? (h : Heap) (s : Slot) : List String → Option Slot
  | [] => some s
  | key :: rest => (h.child? s key).bind fun t => h.find? t rest

def setField (h : Heap) (i : Nat) (key : String) (s : Slot) : Heap :=
  h.modify i fun c => c.insert key s

/-- Stores a value at the end of a path from an object; what is no object on the way gives
place to a new one. -/
def put (h : Heap) (i : Nat) (path : List String) (s : Slot) : Heap :=
  match path with
  | [] => h
  | [key] => h.setField i key s
  | key :: rest =>
    match h.child? (.cell i) key with
    | some (.cell j) => h.put j rest s
    | _ =>
      let (j, grown) := h.grow
      (grown.setField i key (.cell j)).put j rest s

mutual

/-- Puts a value into the heap, every object of it into a new cell. -/
def store (h : Heap) : Json → Slot × Heap
  | .obj fields =>
    let (c, h) := h.storeFields fields
    (.cell h.length, h ++ [c])
  | v => (.leaf v, h)

def storeFields (h : Heap) : List (String × Json) → Cell × Heap
  | [] => ([], h)
  | (k, v) :: rest =>
    let (s, h) := h.store v
    let (c, h) := h.storeFields rest
    ((k, s) :: c, h)

end

/-- A value with its objects written out to a depth; none if they go deeper. -/
def view (h : Heap) : Nat → Slot → Option Json
  | _, .leaf v => some v
  | 0, .cell _ => none
  | depth + 1, .cell i =>
    ((h.fields i).mapM fun f => (h.view depth f.2).map fun v => (f.1, v)).map Json.obj

/-- A value with all its objects written out; none if an object lies within itself. -/
def json? (h : Heap) (s : Slot) : Option Json :=
  h.view (h.length + 1) s

end Heap
end Flowgraph
