import Flowgraph.State.Heap
import Flowgraph.State.Ref

/-!
# The run-time state

Four namespaces that are addressed by references. Variables and scratch can be written;
the context and the input cannot. A value that is read is the stored one, not a copy.
-/
namespace Flowgraph

structure Store where
  heap : Heap
  vars : Nat
  tmp : Nat
  ctx : Slot
  input : Slot

namespace Store

/-- A value, or an empty object where it counts as absent. -/
def objectIfAbsent (v : Json) : Json :=
  if v.truthy then v else .obj []

/-- The state at the beginning of a run. -/
def start (input context : Json) : Store :=
  let (ctx, heap) := Heap.store [[], []] (objectIfAbsent context)
  let (input, heap) := heap.store (objectIfAbsent input)
  { heap, vars := 0, tmp := 1, ctx, input }

def root (s : Store) : Namespace → Slot
  | .vars => .cell s.vars
  | .tmp => .cell s.tmp
  | .ctx => s.ctx
  | .input => s.input

/-- The value at a reference; none where the path is missing. -/
def get? (s : Store) (r : StateRef) : Option Slot :=
  s.heap.find? (s.root r.space) r.path

def has (s : Store) (r : StateRef) : Bool :=
  (s.get? r).isSome

/-- The object in which a namespace that can be written is kept. -/
def writable (s : Store) (space : Namespace) : Except Fault Nat :=
  match space with
  | .vars => .ok s.vars
  | .tmp => .ok s.tmp
  | space => .error (.readOnly space.name)

/-- Stores a value at a reference. -/
def write (s : Store) (r : StateRef) (v : Slot) : Except Fault Store :=
  (s.writable r.space).map fun i => { s with heap := s.heap.put i r.path v }

/-- Gives a namespace a new empty object. -/
def clear (s : Store) (space : Namespace) : Except Fault Store := do
  let _ ← s.writable space
  let (i, heap) := s.heap.grow
  if space = .vars then return { s with heap, vars := i } else return { s with heap, tmp := i }

/-- A value with its objects written out. -/
def json (s : Store) (v : Slot) : Except Fault Json :=
  match s.heap.json? v with
  | some v => .ok v
  | none => .error .tooDeep

/-- The value at a reference, or a default where the path is missing. -/
def read (s : Store) (r : StateRef) (default : Json) : Except Fault Json :=
  match s.get? r with
  | some v => s.json v
  | none => .ok default

def snapshot (s : Store) : Except Fault Json := do
  let fields ← Namespace.all.mapM fun space => do
    return (space.name, ← s.json (s.root space))
  return .obj fields

end Store
end Flowgraph
