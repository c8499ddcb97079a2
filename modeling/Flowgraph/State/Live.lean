import Flowgraph.Rejection
import Flowgraph.State.Store

/-!
# Listening to the state

Listeners are told of every write, in the order of their subscription, unless a batch is
open; then the changes are kept until the batch is committed. A listener records what it
hears. It may also fail, which is noticed and stops nobody, leave after the first change,
or answer a change of one path by a write of its own. A listener that subscribed twice
hears everything twice.
-/
namespace Flowgraph

inductive Change where
  | set (r : StateRef) (value : Slot)
  | snapshot (value : Json)

namespace Change

def path? : Change → Option String
  | set r _ => some (".".intercalate r.path)
  | snapshot _ => none

def type : Change → String
  | set .. => "variable-set"
  | snapshot _ => "snapshot"

def value : Change → Slot
  | set _ v => v
  | snapshot v => .leaf v

/-- What an error message calls the change. -/
def label (c : Change) : String :=
  match c.path? with
  | some path => if path.isEmpty then c.type else path
  | none => c.type

end Change

/-- A write in answer to a change of a path. -/
structure Reaction where
  trigger : String
  ref : Json
  value : Slot

structure Listener where
  name : String
  failure : Option String := none
  once : Bool := false
  reaction : Option Reaction := none

/-- What a listener heard, with the value as it was then. -/
structure Delivery where
  listener : String
  type : String
  space : Option String
  path : Option String
  value : Json

structure LiveStore where
  store : Store
  /-- The listeners by name, as they were when they first subscribed. -/
  known : List Listener := []
  /-- The names of the listeners that are told, in order. -/
  subscribed : List String := []
  batching : Bool := false
  pending : List Change := []
  /-- What was heard and noticed since it was last looked at, the latest first. -/
  deliveries : List Delivery := []
  notices : List Notice := []

namespace LiveStore

def listener? (s : LiveStore) (name : String) : Option Listener :=
  s.known.find? (·.name == name)

def subscribe (s : LiveStore) (l : Listener) : LiveStore :=
  { s with
    known := if (s.listener? l.name).isSome then s.known else s.known ++ [l]
    subscribed := s.subscribed ++ [l.name] }

/-- Ends the first subscription of a listener, if it has one. -/
def unsubscribe (s : LiveStore) (name : String) : LiveStore :=
  { s with subscribed := s.subscribed.erase name }

def space? : Change → Option String
  | .set r _ => some r.space.name
  | .snapshot _ => none

/-- Records what a listener hears. -/
def record (s : LiveStore) (name : String) (c : Change) : LiveStore :=
  let heard : Delivery :=
    { listener := name, type := c.type, space := space? c, path := c.path?,
      value := (s.store.heap.json? c.value).getD .null }
  { s with deliveries := heard :: s.deliveries }

def complain (s : LiveStore) (c : Change) (text : String) : LiveStore :=
  { s with notices := .error ("State listener error for " ++ c.label ++ ": " ++ text) :: s.notices }

/-- Writes a value and tells of it, or keeps the change while a batch is open. -/
def setWith (tell : Change → LiveStore → LiveStore) (s : LiveStore) (ref : Json) (v : Slot) :
    Except Fault LiveStore := do
  let r ← StateRef.read ref
  let store ← s.store.write r v
  let c := Change.set r v
  let s := { s with store }
  if s.batching then return { s with pending := s.pending ++ [c] } else return tell c s

/-- What a listener does when it is told of a change. -/
def hear (tell : Change → LiveStore → LiveStore) (c : Change) (s : LiveStore) (name : String) :
    LiveStore :=
  let s := s.record name c
  match s.listener? name with
  | none => s
  | some l =>
    match l.failure with
    | some text => s.complain c text
    | none =>
      let s := if l.once then s.unsubscribe name else s
      match l.reaction with
      | none => s
      | some reaction =>
        if c.path? = some reaction.trigger then
          match setWith tell s reaction.ref reaction.value with
          | .ok s => s
          | .error e => s.complain c e.message
        else s

/-- Tells every listener of a change; reactions to reactions are told to a given depth. -/
def tell : Nat → Change → LiveStore → LiveStore
  | 0, _, s => s
  | depth + 1, c, s => s.subscribed.foldl (hear (tell depth) c) s

/-- How deep reactions may answer each other; a bound of this library, not told by the source. -/
def reactionDepth : Nat := 400

def set (s : LiveStore) (ref : Json) (v : Slot) : Except Fault LiveStore :=
  setWith (tell reactionDepth) s ref v

/-- Puts a value into the heap before it is written. -/
def setJson (s : LiveStore) (ref v : Json) : Except Fault LiveStore :=
  let (slot, heap) := s.store.heap.store v
  { s with store := { s.store with heap } }.set ref slot

/-- Stores at a reference the value at another one, null where there is none. -/
def copy (s : LiveStore) (source target : Json) : Except Fault LiveStore := do
  let r ← StateRef.read source
  s.set target ((s.store.get? r).getD (.leaf .null))

def emitSnapshot (s : LiveStore) : Except Fault LiveStore := do
  return tell reactionDepth (.snapshot (← s.store.snapshot)) s

def batchStart (s : LiveStore) : LiveStore :=
  { s with batching := true, pending := [] }

/-- Closes the batch and tells of every change that was kept. -/
def batchCommit (s : LiveStore) : LiveStore :=
  s.pending.foldl (fun s c => tell reactionDepth c s) { s with batching := false, pending := [] }

/-- Closes the batch and forgets the changes; what was written stays. -/
def batchRollback (s : LiveStore) : LiveStore :=
  { s with batching := false, pending := [] }

def clear (s : LiveStore) (space : Namespace) : Except Fault LiveStore :=
  (s.store.clear space).map fun store => { s with store }

/-- The paths that were written in the open batch, each once and sorted. -/
def changedPaths (s : LiveStore) : List String :=
  sortedDistinct ((s.pending.filterMap Change.path?).filter (!·.isEmpty))

end LiveStore
end Flowgraph
