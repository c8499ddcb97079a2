import Flowgraph.Proofs.Procedure
import Flowgraph.Proofs.State.Writing
import Flowgraph.State.Live
import Mathlib.Logic.Relation

/-!
# Operations on the state

An operation of the state is a procedure. A write goes to its place one object at a time,
so that a failure on the way would leave some of it behind. There is none: a write is
refused before its first change, and what a whole write does is the write of the state.

Besides the operations there is what a caller does by itself: it makes objects, which may
hold any values that are there. `Effect` says all that an operation may do with the state,
the writes of listeners included.
-/
namespace Flowgraph

namespace LiveStore

abbrev Action := Procedure LiveStore Fault

open Procedure

def withHeap (s : LiveStore) (h : Heap) : LiveStore :=
  { s with store := { s.store with heap := h } }

/-- Goes on to the object under a key of an object, a new one where none stands there. -/
def enter (i : Nat) (key : String) : Action Nat := do
  let s ← current
  match s.store.heap.child? (.cell i) key with
  | some (.cell j) => return j
  | _ => do
    change fun s => s.withHeap (s.store.heap.entered i key)
    return s.store.heap.length

/-- Goes along a path, from one object to the next, and stores a value at its end. -/
def assign (i : Nat) (path : List String) (v : Slot) : Action Unit :=
  match path with
  | [] => pure ()
  | [key] => change fun s => s.withHeap (s.store.heap.setField i key v)
  | key :: rest => do
    let j ← enter i key
    assign j rest v

/-- Tells of a change, or keeps it while a batch is open. -/
def announce (c : Change) (s : LiveStore) : LiveStore :=
  if s.batching then { s with pending := s.pending ++ [c] } else tell reactionDepth c s

/-- A write, step by step. -/
def setStepwise (ref : Json) (v : Slot) : Action Unit := do
  let r ← check (StateRef.read ref)
  let s ← current
  let i ← check (s.store.writable r.space)
  assign i r.path v
  change (announce (.set r v))

/-- Goes on to another state, if there is one. -/
def moveOn (f : LiveStore → Except Fault LiveStore) : Action Unit := do
  let s ← current
  let t ← check (f s)
  change fun _ => t

/-- What can be done with the state. -/
inductive Operation where
  /-- A caller makes objects of its own, which may hold any values. -/
  | make (objects : List Cell)
  | set (ref : Json) (v : Slot)
  | get (ref : Json) (default : Slot)
  | has (ref : Json)
  | clear (space : Namespace)
  | snapshot
  | emitSnapshot
  | subscribe (l : Listener)
  | unsubscribe (name : String)
  | batchStart
  | batchCommit
  | batchRollback

inductive Reply where
  | done
  | value (v : Slot)
  | truth (b : Bool)
  | whole (v : Json)

namespace Operation

def perform : Operation → Action Reply
  | .make objects => do
    change fun s => s.withHeap (s.store.heap ++ objects)
    return .done
  | .set ref v => do
    setStepwise ref v
    return .done
  | .get ref default => do
    let r ← check (StateRef.read ref)
    return .value (((← current).store.get? r).getD default)
  | .has ref => do
    let r ← check (StateRef.read ref)
    return .truth ((← current).store.has r)
  | .clear space => do
    moveOn (·.clear space)
    return .done
  | .snapshot => do
    let s ← current
    return .whole (← check s.store.snapshot)
  | .emitSnapshot => do
    moveOn (·.emitSnapshot)
    return .done
  | .subscribe l => do
    change (·.subscribe l)
    return .done
  | .unsubscribe name => do
    change (·.unsubscribe name)
    return .done
  | .batchStart => do
    change (·.batchStart)
    return .done
  | .batchCommit => do
    change (·.batchCommit)
    return .done
  | .batchRollback => do
    change (·.batchRollback)
    return .done

/-- What an operation answers, or why it cannot be done. -/
def outcome (op : Operation) (s : LiveStore) : Except Fault Reply :=
  (op.perform.run s).1

/-- The state after an operation, whether it could be done or not. -/
def after (op : Operation) (s : LiveStore) : LiveStore :=
  (op.perform.run s).2

end Operation

/-! ## A write as a whole -/

theorem enter_run_old {s : LiveStore} {i j : Nat} {key : String}
    (found : s.store.heap.child? (.cell i) key = some (.cell j)) :
    (enter i key).run s = (.ok j, s) := by
  rw [enter, run_bind_ok (run_current s), found]
  rfl

theorem enter_run_new {s : LiveStore} {i : Nat} {key : String}
    (none : ∀ j, s.store.heap.child? (.cell i) key ≠ some (.cell j)) :
    (enter i key).run s =
      (.ok s.store.heap.length, s.withHeap (s.store.heap.entered i key)) := by
  rw [enter, run_bind_ok (run_current s)]
  split
  · rename_i j found
    exact False.elim (none j found)
  · rfl

theorem assign_run (s : LiveStore) (i : Nat) (path : List String) (v : Slot) :
    (assign i path v).run s = (.ok (), s.withHeap (s.store.heap.put i path v)) := by
  induction path generalizing s i with
  | nil => rfl
  | cons key rest ih =>
    cases rest with
    | nil => rfl
    | cons next rest =>
      rcases s.store.heap.exists_child_or (.cell i) key with ⟨j, found⟩ | none
      · rw [assign, run_bind_ok (enter_run_old found), ih, Heap.put_old found]
        exact List.cons_ne_nil next rest
      · rw [assign, run_bind_ok (enter_run_new none), ih,
          Heap.put_new s.store.heap i next rest v none]
        · rfl
        · exact List.cons_ne_nil next rest

theorem set_of_writable {s : LiveStore} {ref : Json} {r : StateRef} {i : Nat}
    (read : StateRef.read ref = .ok r) (writable : s.store.writable r.space = .ok i) (v : Slot) :
    s.set ref v = .ok (announce (.set r v) (s.withHeap (s.store.heap.put i r.path v))) := by
  simp only [set, setWith, read, Store.write, writable, Except.map, bind, Except.bind]
  unfold announce
  by_cases batch : s.batching = true
  · have open' : (s.withHeap (s.store.heap.put i r.path v)).batching = true := batch
    rw [if_pos batch, if_pos open']
    rfl
  · have closed : ¬(s.withHeap (s.store.heap.put i r.path v)).batching = true := batch
    rw [if_neg batch, if_neg closed]
    rfl

/-- A write that goes step by step is the write of the state where it can be done, and
changes nothing where it cannot. -/
theorem setStepwise_run (s : LiveStore) (ref : Json) (v : Slot) :
    (setStepwise ref v).run s =
      match s.set ref v with
      | .ok t => (.ok (), t)
      | .error e => (.error e, s) := by
  cases read : StateRef.read ref with
  | error e =>
    have refused : s.set ref v = .error e := by
      simp only [set, setWith, read, bind, Except.bind]
    rw [setStepwise, read, run_bind_error (run_check _ s), refused]
  | ok r =>
    rw [setStepwise, read, run_bind_ok (run_check _ s), run_bind_ok (run_current s)]
    cases writable : s.store.writable r.space with
    | error e =>
      have refused : s.set ref v = .error e := by
        simp only [set, setWith, read, Store.write, writable, Except.map, bind, Except.bind]
      rw [run_bind_error (run_check _ s), refused]
    | ok i =>
      rw [run_bind_ok (run_check _ s), run_bind_ok (assign_run s i r.path v), run_change,
        set_of_writable read writable]

/-! ## What an operation may do -/

/-- The writes that listeners make in answer to changes. -/
def Reacted (known : List Listener) : Store → Store → Prop :=
  Relation.ReflTransGen fun s t =>
    ∃ l ∈ known, ∃ x, l.reaction = some x ∧ ∃ r, s.write r x.value = .ok t

/-- Telling of changes may do no more to the state than the listeners do. -/
def Told (s t : LiveStore) : Prop :=
  t.known = s.known ∧ Reacted s.known s.store t.store

theorem Told.refl (s : LiveStore) : Told s s :=
  ⟨rfl, .refl⟩

theorem Told.trans {s t u : LiveStore} (first : Told s t) (second : Told t u) : Told s u := by
  obtain ⟨known, reacted⟩ := first
  obtain ⟨known', reacted'⟩ := second
  rw [known] at known' reacted'
  exact ⟨known', reacted.trans reacted'⟩

theorem foldl_told {α : Type} {f : LiveStore → α → LiveStore} (step : ∀ s a, Told s (f s a))
    (l : List α) (s : LiveStore) : Told s (l.foldl f s) := by
  induction l generalizing s with
  | nil => exact Told.refl s
  | cons a l ih => exact (step s a).trans (ih (f s a))

theorem setWith_ok {tell : Change → LiveStore → LiveStore} (told : ∀ c s, Told s (tell c s))
    {s t : LiveStore} {ref : Json} {v : Slot} (h : setWith tell s ref v = .ok t) :
    ∃ r store, StateRef.read ref = .ok r ∧ s.store.write r v = .ok store ∧
      Told { s with store } t := by
  unfold setWith at h
  cases read : StateRef.read ref with
  | error e => simp [read, bind, Except.bind] at h
  | ok r =>
    cases wrote : s.store.write r v with
    | error e => simp [read, wrote, bind, Except.bind] at h
    | ok store =>
      refine ⟨r, store, rfl, wrote, ?_⟩
      simp only [read, wrote, bind, Except.bind] at h
      split at h
      · obtain rfl := Except.ok.inj h
        exact Told.refl _
      · obtain rfl := Except.ok.inj h
        exact told _ _

theorem hear_told {tell : Change → LiveStore → LiveStore} (told : ∀ c s, Told s (tell c s))
    (c : Change) (s : LiveStore) (name : String) : Told s (hear tell c s name) := by
  unfold hear
  dsimp only
  split
  · exact Told.refl _
  · rename_i l found
    have known : l ∈ s.known := List.mem_of_find?_eq_some found
    split
    · exact Told.refl _
    · -- Whether the listener leaves or not, the values and the listeners are the same.
      generalize left : (if l.once then (s.record name c).unsubscribe name else s.record name c) = t
      obtain ⟨store, listeners⟩ : t.store = s.store ∧ t.known = s.known := by
        rw [← left]
        split <;> exact ⟨rfl, rfl⟩
      have stays : Told s t := ⟨listeners, store ▸ .refl⟩
      split
      · exact stays
      · rename_i x reaction
        split
        · cases wrote : setWith tell t x.ref x.value with
          | error e => exact stays
          | ok u =>
            obtain ⟨r, store', _, wrote, told'⟩ := setWith_ok told wrote
            have reacted : Told s { t with store := store' } :=
              ⟨listeners, .single ⟨l, known, x, reaction, r, store ▸ wrote⟩⟩
            exact reacted.trans told'
        · exact stays

theorem tell_told (depth : Nat) (c : Change) (s : LiveStore) : Told s (tell depth c s) := by
  induction depth generalizing c s with
  | zero => exact Told.refl s
  | succ depth ih => exact foldl_told (hear_told ih c) s.subscribed s

/-- All that an operation may do with the state. -/
inductive Effect (s : LiveStore) : Operation → LiveStore → Prop
  | made {objects : List Cell} : Effect s (.make objects) (s.withHeap (s.store.heap ++ objects))
  | wrote {ref : Json} {v : Slot} {r : StateRef} {store : Store} {t : LiveStore} :
      StateRef.read ref = .ok r → s.store.write r v = .ok store → Told { s with store } t →
      Effect s (.set ref v) t
  | cleared {space : Namespace} {store : Store} : s.store.clear space = .ok store →
      Effect s (.clear space) { s with store }
  | subscribed {l : Listener} : Effect s (.subscribe l) (s.subscribe l)
  | told {op : Operation} {t : LiveStore} : Told s t → Effect s op t

namespace Operation

variable {s : LiveStore}

/-- What comes of an operation that is done as a whole or not at all. -/
def allOrNothing (s : LiveStore) : Except Fault LiveStore → Except Fault Reply × LiveStore
  | .ok t => (.ok .done, t)
  | .error e => (.error e, s)

theorem perform_set (ref : Json) (v : Slot) :
    (set ref v).perform.run s = allOrNothing s (s.set ref v) := by
  rw [perform, run_bind, setStepwise_run]
  cases s.set ref v <;> rfl

theorem moveOn_run (f : LiveStore → Except Fault LiveStore) :
    (do moveOn f; return Reply.done : Action Reply).run s = allOrNothing s (f s) := by
  rw [run_bind, moveOn, run_bind_ok (run_current s), run_bind, run_check]
  cases f s <;> rfl

theorem perform_clear (space : Namespace) :
    (clear space).perform.run s = allOrNothing s (s.clear space) :=
  moveOn_run (·.clear space)

theorem perform_emitSnapshot : emitSnapshot.perform.run s = allOrNothing s s.emitSnapshot :=
  moveOn_run (·.emitSnapshot)

theorem after_of_allOrNothing {op : Operation} {attempt : Except Fault LiveStore} {e : Fault}
    (performed : op.perform.run s = allOrNothing s attempt) (refused : op.outcome s = .error e) :
    op.after s = s := by
  rw [outcome, performed] at refused
  rw [after, performed]
  cases attempt with
  | error e => rfl
  | ok t => cases refused

/-- Reading leaves the state as it is, whether it is refused or not. -/
theorem after_reading {op : Operation}
    (reads : (∃ ref default, op = get ref default) ∨ (∃ ref, op = has ref) ∨ op = snapshot) :
    op.after s = s := by
  rcases reads with ⟨ref, default, rfl⟩ | ⟨ref, rfl⟩ | rfl
  · rw [after, perform, run_bind, run_check]
    cases StateRef.read ref <;> rfl
  · rw [after, perform, run_bind, run_check]
    cases StateRef.read ref <;> rfl
  · rw [after, perform, run_bind_ok (run_current s), run_bind, run_check]
    cases s.store.snapshot <;> rfl

theorem effect (op : Operation) (s : LiveStore) : Effect s op (op.after s) := by
  cases op with
  | make objects => exact .made
  | set ref v =>
    rw [after, perform_set]
    cases result : s.set ref v with
    | error e => exact .told (Told.refl s)
    | ok t =>
      obtain ⟨r, store, read, wrote, told⟩ := setWith_ok (tell_told reactionDepth) result
      exact .wrote read wrote told
  | get ref default =>
    rw [after_reading (.inl ⟨ref, default, rfl⟩)]
    exact .told (Told.refl s)
  | has ref =>
    rw [after_reading (.inr (.inl ⟨ref, rfl⟩))]
    exact .told (Told.refl s)
  | clear space =>
    rw [after, perform_clear, LiveStore.clear]
    cases cleared : s.store.clear space with
    | error e => exact .told (Told.refl s)
    | ok store => exact .cleared cleared
  | snapshot =>
    rw [after_reading (.inr (.inr rfl))]
    exact .told (Told.refl s)
  | emitSnapshot =>
    rw [after, perform_emitSnapshot, LiveStore.emitSnapshot]
    cases s.store.snapshot with
    | error e => exact .told (Told.refl s)
    | ok v => exact .told (tell_told reactionDepth (.snapshot v) s)
  | subscribe l => exact .subscribed
  | unsubscribe name => exact .told (Told.refl s)
  | batchStart => exact .told (Told.refl s)
  | batchCommit =>
    have closed : Told s { s with batching := false, pending := [] } := Told.refl s
    exact .told (closed.trans (foldl_told (fun s c => tell_told reactionDepth c s) s.pending _))
  | batchRollback => exact .told (Told.refl s)

/-- An operation that cannot be done leaves everything as it was. -/
theorem after_of_error {op : Operation} {e : Fault} (refused : op.outcome s = .error e) :
    op.after s = s := by
  cases op with
  | set ref v => exact after_of_allOrNothing (perform_set ref v) refused
  | get ref default => exact after_reading (.inl ⟨ref, default, rfl⟩)
  | has ref => exact after_reading (.inr (.inl ⟨ref, rfl⟩))
  | clear space => exact after_of_allOrNothing (perform_clear space) refused
  | snapshot => exact after_reading (.inr (.inr rfl))
  | emitSnapshot => exact after_of_allOrNothing perform_emitSnapshot refused
  | make | subscribe | unsubscribe | batchStart | batchCommit | batchRollback => cases refused

end Operation

end LiveStore
end Flowgraph
