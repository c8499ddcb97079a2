import Flowgraph.Proofs.State.ReadOnly

/-!
# Runs of operations

In a run that stores no object of the context or of the input these two are shown as they
were given, whatever else is done. A run that only takes JSON values in stores no such object.

The other laws hold of every run. A write is refused for a text that is no reference and
for a reference to a read-only namespace, and for nothing else; a namespace is cleared unless
it is read-only. What is refused changes nothing and is told to nobody.
-/
namespace Flowgraph

namespace LiveStore

/-- The state at the beginning of a run. Nobody listens yet. -/
def initial (input context : Json) : LiveStore :=
  { store := .start input context }

/-- What is asked of new objects and of values that are stored, by an operation on a state. -/
def Allowed (new : Store → Heap → Prop) (value : Store → Slot → Prop) (s : LiveStore) :
    Operation → Prop
  | .make objects => new s.store objects
  | .set _ v => value s.store v
  | .subscribe l => ∀ x, l.reaction = some x → value s.store x.value
  | _ => True

/-- New objects have each key once, and what is stored exists. -/
def Possible : LiveStore → Operation → Prop :=
  Allowed (fun s objects => Heap.Sound (s.heap ++ objects)) fun s => s.heap.Within

/-- No object of the context or of the input is stored. -/
def Careful : LiveStore → Operation → Prop :=
  Allowed (fun s objects => ∀ c ∈ objects, ∀ f ∈ c, Heap.Outside s.ReadOnlyObject f.2)
    fun s => Heap.Outside s.ReadOnlyObject

/-- The states to which a run of operations leads. An operation that cannot be done is a
part of the run, too. -/
inductive Reached (may : LiveStore → Operation → Prop) (s : LiveStore) : LiveStore → Prop
  | start : Reached may s s
  | next {t : LiveStore} (op : Operation) : Reached may s t → may t op →
      Reached may s (op.after t)

/-- The context and the input are shown as they were given, and are so in every snapshot. -/
structure Faithful (input context : Json) (s : LiveStore) : Prop where
  shown_input : s.store.shown .input = .ok (Store.objectIfAbsent input)
  shown_ctx : s.store.shown .ctx = .ok (Store.objectIfAbsent context)
  snapshot : ∀ w, Operation.snapshot.outcome s = .ok (.whole w) →
    w.find "$in" = .ok (some (Store.objectIfAbsent input)) ∧
      w.find "$ctx" = .ok (some (Store.objectIfAbsent context))

/-- What a state answers to a write and to a clearing, and what an operation leaves. -/
structure Lawful (s : LiveStore) : Prop where
  invalid : ∀ ref v text, (Operation.set ref v).outcome s = .error (.invalidRef text) ↔
    StateRef.isRef ref = false ∧ text = ref.display
  readOnly : ∀ ref v name, (Operation.set ref v).outcome s = .error (.readOnly name) ↔
    ∃ r, StateRef.read ref = .ok r ∧ r.space.readOnly = true ∧ name = r.space.name
  written : ∀ ref v, (Operation.set ref v).outcome s = .ok .done ↔
    ∃ r, StateRef.read ref = .ok r ∧ r.space.readOnly = false
  uncleared : ∀ space, (Operation.clear space).outcome s = .error (.readOnly space.name) ↔
    space.readOnly = true
  cleared : ∀ space, (Operation.clear space).outcome s = .ok .done ↔ space.readOnly = false
  refused : ∀ (op : Operation) e, op.outcome s = .error e → op.after s = s
  empty : ∀ space, (Operation.clear space).outcome s = .ok .done →
    ∃ store, (Operation.clear space).after s = { s with store } ∧
      store.shown space = .ok (.obj []) ∧
      (∀ other, other ≠ space → store.shown other = s.store.shown other) ∧
      ∀ q : StateRef, q.space ≠ space →
        (∀ d, store.read q d = s.store.read q d) ∧ store.has q = s.store.has q

/-! ## What lasts -/

section Lasting

variable {state : Store → Prop} {new : Store → Heap → Prop} {value : Store → Slot → Prop}
  {s t : LiveStore}

/-- A property of states that is kept where values of some kind are stored. -/
structure Lasting (state : Store → Prop) (new : Store → Heap → Prop)
    (value : Store → Slot → Prop) : Prop where
  make : ∀ {s : Store} {objects : Heap}, state s → new s objects →
    state { s with heap := s.heap ++ objects } ∧
      ∀ u, value s u → value { s with heap := s.heap ++ objects } u
  write : ∀ {s s' : Store} {r : StateRef} {v : Slot}, state s → value s v →
    s.write r v = .ok s' → state s' ∧ ∀ u, value s u → value s' u
  clear : ∀ {s s' : Store} {space : Namespace}, state s → s.clear space = .ok s' →
    state s' ∧ ∀ u, value s u → value s' u

/-- The state and the values that listeners are to write are as asked. -/
def Holds (state : Store → Prop) (value : Store → Slot → Prop) (known : List Listener)
    (s : Store) : Prop :=
  state s ∧ ∀ l ∈ known, ∀ x, l.reaction = some x → value s x.value

theorem Holds.mono {known : List Listener} {s s' : Store} (holds : Holds state value known s)
    (next : state s' ∧ ∀ u, value s u → value s' u) : Holds state value known s' :=
  ⟨next.1, fun l hl x reaction => next.2 _ (holds.2 l hl x reaction)⟩

theorem Lasting.told (lasting : Lasting state new value)
    (holds : Holds state value s.known s.store) (told : Told s t) :
    Holds state value t.known t.store := by
  obtain ⟨known, reacted⟩ := told
  rw [known]
  clear known
  generalize t.store = store at reacted
  induction reacted with
  | refl => exact holds
  | tail _ reaction ih =>
    obtain ⟨l, hl, x, answer, r, wrote⟩ := reaction
    exact ih.mono (lasting.write ih.1 (ih.2 l hl x answer) wrote)

theorem Lasting.effect (lasting : Lasting state new value)
    (holds : Holds state value s.known s.store) {op : Operation}
    (allowed : Allowed new value s op) (effect : Effect s op t) :
    Holds state value t.known t.store := by
  cases effect with
  | made => exact holds.mono (lasting.make holds.1 allowed)
  | @wrote _ _ _ store _ read wrote told =>
    have next : Holds state value s.known store := holds.mono (lasting.write holds.1 allowed wrote)
    exact lasting.told (s := { s with store }) next told
  | cleared cleared => exact holds.mono (lasting.clear holds.1 cleared)
  | @subscribed l =>
    refine ⟨holds.1, ?_⟩
    intro l' member
    unfold subscribe at member
    dsimp only at member
    split at member
    · exact holds.2 l' member
    · rcases List.mem_append.mp member with old | own
      · exact holds.2 l' old
      · rw [List.mem_singleton.mp own]
        exact allowed
  | told told => exact lasting.told holds told

theorem Lasting.reached (lasting : Lasting state new value)
    (first : Holds state value s.known s.store) (reached : Reached (Allowed new value) s t) :
    Holds state value t.known t.store := by
  induction reached with
  | start => exact first
  | next _ _ allowed ih => exact lasting.effect ih allowed (Operation.effect _ _)

theorem lasting_sound :
    Lasting Store.Sound (fun s objects => Heap.Sound (s.heap ++ objects))
      fun s => s.heap.Within where
  make := by
    intro s objects sound new
    have longer := (List.prefix_append s.heap objects).length_le
    exact ⟨sound.with_heap new longer, fun u within => within.mono longer⟩
  write := by
    intro s s' r v sound within wrote
    obtain ⟨i, _, same⟩ := Store.exists_write (s := s) (Store.readOnly_of_write wrote) v
    refine ⟨sound.write within wrote, ?_⟩
    obtain rfl := Except.ok.inj (wrote.symm.trans same)
    exact fun u inside => inside.mono (sound.heap.put within i r.path).2
  clear := by
    intro s s' space sound cleared
    refine ⟨sound.clear cleared, fun u within => within.mono ?_⟩
    obtain ⟨_, heap, _⟩ := Store.exists_clear cleared
    rw [heap]
    exact (List.prefix_append s.heap [[]]).length_le

theorem lasting_kept {s₀ : Store} (sound₀ : s₀.Sound) :
    Lasting s₀.Kept
      (fun s objects => ∀ c ∈ objects, ∀ f ∈ c, Heap.Outside s.ReadOnlyObject f.2)
      fun s => Heap.Outside s.ReadOnlyObject := by
  have carry : ∀ {s s' : Store}, s₀.Kept s → s₀.Kept s' →
      s₀.Kept s' ∧ ∀ u, Heap.Outside s.ReadOnlyObject u → Heap.Outside s'.ReadOnlyObject u := by
    intro s s' before after
    refine ⟨after, fun u outside => ?_⟩
    rw [after.outside_iff sound₀]
    exact (before.outside_iff sound₀).mp outside
  constructor
  · intro s objects kept outside
    exact carry kept (kept.make fun c hc f hf => (kept.outside_iff sound₀).mp (outside c hc f hf))
  · intro s s' r v kept outside wrote
    exact carry kept (kept.write ((kept.outside_iff sound₀).mp outside) wrote)
  · intro s s' space kept cleared
    exact carry kept (kept.clear cleared)

end Lasting

/-! ## Answers -/

section Answers

variable {s : LiveStore}

theorem read_error {ref : Json} {e : Fault} (refused : StateRef.read ref = .error e) :
    e = .invalidRef ref.display ∧ StateRef.isRef ref = false := by
  constructor
  · unfold StateRef.read at refused
    dsimp only at refused
    split at refused
    · cases refused
    · exact (Except.error.inj refused).symm
  · by_contra formed
    obtain ⟨r, read⟩ := StateRef.exists_read_of_isRef (Bool.of_not_eq_false formed)
    rw [read] at refused
    cases refused

/-- A write is answered by what its reference says alone. -/
theorem outcome_set (ref : Json) (v : Slot) : (Operation.set ref v).outcome s =
    match StateRef.read ref with
    | .error e => .error e
    | .ok r => if r.space.readOnly then .error (.readOnly r.space.name) else .ok .done := by
  rw [Operation.outcome, Operation.perform_set]
  cases read : StateRef.read ref with
  | error e =>
    have refused : s.set ref v = .error e := by
      simp only [LiveStore.set, setWith, read, bind, Except.bind]
    rw [refused]
    rfl
  | ok r =>
    obtain ⟨space, path⟩ := r
    cases space with
    | vars => rw [set_of_writable read rfl]; rfl
    | tmp => rw [set_of_writable read rfl]; rfl
    | ctx | input =>
      simp only [LiveStore.set, setWith, read, Store.write, Store.writable, Except.map, bind,
        Except.bind]
      rfl

theorem outcome_clear (space : Namespace) : (Operation.clear space).outcome s =
    if space.readOnly then .error (.readOnly space.name) else .ok .done := by
  cases space <;> rfl

theorem clear_leaves {space : Namespace} (sound : s.store.Sound)
    (done : (Operation.clear space).outcome s = .ok .done) :
    ∃ store, (Operation.clear space).after s = { s with store } ∧
      store.shown space = .ok (.obj []) ∧
      (∀ other, other ≠ space → store.shown other = s.store.shown other) ∧
      ∀ q : StateRef, q.space ≠ space →
        (∀ d, store.read q d = s.store.read q d) ∧ store.has q = s.store.has q := by
  rw [Operation.outcome, Operation.perform_clear, LiveStore.clear] at done
  rw [Operation.after, Operation.perform_clear, LiveStore.clear]
  cases cleared : s.store.clear space with
  | error e =>
    rw [cleared] at done
    cases done
  | ok store =>
    obtain ⟨_, heap, own, others⟩ := Store.exists_clear cleared
    have sound' := sound.clear cleared
    have more : s.store.heap <+: store.heap := heap ▸ List.prefix_append _ _
    refine ⟨store, rfl, ?_, ?_, ?_⟩
    · have blank : store.heap.fields s.store.heap.length = [] := by
        rw [heap, Heap.fields_append, if_pos rfl]
      rw [Store.shown_eq_ok_iff, own, Heap.json?, Heap.view, blank]
      rfl
    · intro other apart
      rw [Store.shown, Store.shown, Store.json, Store.json, others other apart,
        Heap.json?_extended more sound.heap sound'.heap (sound.within other)]
    · intro q apart
      have within := sound.within q.space
      have found : store.get? q = s.store.get? q := by
        rw [Store.get?, Store.get?, others _ apart, Heap.find?_extended more sound.heap within]
      refine Store.reads_same found fun u here => ?_
      rw [Store.json, Store.json, Heap.json?_extended more sound.heap sound'.heap
        (sound.heap.within_find within here)]

theorem lawful_of_sound (sound : s.store.Sound) : Lawful s where
  invalid := by
    intro ref v text
    rw [outcome_set]
    cases read : StateRef.read ref with
    | error e =>
      obtain ⟨rfl, malformed⟩ := read_error read
      simp [malformed, eq_comm]
    | ok r => cases closed : r.space.readOnly <;> simp [StateRef.isRef_of_read read, closed]
  readOnly := by
    intro ref v name
    rw [outcome_set]
    cases read : StateRef.read ref with
    | error e =>
      obtain ⟨rfl, _⟩ := read_error read
      simp
    | ok r => cases closed : r.space.readOnly <;> simp [closed, @eq_comm _ name]
  written := by
    intro ref v
    rw [outcome_set]
    cases read : StateRef.read ref with
    | error e => simp
    | ok r => simp
  uncleared := by
    intro space
    rw [outcome_clear]
    simp
  cleared := by
    intro space
    rw [outcome_clear]
    simp
  refused := fun _ _ => Operation.after_of_error
  empty := fun _ => clear_leaves sound

end Answers

/-! ## Runs -/

section Runs

variable {input context : Json} {s t u : LiveStore}

/-- Operations that may be done in any state lead on. -/
theorem Reached.of_allowed {may : LiveStore → Operation → Prop} {ops : List Operation}
    (allowed : ∀ op ∈ ops, ∀ t, may t op) (reached : Reached may s t) :
    Reached may s (ops.foldl (fun t op => op.after t) t) := by
  induction ops generalizing t with
  | nil => exact reached
  | cons op ops ih =>
    rw [List.forall_mem_cons] at allowed
    exact ih allowed.2 (reached.next op (allowed.1 t))

theorem initial_sound (hi : input.Proper) (hc : context.Proper) :
    (initial input context).store.Sound :=
  Store.Sound.start hi hc

theorem Reached.sound (hi : input.Proper) (hc : context.Proper)
    (reached : Reached Possible (initial input context) t) : t.store.Sound := by
  have first : Holds Store.Sound (fun s => s.heap.Within) (initial input context).known
      (initial input context).store :=
    ⟨initial_sound hi hc, fun _ hl => False.elim (List.not_mem_nil hl)⟩
  exact (lasting_sound.reached first reached).1

theorem Reached.kept (hi : input.Proper) (hc : context.Proper)
    (reached : Reached Careful (initial input context) t) :
    (initial input context).store.Kept t.store := by
  have first : Holds (initial input context).store.Kept (fun s => Heap.Outside s.ReadOnlyObject)
      (initial input context).known (initial input context).store :=
    ⟨Store.Kept.start hi hc, fun _ hl => False.elim (List.not_mem_nil hl)⟩
  exact ((lasting_kept (initial_sound hi hc)).reached first reached).1

theorem Reached.faithful (hi : input.Proper) (hc : context.Proper)
    (reached : Reached Careful (initial input context) t) : Faithful input context t := by
  have kept := reached.kept hi hc
  have sound₀ := initial_sound hi hc
  obtain ⟨ctx, own⟩ := Store.shown_start hi hc
  have ctx' : t.store.shown .ctx = _ := kept.shown sound₀ rfl ctx
  have own' : t.store.shown .input = _ := kept.shown sound₀ rfl own
  refine ⟨own', ctx', ?_⟩
  intro w taken
  have snapshot : t.store.snapshot = .ok w := by
    rw [Operation.outcome, Operation.perform, Procedure.run_bind_ok (Procedure.run_current t),
      Procedure.run_bind, Procedure.run_check] at taken
    cases here : t.store.snapshot with
    | error e =>
      rw [here] at taken
      cases taken
    | ok w' =>
      rw [here] at taken
      cases taken
      rfl
  obtain ⟨v, shown, found⟩ := Store.find_snapshot snapshot .input
  obtain ⟨v', shown', found'⟩ := Store.find_snapshot snapshot .ctx
  rw [own'] at shown
  rw [ctx'] at shown'
  obtain rfl := Except.ok.inj shown
  obtain rfl := Except.ok.inj shown'
  exact ⟨found, found'⟩

/-- To take a JSON value in and write it is a part of a careful run. -/
theorem Reached.setJson (hi : input.Proper) (hc : context.Proper)
    (reached : Reached Careful (initial input context) t) {ref v : Json}
    (wrote : t.setJson ref v = .ok u) : Reached Careful (initial input context) u := by
  have kept := reached.kept hi hc
  have sound₀ := initial_sound hi hc
  obtain ⟨guards, outside⟩ := kept.guards.store v
  obtain ⟨objects, new⟩ := Heap.prefix_store t.store.heap v
  have wrote :
      (t.withHeap (t.store.heap.store v).2).set ref (t.store.heap.store v).1 = .ok u := wrote
  rw [← new] at guards wrote
  have held := guards.appended kept.guards.longer
  have made : Careful t (.make objects) := by
    intro c hc' f hf
    rw [kept.outside_iff sound₀]
    exact held c hc' f hf
  have careful : Careful ((Operation.make objects).after t) (.set ref (t.store.heap.store v).1) :=
    ((kept.make held).outside_iff sound₀).mpr outside
  have next := (reached.next _ made).next _ careful
  rw [Operation.after, Operation.perform_set] at next
  have same : ((Operation.make objects).after t).set ref (t.store.heap.store v).1 = .ok u :=
    wrote
  rw [same] at next
  exact next

end Runs

/-- As long as no object of the context or of the input is stored, these two stay what they
were, and JSON values that are taken in are no such objects. In every run a write and a
clearing are refused for the reference and for the namespace alone, and what is refused
changes nothing and is told to nobody. -/
theorem read_only_namespaces_stay {input context : Json} (hi : input.Proper)
    (hc : context.Proper) :
    (∀ t, Reached Careful (initial input context) t → Faithful input context t ∧
      ∀ ref v u, t.setJson ref v = .ok u → Reached Careful (initial input context) u) ∧
    ∀ t, Reached Possible (initial input context) t → Lawful t := by
  constructor
  · intro t reached
    exact ⟨reached.faithful hi hc, fun ref v u => reached.setJson hi hc⟩
  · intro t reached
    exact lawful_of_sound (reached.sound hi hc)

/-- An input with an object in it. -/
def nested : Json :=
  .obj [("x", .obj [("y", .int 1)])]

theorem nested_proper : nested.Proper :=
  ⟨by decide, ⟨by decide, trivial, trivial⟩, trivial⟩

/-- A batch is started, a variable written, a write of the input refused, scratch cleared. -/
def batchedWrites : List Operation :=
  [.batchStart, .set (.str "$vars.a.b") (.leaf (.int 1)), .set (.str "$in.x") (.leaf .null),
    .clear .tmp]

theorem nested_input_stays : nested.Proper ∧ Json.null.Proper ∧
    ∃ t, t = batchedWrites.foldl (fun t op => op.after t) (initial nested .null) ∧
      t.store.shown .vars = .ok (.obj [("a", .obj [("b", .int 1)])]) ∧
      Faithful nested .null t ∧ Lawful t := by
  have absent : Json.null.Proper := trivial
  obtain ⟨faithful, lawful⟩ := read_only_namespaces_stay nested_proper absent
  have free : ∀ (s : Store) v, Heap.Outside s.ReadOnlyObject (.leaf v) := by
    intro s v j same
    cases same
  refine ⟨nested_proper, absent, _, rfl, rfl, (faithful _ ?_).1, lawful _ ?_⟩
  · refine Reached.start.of_allowed ?_
    simp only [batchedWrites, List.forall_mem_cons]
    exact ⟨fun _ => trivial, fun t => free t.store _, fun t => free t.store _, fun _ => trivial,
      fun _ none => False.elim (List.not_mem_nil none)⟩
  · refine Reached.start.of_allowed ?_
    simp only [batchedWrites, List.forall_mem_cons]
    exact ⟨fun _ => trivial, fun _ => trivial, fun _ => trivial, fun _ => trivial,
      fun _ none => False.elim (List.not_mem_nil none)⟩

/-- The object at `$in.x` is stored in a variable and written there. -/
def leaked : LiveStore :=
  [.set (.str "$vars.a") (.cell 3), .set (.str "$vars.a.y") (.leaf (.int 2))].foldl
    (fun s op => Operation.after op s) (initial nested .null)

/-- What is read from the input can be stored, and it is written through the variable then. -/
theorem input_written_through_variable :
    Operation.outcome (.get (.str "$in.x") (.leaf .null)) (initial nested .null) =
      .ok (.value (.cell 3)) ∧
    Reached Possible (initial nested .null) leaked ∧
    leaked.store.shown .input = .ok (.obj [("x", .obj [("y", .int 2)])]) ∧
    leaked.store.shown .input ≠ .ok (Store.objectIfAbsent nested) := by
  have begun : Reached Possible (initial nested .null) (initial nested .null) := .start
  have stored := begun.next (.set (.str "$vars.a") (.cell 3)) (by decide : 3 < 5)
  have wrote := stored.next (.set (.str "$vars.a.y") (.leaf (.int 2))) trivial
  refine ⟨rfl, wrote, rfl, ?_⟩
  intro same
  cases same

end LiveStore
end Flowgraph
