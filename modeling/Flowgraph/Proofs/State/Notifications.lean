import Flowgraph.State.Live
import Mathlib.Data.List.Count

/-!
# Which changes a listener hears

A run writes to the state and opens, commits and gives up batches. A listener that records
for the whole run hears a write at once while no batch is open. A write in an open batch is
heard only where the next batch operation of the run is a commit. Another start of a batch
in between gives the write up, just as a rollback does.

The other listeners may fail and may leave, but they write nothing. The values that were
heard are not compared, since an object may have changed before a kept change is told.
-/
namespace Flowgraph

namespace LiveStore

/-- One operation of a run. -/
inductive Move where
  | set (ref : Json) (v : Slot)
  | batchStart
  | batchCommit
  | batchRollback

/-- The state after an operation; a write that is refused changes nothing. -/
def step (s : LiveStore) : Move → LiveStore
  | .set ref v =>
    match s.set ref v with
    | .ok next => next
    | .error _ => s
  | .batchStart => s.batchStart
  | .batchCommit => s.batchCommit
  | .batchRollback => s.batchRollback

def run (s : LiveStore) (moves : List Move) : LiveStore :=
  moves.foldl step s

/-- The kind, the namespace and the path of what a listener has heard, the earliest first. -/
def recorded (s : LiveStore) (name : String) : List (String × Option String × Option String) :=
  (s.deliveries.reverse.filter (·.listener == name)).map fun d => (d.type, d.space, d.path)

end LiveStore

/-- What a listener records of a change, its value apart. -/
def Change.mark (c : Change) : String × Option String × Option String :=
  (c.type, LiveStore.space? c, c.path?)

namespace LiveStore

/-- The reference to which a write goes; none where the write is refused. -/
def writtenRef (ref : Json) : Option StateRef :=
  match StateRef.read ref with
  | .ok r => if r.space.readOnly then none else some r
  | .error _ => none

/-- The next batch operation is a commit. -/
def commitsNext : List Move → Bool
  | .set .. :: rest => commitsNext rest
  | .batchCommit :: _ => true
  | _ => false

/-- The open batch is committed before it is given up, however often it is started again. -/
def commitsLater : List Move → Bool
  | .set .. :: rest => commitsLater rest
  | .batchStart :: rest => commitsLater rest
  | .batchCommit :: _ => true
  | _ => false

/-- The successful writes of a run, without those in an open batch that does not survive
what follows. -/
def heardWrites (survives : List Move → Bool) : Bool → List Move → List StateRef
  | _, [] => []
  | batching, .set ref _ :: rest =>
    (if batching && !survives rest then [] else (writtenRef ref).toList) ++
      heardWrites survives batching rest
  | _, .batchStart :: rest => heardWrites survives true rest
  | _, .batchCommit :: rest => heardWrites survives false rest
  | _, .batchRollback :: rest => heardWrites survives false rest

/-- What a listener records of a write. -/
def writeMark (r : StateRef) : String × Option String × Option String :=
  ("variable-set", some r.space.name, some (".".intercalate r.path))

/-! ## Telling one change -/

/-- A listener has one subscription and only records, and no listener writes. -/
structure Listening (s : LiveStore) (name : String) : Prop where
  once : s.subscribed.count name = 1
  records : ∃ l, s.listener? name = some l ∧ l.failure = none ∧ l.once = false
  quiet : ∀ l ∈ s.known, l.reaction = none

/-- What telling some changes may do: the listener records them, and the rest of the state
stays, subscriptions of other listeners apart. -/
structure Tells (name : String) (marks : List (String × Option String × Option String))
    (s t : LiveStore) : Prop where
  known : t.known = s.known
  count : t.subscribed.count name = s.subscribed.count name
  batching : t.batching = s.batching
  pending : t.pending = s.pending
  recorded : t.recorded name = s.recorded name ++ marks

variable {name : String} {s t u : LiveStore}
  {marks later : List (String × Option String × Option String)}

theorem Tells.refl : Tells name [] s s :=
  ⟨rfl, rfl, rfl, rfl, (List.append_nil _).symm⟩

theorem Tells.trans (first : Tells name marks s t) (second : Tells name later t u) :
    Tells name (marks ++ later) s u where
  known := second.known.trans first.known
  count := second.count.trans first.count
  batching := second.batching.trans first.batching
  pending := second.pending.trans first.pending
  recorded := by rw [second.recorded, first.recorded, List.append_assoc]

theorem Listening.of_kept (h : s.Listening name) (known : t.known = s.known)
    (count : t.subscribed.count name = s.subscribed.count name) : t.Listening name where
  once := count.trans h.once
  records := by
    obtain ⟨l, found, rest⟩ := h.records
    refine ⟨l, ?_, rest⟩
    rw [listener?, known]
    exact found
  quiet := known ▸ h.quiet

theorem Listening.of_tells (h : s.Listening name) (told : Tells name marks s t) :
    t.Listening name :=
  h.of_kept told.known told.count

theorem recorded_record (s : LiveStore) (name other : String) (c : Change) :
    (s.record other c).recorded name =
      s.recorded name ++ (if other = name then [c.mark] else []) := by
  unfold recorded record
  by_cases same : other = name
  · simp [same, Change.mark]
  · simp [same]

theorem mem_known_of_listener? {l : Listener} (h : s.listener? name = some l) : l ∈ s.known :=
  List.mem_of_find?_eq_some h

/-- A listener that writes nothing records the change; then it may fail or leave. -/
theorem hear_tells (tell : Change → LiveStore → LiveStore) (c : Change)
    (h : s.Listening name) (other : String) :
    Tells name (if other = name then [c.mark] else []) s (hear tell c s other) := by
  have record : Tells name (if other = name then [c.mark] else []) s (s.record other c) :=
    ⟨rfl, rfl, rfl, rfl, recorded_record s name other c⟩
  cases found : s.listener? other with
  | none =>
    have same : hear tell c s other = s.record other c := by
      unfold hear
      simp only [show (s.record other c).listener? other = none from found]
    exact same ▸ record
  | some l =>
    have quiet := h.quiet l (mem_known_of_listener? found)
    have known : (s.record other c).listener? other = some l := found
    cases fails : l.failure with
    | some text =>
      have same : hear tell c s other = (s.record other c).complain c text := by
        unfold hear
        simp only [known, fails]
      exact same ▸ ⟨rfl, rfl, rfl, rfl, record.recorded⟩
    | none =>
      have same : hear tell c s other =
          if l.once then (s.record other c).unsubscribe other else s.record other c := by
        unfold hear
        simp only [known, fails, quiet]
      rw [same]
      cases leaves : l.once with
      | true =>
        -- The recording listener stays, so it is another one that leaves.
        have differ : other ≠ name := by
          rintro rfl
          obtain ⟨l', found', _, stays⟩ := h.records
          obtain rfl := Option.some.inj (found.symm.trans found')
          rw [stays] at leaves
          cases leaves
        have count : ((s.record other c).unsubscribe other).subscribed.count name =
            s.subscribed.count name :=
          List.count_erase_of_ne (Ne.symm differ)
        exact ⟨rfl, count, rfl, rfl, record.recorded⟩
      | false => exact record

theorem foldl_hear_tells (tell : Change → LiveStore → LiveStore) (c : Change)
    (names : List String) (h : s.Listening name) :
    Tells name (List.replicate (names.count name) c.mark) s (names.foldl (hear tell c) s) := by
  induction names generalizing s with
  | nil => exact Tells.refl
  | cons other rest ih =>
    have first := hear_tells tell c h other
    have all := first.trans (ih (h.of_tells first))
    by_cases same : other = name
    · subst same
      simpa [List.count_cons, List.replicate_succ] using all
    · simpa [List.count_cons, same] using all

theorem tell_tells (depth : Nat) (c : Change) (h : s.Listening name) :
    Tells name [c.mark] s (tell (depth + 1) c s) := by
  have all := foldl_hear_tells (tell depth) c s.subscribed h
  rw [h.once] at all
  exact all

theorem foldl_tell_tells (depth : Nat) (changes : List Change) (h : s.Listening name) :
    Tells name (changes.map Change.mark) s
      (changes.foldl (fun s c => tell (depth + 1) c s) s) := by
  induction changes generalizing s with
  | nil => exact Tells.refl
  | cons c rest ih =>
    have first := tell_tells depth c h
    exact first.trans (ih (h.of_tells first))

/-! ## Runs -/

/-- Only an open batch keeps changes. -/
def Settled (s : LiveStore) : Prop :=
  s.batching = false → s.pending = []

/-- What a listener will have heard at the end of the rest of a run. -/
def prospect (s : LiveStore) (name : String) (rest : List Move) :
    List (String × Option String × Option String) :=
  s.recorded name ++ (if commitsNext rest then s.pending.map Change.mark else []) ++
    (heardWrites commitsNext s.batching rest).map writeMark

theorem set_of_refused {ref : Json} (refused : writtenRef ref = none) (s : LiveStore)
    (v : Slot) : s.step (.set ref v) = s := by
  unfold writtenRef at refused
  unfold step
  cases read : StateRef.read ref with
  | error e => simp [set, setWith, read, bind, Except.bind]
  | ok r =>
    simp only [read] at refused
    split at refused
    · rename_i readOnly
      have closed : s.store.writable r.space = .error (.readOnly r.space.name) := by
        cases space : r.space <;> simp [space, Namespace.readOnly, Store.writable] at readOnly ⊢
      simp [set, setWith, read, Store.write, closed, bind, Except.bind, Except.map]
    · cases refused

/-- A successful write is kept while a batch is open and told at once otherwise. -/
theorem set_of_written {ref : Json} {r : StateRef} (h : writtenRef ref = some r)
    (s : LiveStore) (v : Slot) : ∃ store, s.step (.set ref v) =
      if s.batching then { s with store, pending := s.pending ++ [.set r v] }
      else tell reactionDepth (.set r v) { s with store } := by
  unfold writtenRef at h
  cases read : StateRef.read ref with
  | error e =>
    rw [read] at h
    cases h
  | ok r' =>
    simp only [read] at h
    split at h
    · cases h
    · rename_i open'
      obtain rfl := Option.some.inj h
      obtain ⟨i, writable⟩ : ∃ i, s.store.writable r'.space = .ok i := by
        cases space : r'.space with
        | vars => exact ⟨_, rfl⟩
        | tmp => exact ⟨_, rfl⟩
        | ctx | input => simp [space, Namespace.readOnly] at open'
      refine ⟨{ s.store with heap := s.store.heap.put i r'.path v }, ?_⟩
      unfold step
      simp only [set, setWith, read, Store.write, writable, Except.map, bind, Except.bind, pure,
        Except.pure]
      cases s.batching <;> rfl

/-- Of an operation: the listener goes on listening, and what it will have heard in the end
is what it was to hear before. -/
structure Carries (name : String) (move : Move) (rest : List Move) (s t : LiveStore) : Prop where
  listening : t.Listening name
  settled : t.Settled
  prospect : t.prospect name rest = s.prospect name (move :: rest)

theorem carries_kept {ref : Json} {v : Slot} {r : StateRef} (rest : List Move)
    (h : s.Listening name) (written : writtenRef ref = some r) (batch : s.batching = true)
    (store : Store) : Carries name (.set ref v) rest s
      { s with store, pending := s.pending ++ [.set r v] } where
  listening := h.of_kept rfl rfl
  settled := by
    intro closed
    rw [batch] at closed
    cases closed
  prospect := by
    cases commit : commitsNext rest with
    | true =>
      simp [LiveStore.prospect, recorded, heardWrites, commitsNext, written, batch, commit,
        Change.mark, writeMark, Change.type, Change.path?, space?]
    | false =>
      simp [LiveStore.prospect, recorded, heardWrites, commitsNext, batch, commit]

theorem carries_told {ref : Json} {v : Slot} {r : StateRef} (rest : List Move)
    (h : s.Listening name) (settled : s.Settled) (written : writtenRef ref = some r)
    (batch : s.batching = false) (told : Tells name [(Change.set r v).mark] s t) :
    Carries name (.set ref v) rest s t where
  listening := h.of_tells told
  settled := fun _ => told.pending.trans (settled batch)
  prospect := by
    simp [LiveStore.prospect, told.recorded, told.pending, told.batching, settled batch,
      heardWrites, commitsNext, written, batch, Change.mark, writeMark, Change.type,
      Change.path?, space?]

theorem carries_commit (rest : List Move) (h : s.Listening name)
    (told : Tells name (s.pending.map Change.mark) { s with batching := false, pending := [] } t) :
    Carries name .batchCommit rest s t where
  listening := by
    have start : LiveStore.Listening { s with batching := false, pending := [] } name :=
      h.of_kept rfl rfl
    exact start.of_tells told
  settled := fun _ => told.pending
  prospect := by
    have before : LiveStore.recorded { s with batching := false, pending := [] } name =
        s.recorded name := rfl
    simp [LiveStore.prospect, told.recorded, told.pending, told.batching, before, heardWrites,
      commitsNext]

theorem step_carries (move : Move) (rest : List Move) (h : s.Listening name)
    (settled : s.Settled) : Carries name move rest s (s.step move) := by
  cases move with
  | set ref v =>
    cases written : writtenRef ref with
    | none =>
      rw [set_of_refused written]
      refine ⟨h, settled, ?_⟩
      simp only [prospect, heardWrites, written, Option.toList_none, ite_self, List.nil_append]
      rfl
    | some r =>
      obtain ⟨store, result⟩ := set_of_written written s v
      rw [result]
      by_cases batch : s.batching = true
      · rw [if_pos batch]
        exact carries_kept rest h written batch store
      · rw [if_neg batch]
        have start : Tells name [] s { s with store } := ⟨rfl, rfl, rfl, rfl, by simp [recorded]⟩
        have told := start.trans (tell_tells 399 (.set r v) (h.of_tells start))
        exact carries_told rest h settled written (by simpa using batch) told
  | batchStart =>
    refine ⟨h.of_kept rfl rfl, ?_, ?_⟩
    · intro _
      rfl
    · simp [step, batchStart, prospect, recorded, heardWrites, commitsNext]
  | batchCommit =>
    apply carries_commit rest h
    exact foldl_tell_tells 399 s.pending (h.of_kept rfl rfl)
  | batchRollback =>
    refine ⟨h.of_kept rfl rfl, ?_, ?_⟩
    · intro _
      rfl
    · simp [step, batchRollback, prospect, recorded, heardWrites, commitsNext]

theorem run_recorded (moves : List Move) (h : s.Listening name) (settled : s.Settled) :
    (s.run moves).recorded name = s.prospect name moves := by
  induction moves generalizing s with
  | nil => simp [run, prospect, heardWrites, commitsNext]
  | cons move rest ih =>
    have carried := step_carries move rest h settled
    exact (ih carried.listening carried.settled).trans carried.prospect

/-! ## Runs without batches in one another -/

/-- A batch is started while another one is open. -/
def restarts : Bool → List Move → Bool
  | _, [] => false
  | batching, .set .. :: rest => restarts batching rest
  | batching, .batchStart :: rest => batching || restarts true rest
  | _, .batchCommit :: rest => restarts false rest
  | _, .batchRollback :: rest => restarts false rest

theorem commitsNext_eq_commitsLater {moves : List Move} (plain : restarts true moves = false) :
    commitsNext moves = commitsLater moves := by
  induction moves with
  | nil => rfl
  | cons move rest ih =>
    cases move with
    | set ref v => exact ih plain
    | batchStart => cases plain
    | batchCommit | batchRollback => rfl

theorem heardWrites_of_not_restarts {batching : Bool} {moves : List Move}
    (plain : restarts batching moves = false) :
    heardWrites commitsNext batching moves = heardWrites commitsLater batching moves := by
  induction moves generalizing batching with
  | nil => rfl
  | cons move rest ih =>
    cases move with
    | set ref v =>
      have later := ih plain
      cases batching with
      | false => simp only [heardWrites, Bool.false_and, later]
      | true =>
        have same : commitsNext rest = commitsLater rest := commitsNext_eq_commitsLater plain
        simp only [heardWrites, same, later]
    | batchStart =>
      have inner : restarts true rest = false := (Bool.or_eq_false_iff.mp plain).2
      exact ih inner
    | batchCommit | batchRollback => exact ih plain

/-- On a run that begins with no batch open, a listener that only records hears, in order and
each once, the successful writes outside of batches and those in a batch whose next batch
operation is a commit. Where no batch is started within another one, only a rollback and the
end of the run give writes up. -/
theorem run_hears_committed_writes (s : LiveStore) (name : String) (h : s.Listening name)
    (closed : s.batching = false) (empty : s.pending = []) (moves : List Move) :
    (s.run moves).recorded name =
      s.recorded name ++ (heardWrites commitsNext false moves).map writeMark ∧
    (restarts false moves = false → (s.run moves).recorded name =
      s.recorded name ++ (heardWrites commitsLater false moves).map writeMark) := by
  have heard : (s.run moves).recorded name =
      s.recorded name ++ (heardWrites commitsNext false moves).map writeMark := by
    rw [run_recorded moves h fun _ => empty]
    simp [prospect, closed, empty]
  refine ⟨heard, ?_⟩
  intro plain
  rw [heard, heardWrites_of_not_restarts plain]

/-- A new state with one listener, which records. -/
def watched : LiveStore :=
  subscribe { store := .start .null .null } { name := "log" }

theorem watched_listening : watched.Listening "log" where
  once := rfl
  records := ⟨_, rfl, rfl, rfl⟩
  quiet := by decide

def setText (ref : String) : Move :=
  .set (.str ref) (.leaf (.int 1))

theorem committed_and_given_up_heard : watched.Listening "log" ∧
    restarts false [setText "$vars.a", .batchStart, setText "$tmp.b.c", .batchCommit,
      .batchStart, setText "$vars.d", .batchRollback, setText "$in.e", setText "$vars.f"] = false ∧
    (watched.run [setText "$vars.a", .batchStart, setText "$tmp.b.c", .batchCommit,
      .batchStart, setText "$vars.d", .batchRollback, setText "$in.e", setText "$vars.f"]).recorded
        "log" =
      [("variable-set", some "$vars", some "a"), ("variable-set", some "$tmp", some "b.c"),
       ("variable-set", some "$vars", some "f")] :=
  ⟨watched_listening, by decide,
    (run_hears_committed_writes watched "log" watched_listening rfl rfl _).2 (by decide)⟩

/-- A batch that is started again and then committed: the write in it is never heard. -/
theorem restarted_batch_unheard :
    commitsLater [.batchStart, .batchCommit] = true ∧
    (watched.run [.batchStart, setText "$vars.a", .batchStart, .batchCommit]).recorded "log" ≠
      watched.recorded "log" ++ (heardWrites commitsLater false
        [.batchStart, setText "$vars.a", .batchStart, .batchCommit]).map writeMark := by
  decide

end LiveStore
end Flowgraph
