import Flowgraph.Proofs.Event.Numbering
import Mathlib.Data.List.Induction

/-!
# Well-sequenced streams

A stream of events is well-sequenced where every envelope is complete and, of two events of one
run, the later one has the greater number. A check compares each event with the last one of its
run only; since the numbers of a run increase up to there, this is as good as comparing it with
all of them. The check stops at the first event with which the stream is not well-sequenced any
more, and tells what is wrong with it.
-/
namespace Flowgraph

namespace Event

/-- The run and the timestamp are there, and the number is a natural one. -/
structure Complete (e : Event) (n : Int) : Prop where
  run : e.runId.truthy = true
  number : e.seq = .int n
  natural : 0 ≤ n
  time : e.timestamp.truthy = true

/-- The first thing that is missing in an envelope. -/
inductive Incomplete (e : Event) : Fault → Prop
  | run (missing : e.runId.truthy = false) : Incomplete e .missingRunId
  | number (run : e.runId.truthy = true) (unusable : ∀ n, e.seq = .int n → n < 0) :
      Incomplete e .badSequenceNumber
  | time {n : Int} (run : e.runId.truthy = true) (number : e.seq = .int n) (natural : 0 ≤ n)
      (missing : e.timestamp.truthy = false) : Incomplete e .missingTimestamp

/-- The run of an event is named by a text, or it is missing. -/
def Keyed (e : Event) : Prop :=
  (∃ r, e.runId = .str r) ∨ e.runId.truthy = false

/-- One event can stand before another: if both are of one run, its number is the smaller one. -/
def Before (e f : Event) : Prop :=
  e.runId = f.runId → ∀ n m, e.checkEnvelope = .ok n → f.checkEnvelope = .ok m → n < m

variable {e : Event} {n m : Int}

theorem complete_iff : e.Complete n ↔ e.checkEnvelope = .ok n := by
  rw [checkEnvelope_eq_ok_iff]
  exact ⟨fun ⟨run, number, natural, time⟩ => ⟨run, number, natural, time⟩,
    fun ⟨run, number, natural, time⟩ => ⟨run, number, natural, time⟩⟩

theorem Complete.unique (first : e.Complete n) (second : e.Complete m) : n = m :=
  Json.int.inj (first.number.symm.trans second.number)

theorem incomplete_of_checkEnvelope {fault : Fault} (refused : e.checkEnvelope = .error fault) :
    e.Incomplete fault := by
  unfold checkEnvelope at refused
  cases run : e.runId.truthy with
  | false =>
    rw [run] at refused
    cases refused
    exact .run run
  | true =>
    rw [run] at refused
    cases number : e.seq with
    | int n =>
      simp only [number] at refused
      by_cases negative : n < 0
      · rw [if_neg (by simp), if_pos negative] at refused
        cases refused
        refine .number run fun k same => ?_
        rw [number] at same
        exact Json.int.inj same ▸ negative
      · rw [if_neg (by simp), if_neg negative] at refused
        cases time : e.timestamp.truthy with
        | false =>
          rw [time] at refused
          cases refused
          exact .time run number (Int.not_lt.mp negative) time
        | true =>
          rw [time] at refused
          cases refused
    | null | bool | float | str | arr | obj =>
      simp only [number] at refused
      cases refused
      refine .number run fun k same => ?_
      rw [number] at same
      cases same

theorem Incomplete.not_complete {fault : Fault} (incomplete : e.Incomplete fault) :
    ¬e.Complete n := by
  rintro ⟨run, number, natural, time⟩
  cases incomplete with
  | run missing => simp [run] at missing
  | number _ unusable =>
    have negative := unusable n number
    omega
  | time _ _ _ missing => simp [time] at missing

end Event

namespace EventStream

/-- Every envelope is complete, and of two events of one run the later one has the greater
number. -/
structure WellSequenced (events : List Event) : Prop where
  complete : ∀ e ∈ events, ∃ n, e.Complete n
  increasing : ∀ (i j : Nat) (e f : Event) (n m : Int), i < j → events[i]? = some e →
    events[j]? = some f → e.runId = f.runId → e.seq = .int n → f.seq = .int m → n < m

/-- The last event of a run in a stream. -/
def LastOfRun (events : List Event) (runId : Json) (p : Event) : Prop :=
  ∃ earlier later, events = earlier ++ p :: later ∧ p.runId = runId ∧
    ∀ f ∈ later, f.runId ≠ runId

/-- Why an event cannot be accepted behind others. -/
inductive Refusal (before : List Event) (e : Event) : Fault → Prop
  | incomplete {fault : Fault} (missing : e.Incomplete fault) : Refusal before e fault
  | duplicate {n : Int} {p : Event} (complete : e.Complete n) (last : LastOfRun before e.runId p)
      (same : p.seq = .int n) : Refusal before e (.duplicateSequenceNumber n e.runId.display)
  | outOfOrder {n m : Int} {p : Event} (complete : e.Complete n)
      (last : LastOfRun before e.runId p) (number : p.seq = .int m) (below : n < m) :
      Refusal before e (.sequenceOutOfOrder n m e.runId.display)

variable {events before : List Event} {e p q : Event} {runId : Json} {last : LastNumbers} {n : Int}

/-! ## Adding an event -/

theorem wellSequenced_iff : WellSequenced events ↔
    (∀ e ∈ events, ∃ n, e.checkEnvelope = .ok n) ∧ events.Pairwise Event.Before := by
  constructor
  · rintro ⟨complete, increasing⟩
    refine ⟨fun e member => ?_, List.pairwise_iff_getElem.mpr ?_⟩
    · obtain ⟨n, own⟩ := complete e member
      exact ⟨n, Event.complete_iff.mp own⟩
    · intro i j hi hj order same n m first second
      exact increasing i j _ _ n m order (List.getElem?_eq_getElem hi)
        (List.getElem?_eq_getElem hj) same (Event.complete_iff.mpr first).number
        (Event.complete_iff.mpr second).number
  · rintro ⟨complete, increasing⟩
    have own : ∀ e ∈ events, ∃ n, e.Complete n := by
      intro e member
      obtain ⟨n, checked⟩ := complete e member
      exact ⟨n, Event.complete_iff.mpr checked⟩
    refine ⟨own, ?_⟩
    intro i j e f n m order first second same number number'
    obtain ⟨hi, rfl⟩ := List.getElem?_eq_some_iff.mp first
    obtain ⟨hj, rfl⟩ := List.getElem?_eq_some_iff.mp second
    obtain ⟨k, there⟩ := own _ (List.getElem_mem hi)
    obtain ⟨l, there'⟩ := own _ (List.getElem_mem hj)
    obtain rfl := Json.int.inj (there.number.symm.trans number)
    obtain rfl := Json.int.inj (there'.number.symm.trans number')
    exact List.pairwise_iff_getElem.mp increasing i j hi hj order same k l
      (Event.complete_iff.mp there) (Event.complete_iff.mp there')

theorem wellSequenced_nil : WellSequenced [] :=
  wellSequenced_iff.mpr ⟨fun _ member => False.elim (List.not_mem_nil member), .nil⟩

/-- An event can be added where its number is above all those of its run. -/
theorem wellSequenced_concat : WellSequenced (before ++ [e]) ↔ WellSequenced before ∧
    ∃ n, e.Complete n ∧ ∀ p ∈ before, p.runId = e.runId → ∀ m, p.seq = .int m → m < n := by
  rw [wellSequenced_iff, wellSequenced_iff, List.forall_mem_append, List.forall_mem_singleton,
    List.pairwise_append]
  constructor
  · rintro ⟨⟨complete, n, own⟩, increasing, -, above⟩
    refine ⟨⟨complete, increasing⟩, n, Event.complete_iff.mpr own, fun p member same m number => ?_⟩
    obtain ⟨k, checked⟩ := complete p member
    obtain rfl := Json.int.inj ((Event.complete_iff.mpr checked).number.symm.trans number)
    exact above p member e (List.mem_singleton_self e) same k n checked own
  · rintro ⟨⟨complete, increasing⟩, n, own, above⟩
    refine ⟨⟨complete, n, Event.complete_iff.mp own⟩, increasing, List.pairwise_singleton _ _, ?_⟩
    rintro p member f last same k m checked checked'
    obtain rfl := List.mem_singleton.mp last
    obtain rfl := own.unique (Event.complete_iff.mpr checked')
    exact above p member same k (Event.complete_iff.mpr checked).number

theorem lastOfRun_concat : LastOfRun (events ++ [e]) runId p ↔
    e.runId = runId ∧ p = e ∨ e.runId ≠ runId ∧ LastOfRun events runId p := by
  constructor
  · rintro ⟨earlier, later, place, run, others⟩
    rcases List.eq_nil_or_concat later with rfl | ⟨front, f, rfl⟩
    · obtain ⟨-, same⟩ := List.append_inj' place rfl
      obtain rfl := (List.cons.inj same).1
      exact .inl ⟨run, rfl⟩
    · rw [List.concat_eq_append] at place others
      rw [← List.cons_append, ← List.append_assoc] at place
      obtain ⟨rfl, same⟩ := List.append_inj' place rfl
      obtain rfl := (List.cons.inj same).1
      obtain ⟨others, own⟩ := List.forall_mem_append.mp others
      exact .inr ⟨own e (List.mem_singleton_self e), earlier, front, rfl, run, others⟩
  · rintro (⟨run, rfl⟩ | ⟨own, earlier, later, rfl, run, others⟩)
    · exact ⟨events, [], rfl, run, fun _ member => False.elim (List.not_mem_nil member)⟩
    · refine ⟨earlier, later ++ [e], by simp, run, List.forall_mem_append.mpr ⟨others, ?_⟩⟩
      exact List.forall_mem_singleton.mpr own

theorem LastOfRun.unique (first : LastOfRun events runId p) (second : LastOfRun events runId q) :
    p = q := by
  induction events using List.reverseRecOn with
  | nil =>
    obtain ⟨_, _, place, _⟩ := first
    simp at place
  | append_singleton events e ih =>
    rcases lastOfRun_concat.mp first with ⟨run, rfl⟩ | ⟨other, first⟩
    · rcases lastOfRun_concat.mp second with ⟨-, rfl⟩ | ⟨other, -⟩
      · rfl
      · exact False.elim (other run)
    · rcases lastOfRun_concat.mp second with ⟨run, -⟩ | ⟨-, second⟩
      · exact False.elim (other run)
      · exact ih first second

theorem LastOfRun.mem (last : LastOfRun events runId p) : p ∈ events ∧ p.runId = runId := by
  obtain ⟨earlier, later, rfl, run, -⟩ := last
  exact ⟨by simp, run⟩

/-- Behind the events that a refusal is about, the stream is not well-sequenced. -/
theorem Refusal.not_wellSequenced {fault : Fault} (refusal : Refusal before e fault) :
    ¬WellSequenced (before ++ [e]) := by
  intro ordered
  obtain ⟨-, n, own, above⟩ := wellSequenced_concat.mp ordered
  cases refusal with
  | incomplete missing => exact missing.not_complete own
  | duplicate complete last same =>
    obtain rfl := own.unique complete
    exact Int.lt_irrefl _ (above _ last.mem.1 last.mem.2 _ same)
  | outOfOrder complete last number below =>
    obtain rfl := own.unique complete
    have order := above _ last.mem.1 last.mem.2 _ number
    omega

/-- A refusal is about a duplicate exactly where the envelope is complete and has the number of
the last event of its run. -/
theorem Refusal.duplicate_iff {fault : Fault} (refusal : Refusal before e fault) :
    (∃ n run, fault = .duplicateSequenceNumber n run) ↔
      (∃ n, e.Complete n) ∧ ∃ p, LastOfRun before e.runId p ∧ p.seq = e.seq := by
  cases refusal with
  | incomplete missing =>
    constructor
    · rintro ⟨n, run, rfl⟩
      cases missing
    · rintro ⟨⟨n, complete⟩, -⟩
      exact False.elim (missing.not_complete complete)
  | duplicate complete last same =>
    exact ⟨fun _ => ⟨⟨_, complete⟩, _, last, same.trans complete.number.symm⟩,
      fun _ => ⟨_, _, rfl⟩⟩
  | outOfOrder complete last number below =>
    constructor
    · rintro ⟨n, run, same⟩
      cases same
    · rintro ⟨-, q, last', same⟩
      obtain rfl := last.unique last'
      have equal := Json.int.inj (number.symm.trans (same.trans complete.number))
      omega

/-! ## Checking the next event -/

theorem get?_cons (last : LastNumbers) (r q : String) (n : Int) :
    LastNumbers.get? ((.str r, n) :: last) (.str q) =
      if r = q then some n else last.get? (.str q) := by
  unfold LastNumbers.get?
  rw [List.find?_cons, Json.alike_str]
  by_cases same : r = q
  · simp [same]
  · rw [beq_false_of_ne same, if_neg same]

/-- How the check of the next event can end. -/
inductive Next (last : LastNumbers) (e : Event) : Except Fault LastNumbers → Prop
  | incomplete {fault : Fault} (missing : e.Incomplete fault) : Next last e (.error fault)
  | accepted {n : Int} {r : String} (complete : e.Complete n) (named : e.runId = .str r)
      (above : ∀ m, last.get? (.str r) = some m → m < n) : Next last e (.ok ((.str r, n) :: last))
  | duplicate {n : Int} {r : String} (complete : e.Complete n) (named : e.runId = .str r)
      (found : last.get? (.str r) = some n) :
      Next last e (.error (.duplicateSequenceNumber n e.runId.display))
  | outOfOrder {n m : Int} {r : String} (complete : e.Complete n) (named : e.runId = .str r)
      (found : last.get? (.str r) = some m) (below : n < m) :
      Next last e (.error (.sequenceOutOfOrder n m e.runId.display))

theorem checkNext_outcome (keyed : e.Keyed) (last : LastNumbers) :
    Next last e (checkNext last e) := by
  unfold checkNext
  cases checked : e.checkEnvelope with
  | error fault => exact .incomplete (Event.incomplete_of_checkEnvelope checked)
  | ok n =>
    have complete := Event.complete_iff.mpr checked
    obtain ⟨r, named⟩ : ∃ r, e.runId = .str r :=
      keyed.resolve_right fun missing => by simp [complete.run] at missing
    have entered : checkRunId e.runId = .ok () := by rw [named]; rfl
    simp only [bind, Except.bind, entered]
    rw [named]
    cases found : last.get? (.str r) with
    | none => exact .accepted complete named (by simp [found])
    | some m =>
      by_cases same : n = m
      · subst same
        rw [← named]
        simpa [throw, throwThe, MonadExceptOf.throw] using Next.duplicate complete named found
      · by_cases below : n < m
        · rw [← named]
          simpa [throw, throwThe, MonadExceptOf.throw, same, below] using
            Next.outOfOrder complete named found below
        · simp only [same, below, if_false]
          refine .accepted complete named fun k found' => ?_
          obtain rfl := Option.some.inj (found.symm.trans found')
          omega

/-! ## Checking a stream -/

/-- What the numbers that are kept say of the events so far. -/
structure Tracks (events : List Event) (last : LastNumbers) : Prop where
  newest : ∀ r m, last.get? (.str r) = some m →
    ∃ p, LastOfRun events (.str r) p ∧ p.seq = .int m
  greatest : ∀ r m, last.get? (.str r) = some m →
    ∀ p ∈ events, p.runId = .str r → ∀ k, p.seq = .int k → k ≤ m
  fresh : ∀ r, last.get? (.str r) = none → ∀ p ∈ events, p.runId ≠ .str r

theorem tracks_nil : Tracks [] [] where
  newest := by rintro r m ⟨⟩
  greatest := by rintro r m ⟨⟩
  fresh _ _ _ member := False.elim (List.not_mem_nil member)

theorem Tracks.concat {r : String} (tracks : Tracks events last) (complete : e.Complete n)
    (named : e.runId = .str r) (above : ∀ m, last.get? (.str r) = some m → m < n) :
    Tracks (events ++ [e]) ((.str r, n) :: last) where
  newest := by
    intro q m found
    rw [get?_cons] at found
    split at found
    · rename_i same
      obtain rfl := Option.some.inj found
      exact ⟨e, lastOfRun_concat.mpr (.inl ⟨same ▸ named, rfl⟩), complete.number⟩
    · rename_i other
      obtain ⟨p, last, number⟩ := tracks.newest q m found
      have apart : e.runId ≠ .str q := by simpa [named] using other
      exact ⟨p, lastOfRun_concat.mpr (.inr ⟨apart, last⟩), number⟩
  greatest := by
    intro q m found p member run k number
    rw [get?_cons] at found
    rcases List.mem_append.mp member with old | new
    · split at found
      · rename_i same
        subst same
        obtain rfl := Option.some.inj found
        -- The new number is above the last one, and so above those that were no greater.
        cases earlier : last.get? (.str r) with
        | none => exact False.elim (tracks.fresh r earlier p old run)
        | some l =>
          have up := above l earlier
          have below := tracks.greatest r l earlier p old run k number
          omega
      · exact tracks.greatest q m found p old run k number
    · obtain rfl := List.mem_singleton.mp new
      obtain rfl := Json.str.inj (named.symm.trans run)
      rw [if_pos rfl] at found
      obtain rfl := Option.some.inj found
      exact Int.le_of_eq (Json.int.inj (number.symm.trans complete.number))
  fresh := by
    intro q missing p member
    rw [get?_cons] at missing
    split at missing
    · cases missing
    · rename_i other
      rcases List.mem_append.mp member with old | new
      · exact tracks.fresh q missing p old
      · obtain rfl := List.mem_singleton.mp new
        simpa [named] using other

/-- How the check of a stream can go, whatever comes behind it. -/
inductive Checked (events : List Event) : Prop
  | through {last : LastNumbers} (ordered : WellSequenced events) (tracks : Tracks events last)
      (onward : ∀ rest, checkFrom [] (events ++ rest) = checkFrom last rest)
  | stopped {before after : List Event} {e : Event} {fault : Fault}
      (place : events = before ++ e :: after) (ordered : WellSequenced before)
      (refusal : Refusal before e fault)
      (fails : ∀ rest, checkFrom [] (before ++ e :: rest) = .error fault)

theorem checked_concat {last : LastNumbers} (keyed : e.Keyed) (ordered : WellSequenced before)
    (tracks : Tracks before last)
    (onward : ∀ rest, checkFrom [] (before ++ rest) = checkFrom last rest) :
    Checked (before ++ [e]) := by
  have stops {fault : Fault} (next : checkNext last e = .error fault)
      (refusal : Refusal before e fault) : Checked (before ++ [e]) := by
    refine .stopped rfl ordered refusal fun rest => ?_
    rw [onward, checkFrom, next]
    rfl
  have outcome := checkNext_outcome keyed last
  cases next : checkNext last e with
  | error fault =>
    rw [next] at outcome
    cases outcome with
    | incomplete missing => exact stops next (.incomplete missing)
    | duplicate complete named found =>
      obtain ⟨p, last, number⟩ := tracks.newest _ _ found
      exact stops next (.duplicate complete (named ▸ last) number)
    | outOfOrder complete named found below =>
      obtain ⟨p, last, number⟩ := tracks.newest _ _ found
      exact stops next (.outOfOrder complete (named ▸ last) number below)
  | ok after =>
    rw [next] at outcome
    cases outcome with
    | @accepted n r complete named above =>
      refine .through (wellSequenced_concat.mpr ⟨ordered, n, complete, ?_⟩)
        (tracks.concat complete named above) fun rest => ?_
      · intro p member run m number
        rw [named] at run
        cases found : last.get? (.str r) with
        | none => exact False.elim (tracks.fresh r found p member run)
        | some k =>
          exact Int.lt_of_le_of_lt (tracks.greatest r k found p member run m number)
            (above k found)
      · rw [List.append_assoc, List.singleton_append, onward, checkFrom, next]
        rfl

/-- Every stream is checked to its end, or to the first event that is refused. -/
theorem checked (keyed : ∀ e ∈ events, e.Keyed) : Checked events := by
  -- From the end, since what stops the check of a beginning stops it whatever follows.
  induction events using List.reverseRecOn with
  | nil => exact .through wellSequenced_nil tracks_nil fun rest => rfl
  | append_singleton events e ih =>
    obtain ⟨others, own⟩ := List.forall_mem_append.mp keyed
    cases ih others with
    | through ordered tracks onward =>
      exact checked_concat (own e (List.mem_singleton_self e)) ordered tracks onward
    | stopped place ordered refusal fails =>
      exact .stopped (by rw [place, List.append_assoc, List.cons_append]) ordered refusal fails

theorem WellSequenced.of_append {after : List Event} (ordered : WellSequenced (before ++ after)) :
    WellSequenced before := by
  rw [wellSequenced_iff] at ordered ⊢
  exact ⟨fun e member => ordered.1 e (List.mem_append_left after member),
    (List.pairwise_append.mp ordered.2).1⟩

theorem check_of_error {fault : Fault} (fails : checkFrom [] events = .error fault) :
    check events = .error fault := by
  rw [check, fails]
  rfl

theorem check_eq_ok {kept : List Event} (accepted : check events = .ok kept) : kept = events := by
  rw [check] at accepted
  cases through : checkFrom [] events with
  | error fault =>
    rw [through] at accepted
    cases accepted
  | ok =>
    rw [through] at accepted
    exact (Except.ok.inj accepted).symm

/-- What has been checked is accepted where it is well-sequenced, and refused where it is not. -/
theorem Checked.accepted_iff (checked : Checked events) :
    check events = .ok events ↔ WellSequenced events := by
  cases checked with
  | through ordered tracks onward =>
    refine ⟨fun _ => ordered, fun _ => ?_⟩
    have whole := onward []
    rw [List.append_nil] at whole
    rw [check, whole]
    rfl
  | @stopped before after e fault place ordered refusal fails =>
    subst place
    constructor
    · intro accepted
      rw [check_of_error (fails after)] at accepted
      cases accepted
    · intro whole
      rw [← List.singleton_append, ← List.append_assoc] at whole
      exact False.elim (refusal.not_wellSequenced whole.of_append)

/-- A stream is accepted, and then unchanged, exactly where all envelopes are complete and
the numbers increase within each run. -/
theorem check_eq_ok_iff {events : List Event} (named : ∀ e ∈ events, ∃ r, e.runId = .str r) :
    check events = .ok events ↔
      (∀ e ∈ events, ∃ n, e.checkEnvelope = .ok n) ∧ events.Pairwise Event.Before := by
  rw [(checked fun e member => .inl (named e member)).accepted_iff, wellSequenced_iff]

/-- A stream of events whose runs are named by texts, or missing, is accepted exactly where it is
well-sequenced, and then unchanged. Otherwise the check stops at the first event with which the
stream is not well-sequenced any more: it says the first thing that is missing in its envelope, or
else how its number compares with that of the last event of its run. -/
theorem check_accepts_exactly_wellSequenced {events : List Event}
    (keyed : ∀ e ∈ events, e.Keyed) :
    (check events = .ok events ↔ WellSequenced events) ∧
    (∀ kept, check events = .ok kept → kept = events) ∧
    (¬WellSequenced events → ∃ before e after fault, events = before ++ e :: after ∧
      WellSequenced before ∧ ¬WellSequenced (before ++ [e]) ∧ Refusal before e fault ∧
      (∀ rest, check (before ++ e :: rest) = .error fault) ∧
      ((∃ n run, fault = .duplicateSequenceNumber n run) ↔
        (∃ n, e.Complete n) ∧ ∃ p, LastOfRun before e.runId p ∧ p.seq = e.seq)) := by
  have outcome := checked keyed
  refine ⟨outcome.accepted_iff, fun kept => check_eq_ok, fun broken => ?_⟩
  cases outcome with
  | through ordered => exact False.elim (broken ordered)
  | @stopped before after e fault place ordered refusal fails =>
    exact ⟨before, e, after, fault, place, ordered, refusal.not_wellSequenced, refusal,
      fun rest => check_of_error (fails rest), refusal.duplicate_iff⟩

/-- An event of a run with a number. -/
def numbered (run : String) (n : Int) : Event :=
  { runId := .str run, seq := .int n, timestamp := .str "noon", type := .stageStarted }

/-- Two runs that take turns. -/
def interleaved : List Event :=
  [numbered "a" 0, numbered "b" 5, numbered "a" 2, numbered "b" 6]

/-- One run that comes to its number again, and then falls behind it. -/
def repeated : List Event :=
  [numbered "a" 1, numbered "b" 1, numbered "a" 1, numbered "b" 0]

theorem interleaved_accepted_repeated_refused :
    (∀ e ∈ interleaved ++ repeated, e.Keyed) ∧ check interleaved = .ok interleaved ∧
    WellSequenced interleaved ∧ ¬WellSequenced repeated ∧
    ∃ before e after, repeated = before ++ e :: after ∧ WellSequenced before ∧
      ¬WellSequenced (before ++ [e]) ∧
      ∀ rest, check (before ++ e :: rest) = .error (.duplicateSequenceNumber 1 "a") := by
  have keyed : ∀ e ∈ interleaved ++ repeated, e.Keyed := by
    intro e member
    have run : ∀ f ∈ interleaved ++ repeated, f.runId = .str "a" ∨ f.runId = .str "b" := by
      simp [interleaved, repeated, numbered]
    exact .inl ((run e member).elim (⟨"a", ·⟩) (⟨"b", ·⟩))
  obtain ⟨first, second⟩ := List.forall_mem_append.mp keyed
  obtain ⟨accepted, -⟩ := check_accepts_exactly_wellSequenced first
  obtain ⟨refused, -, stops⟩ := check_accepts_exactly_wellSequenced second
  have through : check interleaved = .ok interleaved := by rfl
  have duplicate : check repeated = .error (.duplicateSequenceNumber 1 "a") := by rfl
  have broken : ¬WellSequenced repeated := by
    intro ordered
    have kept := refused.mpr ordered
    rw [duplicate] at kept
    cases kept
  obtain ⟨before, e, after, fault, place, ordered, unordered, -, fails, -⟩ := stops broken
  obtain rfl : fault = .duplicateSequenceNumber 1 "a" := by
    have same := fails after
    rw [← place, duplicate] at same
    exact (Except.error.inj same).symm
  exact ⟨keyed, through, accepted.mp through, broken, before, e, after, place, ordered, unordered,
    fails⟩

end EventStream
end Flowgraph
