import Flowgraph.Event.Mapper
import Flowgraph.Proofs.Procedure

/-!
# Numbers of mapped events

A mapper of provider events is a procedure on its sequencer. It may fail before it issues an
event, for the provider event or for the settings, and while it issues one. In each case the
number stays free for the next event, since it is taken last. So the events of the calls
that succeed are numbered without a gap.

What an event says besides its number and its run is not the matter here.
-/
namespace Flowgraph

theorem Event.checkEnvelope_eq_ok_iff {e : Event} {n : Int} : e.checkEnvelope = .ok n ↔
    e.runId.truthy = true ∧ e.seq = .int n ∧ 0 ≤ n ∧ e.timestamp.truthy = true := by
  unfold checkEnvelope
  cases named : e.runId.truthy with
  | false => simp
  | true =>
    cases number : e.seq with
    | int k =>
      by_cases negative : k < 0
      · simp [negative]
        omega
      · cases timed : e.timestamp.truthy with
        | false => simp [negative]
        | true =>
          simp [negative]
          omega
    | null | bool | float | str | arr | obj => simp

open Procedure

namespace Sequencer

/-- Issues an event, step by step. -/
def emit (type : EventType) (stageId payload : Json) : Procedure Sequencer Fault Event := do
  let s ← current
  let event : Event :=
    { runId := s.runId, seq := s.next, timestamp := s.timestamp, type, stageId,
      payload := if payload.truthy then payload else .obj [] }
  let n ← check event.checkEnvelope
  change fun s => { s with next := .int (n + 1) }
  return event

/-- To issue an event step by step is to issue it, and leaves everything where that fails. -/
theorem emit_run (s : Sequencer) (type : EventType) (stageId payload : Json) :
    (emit type stageId payload).run s =
      match s.issue type stageId payload with
      | .ok (e, t) => (.ok e, t)
      | .error f => (.error f, s) := by
  rw [emit, run_bind_ok (run_current s), run_bind, run_check, issue]
  generalize Event.checkEnvelope _ = checked
  cases checked <;> rfl

/-- An event that is issued has a complete envelope with the next number of its run. -/
theorem issue_eq_ok {s t : Sequencer} {type : EventType} {stageId payload : Json} {e : Event}
    (issued : s.issue type stageId payload = .ok (e, t)) :
    ∃ n, s.next = .int n ∧ e.checkEnvelope = .ok n ∧ e.runId = s.runId ∧
      t = { s with next := .int (n + 1) } := by
  unfold issue at issued
  dsimp only at issued
  generalize event : Event.mk _ s.runId s.next s.timestamp type stageId _ = e' at issued
  cases checked : e'.checkEnvelope with
  | error f =>
    rw [checked] at issued
    cases issued
  | ok n =>
    rw [checked] at issued
    cases issued
    obtain ⟨_, number, _, _⟩ := Event.checkEnvelope_eq_ok_iff.mp checked
    rw [← event] at number
    exact ⟨n, number, checked, by rw [← event], rfl⟩

/-- An event that is issued carries the payload that it is issued with. -/
theorem issue_payload {s t : Sequencer} {type : EventType} {stageId : Json}
    {payload : Fields} {e : Event} (issued : s.issue type stageId (.obj payload) = .ok (e, t)) :
    e.payload = .obj payload := by
  unfold issue at issued
  dsimp only at issued
  cases checked : Event.checkEnvelope _ with
  | error f =>
    rw [checked] at issued
    cases issued
  | ok n =>
    rw [checked] at issued
    cases issued
    cases payload <;> rfl

end Sequencer

namespace EventMapper

/-- The limit on texts, where an event needs it. -/
def limitFor (source : Settings.Source) (e : ProviderEvent) : Except Fault Int :=
  limitAsked (Settings.load source) e

/-- Maps an event, step by step. -/
def perform (source : Settings.Source) (e : ProviderEvent) : Procedure Sequencer Fault Event := do
  let limit ← check (limitFor source e)
  let (type, payload) ← check (content limit e)
  Sequencer.emit type (envelopeStage e.stageId) (.obj payload)

/-- To map an event step by step is to map it, and leaves everything where that fails. -/
theorem perform_run (source : Settings.Source) (e : ProviderEvent) (s : Sequencer) :
    (perform source e).run s =
      match limitFor source e >>= fun limit => map limit s e with
      | .ok (event, t) => (.ok event, t)
      | .error f => (.error f, s) := by
  rw [perform, run_bind, run_check]
  cases limitFor source e with
  | error f => rfl
  | ok limit =>
    have mapped : (Except.ok limit >>= fun limit => map limit s e : Except Fault _) =
        map limit s e := rfl
    dsimp only
    rw [mapped, map, run_bind, run_check]
    cases content limit e with
    | error f => rfl
    | ok made =>
      dsimp only
      rw [Sequencer.emit_run]
      rfl

/-- A call of a mapper, with what the clock shows and where settings come from then. -/
structure Call where
  given : Given
  time : Json
  source : Settings.Source

def Call.perform (c : Call) : Procedure Sequencer Fault Event := do
  change fun s => { s with timestamp := c.time }
  let e ← check c.given.read
  EventMapper.perform c.source e

/-- What the calls of a run return or raise. -/
def outcomes : List Call → Sequencer → List (Except Fault Event)
  | [], _ => []
  | c :: rest, s => (c.perform.run s).1 :: outcomes rest (c.perform.run s).2

/-- The sequencer after the calls of a run. -/
def afterCalls (calls : List Call) (s : Sequencer) : Sequencer :=
  calls.foldl (fun s c => (c.perform.run s).2) s

/-- The events of the calls that succeed. -/
def issued (calls : List Call) (s : Sequencer) : List Event :=
  (outcomes calls s).filterMap Except.toOption

theorem map_eq_ok {limit : Int} {s t : Sequencer} {e : ProviderEvent} {event : Event}
    (mapped : map limit s e = .ok (event, t)) :
    ∃ n, s.next = .int n ∧ event.checkEnvelope = .ok n ∧ event.runId = s.runId ∧
      t = { s with next := .int (n + 1) } := by
  unfold map at mapped
  cases made : content limit e with
  | error f =>
    rw [made] at mapped
    cases mapped
  | ok content =>
    rw [made] at mapped
    exact Sequencer.issue_eq_ok mapped

/-- A call that succeeds takes the next number, and one that fails takes none. -/
theorem perform_cases (c : Call) (s : Sequencer) :
    (∃ e n, c.perform.run s = (.ok e, { s with next := .int (n + 1), timestamp := c.time }) ∧
      s.next = .int n ∧ e.checkEnvelope = .ok n ∧ e.runId = s.runId) ∨
    ∃ f, c.perform.run s = (.error f, { s with timestamp := c.time }) := by
  rw [Call.perform, run_bind_ok (run_change _ s), run_bind, run_check]
  cases c.given.read with
  | error f => exact .inr ⟨f, rfl⟩
  | ok e =>
    dsimp only
    rw [perform_run]
    cases limitFor c.source e with
    | error f => exact .inr ⟨f, rfl⟩
    | ok limit =>
      dsimp only [bind, Except.bind]
      cases mapped : map limit { s with timestamp := c.time } e with
      | error f => exact .inr ⟨f, rfl⟩
      | ok made =>
        obtain ⟨event, t⟩ := made
        obtain ⟨n, next, complete, named, rfl⟩ := map_eq_ok mapped
        exact .inl ⟨event, n, rfl, next, complete, named⟩

/-- The events of a run are numbered from the first number on, and the next number is the
one after the last of them. -/
theorem issued_numbered (calls : List Call) {s : Sequencer} {n : Int} (next : s.next = .int n) :
    (∀ (i : Nat) (e : Event), (issued calls s)[i]? = some e →
      e.checkEnvelope = .ok (n + i) ∧ e.runId = s.runId) ∧
    (afterCalls calls s).next = .int (n + (issued calls s).length) := by
  induction calls generalizing s n with
  | nil => simpa [issued, outcomes, afterCalls] using next
  | cons c rest ih =>
    rcases perform_cases c s with ⟨e, k, performed, number, complete, named⟩ | ⟨f, performed⟩
    · obtain rfl : n = k := Json.int.inj (next.symm.trans number)
      have first : issued (c :: rest) s = e :: issued rest (c.perform.run s).2 := by
        rw [issued, outcomes, performed]
        rfl
      obtain ⟨numbered, last⟩ := ih (s := (c.perform.run s).2) (n := n + 1) (by rw [performed])
      rw [performed] at numbered
      rw [first]
      constructor
      · intro i e' at_
        cases i with
        | zero =>
          obtain rfl : e = e' := by simpa using at_
          simpa using ⟨complete, named⟩
        | succ i =>
          obtain ⟨complete', named'⟩ := numbered i e' (by simpa [performed] using at_)
          refine ⟨?_, named'⟩
          rw [complete']
          congr 1
          push_cast
          omega
      · rw [afterCalls, List.foldl_cons]
        rw [afterCalls] at last
        rw [last, List.length_cons]
        congr 1
        push_cast
        omega
    · have none : issued (c :: rest) s = issued rest { s with timestamp := c.time } := by
        rw [issued, outcomes, performed]
        rfl
      have after : afterCalls (c :: rest) s = afterCalls rest { s with timestamp := c.time } := by
        rw [afterCalls, List.foldl_cons, performed]
        rfl
      rw [none, after]
      exact ih (s := { s with timestamp := c.time }) next

end EventMapper
end Flowgraph
