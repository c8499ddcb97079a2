import Flowgraph.Proofs.Event.StreamOrder
import Mathlib.Data.List.Nodup

/-!
# Streams of several runs

The events that one mapper issues are numbered one after the other, so that the events of
several runs make a well-sequenced stream however they are merged, as long as each run keeps its
order.
-/
namespace Flowgraph

/-! ## Merging -/

/-- A merge of some lists that keeps the order of each. -/
inductive Interleaves {α : Type} : List (List α) → List α → Prop
  | done {lists : List (List α)} : (∀ l ∈ lists, l = []) → Interleaves lists []
  | next {lists : List (List α)} {i : Nat} {a : α} {l merged : List α} :
      lists[i]? = some (a :: l) → Interleaves (lists.set i l) merged →
      Interleaves lists (a :: merged)

namespace Interleaves

variable {α : Type} {lists : List (List α)} {merged : List α}

/-- What is left of a list when one of the lists has lost its head. -/
theorem suffix_of_set {i j : Nat} {a : α} {l m : List α} (here : lists[i]? = some (a :: l))
    (there : (lists.set i l)[j]? = some m) : ∃ m', lists[j]? = some m' ∧ m <:+ m' := by
  rw [List.getElem?_set] at there
  split at there
  · rename_i same
    split at there
    · obtain rfl := Option.some.inj there
      exact ⟨a :: l, same ▸ here, List.suffix_cons a l⟩
    · cases there
  · exact ⟨m, there, List.suffix_refl m⟩

theorem exists_of_mem (h : Interleaves lists merged) {a : α} (member : a ∈ merged) :
    ∃ (i : Nat) (l : List α), lists[i]? = some l ∧ a ∈ l := by
  induction h with
  | done => exact False.elim (List.not_mem_nil member)
  | next here _ ih =>
    rcases List.mem_cons.mp member with rfl | member
    · exact ⟨_, _, here, List.mem_cons_self⟩
    · obtain ⟨j, m, there, member⟩ := ih member
      obtain ⟨m', there, left⟩ := suffix_of_set here there
      exact ⟨j, m', there, left.mem member⟩

/-- A relation between the members of a merge holds where it holds within each list and
between any two of them. -/
theorem pairwise {R : α → α → Prop} (h : Interleaves lists merged)
    (within : ∀ (i : Nat) (l : List α), lists[i]? = some l → l.Pairwise R)
    (across : ∀ (i j : Nat) (l m : List α), i ≠ j → lists[i]? = some l → lists[j]? = some m →
      ∀ a ∈ l, ∀ b ∈ m, R a b) : merged.Pairwise R := by
  induction h with
  | done => exact List.Pairwise.nil
  | @next lists i a l merged here rest ih =>
    obtain ⟨first, _⟩ := List.pairwise_cons.mp (within i _ here)
    refine List.pairwise_cons.mpr ⟨?_, ih ?_ ?_⟩
    · intro b hb
      obtain ⟨j, m, there, member⟩ := rest.exists_of_mem hb
      by_cases same : i = j
      · subst same
        have inside : i < lists.length := (List.getElem?_eq_some_iff.mp here).1
        rw [List.getElem?_set, if_pos rfl, if_pos inside] at there
        obtain rfl := Option.some.inj there
        exact first b member
      · obtain ⟨m', there, left⟩ := suffix_of_set here there
        exact across i j _ _ same here there a List.mem_cons_self b (left.mem member)
    · intro j m there
      obtain ⟨m', there, left⟩ := suffix_of_set here there
      exact (within j m' there).sublist left.sublist
    · intro j k m m₂ apart there there₂ b hb c hc
      obtain ⟨m', there, left⟩ := suffix_of_set here there
      obtain ⟨m₂', there₂, left₂⟩ := suffix_of_set here there₂
      exact across j k m' m₂' apart there there₂ b (left.mem hb) c (left₂.mem hc)

end Interleaves

/-! ## Mappers of several runs -/

namespace EventMapper

open Procedure

/-- A mapper of one run, with the calls that are made of it. -/
structure Mapping where
  runId : String
  start : Int
  calls : List Call

namespace Mapping

/-- The sequencer of a mapper before its first call, when the clock was not asked yet. -/
def sequencer (m : Mapping) : Sequencer :=
  ⟨.str m.runId, .int m.start, .null⟩

def events (m : Mapping) : List Event :=
  issued m.calls m.sequencer

/-- The events of a mapper are numbered without a gap, whichever of its calls fail. -/
structure GapFree (m : Mapping) : Prop where
  begins : Sequencer.start (.str m.runId) (.int m.start) .null = .ok m.sequencer
  numbered : ∀ (i : Nat) (e : Event), m.events[i]? = some e →
    e.checkEnvelope = .ok (m.start + i) ∧ e.seq = .int (m.start + i) ∧ e.runId = .str m.runId
  last : (afterCalls m.calls m.sequencer).next = .int (m.start + m.events.length)
  refused : ∀ (earlier : List Call) (c : Call) (f : Fault),
    (c.perform.run (afterCalls earlier m.sequencer)).1 = .error f →
      (c.perform.run (afterCalls earlier m.sequencer)).2.next =
        (afterCalls earlier m.sequencer).next

variable {m : Mapping}

theorem gapFree (named : m.runId ≠ "") : m.GapFree := by
  obtain ⟨numbered, last⟩ := issued_numbered m.calls (s := m.sequencer) rfl
  refine ⟨?_, ?_, last, ?_⟩
  · have truthy : (Json.str m.runId).truthy = true := by simpa [Json.truthy] using named
    rw [Sequencer.start, if_pos truthy]
    rfl
  · intro i e at_
    obtain ⟨complete, run⟩ := numbered i e at_
    exact ⟨complete, (Event.checkEnvelope_eq_ok_iff.mp complete).2.1, run⟩
  · intro earlier c f failed
    rcases perform_cases c (afterCalls earlier m.sequencer) with
      ⟨e, n, performed, _⟩ | ⟨f', performed⟩
    · rw [performed] at failed
      cases failed
    · rw [performed]

theorem runId_of_mem {e : Event} (member : e ∈ m.events) :
    e.runId = .str m.runId ∧ ∃ n, e.checkEnvelope = .ok n := by
  obtain ⟨i, at_⟩ := List.mem_iff_getElem?.mp member
  obtain ⟨complete, run⟩ := (issued_numbered m.calls (s := m.sequencer) rfl).1 i e at_
  exact ⟨run, _, complete⟩

theorem events_pairwise (m : Mapping) : m.events.Pairwise Event.Before := by
  obtain ⟨numbered, _⟩ := issued_numbered m.calls (s := m.sequencer) rfl
  rw [List.pairwise_iff_getElem]
  intro i j hi hj order _ n k complete complete'
  obtain ⟨first, _⟩ := numbered i _ (List.getElem?_eq_getElem hi)
  obtain ⟨second, _⟩ := numbered j _ (List.getElem?_eq_getElem hj)
  obtain rfl := Except.ok.inj (first.symm.trans complete)
  obtain rfl := Except.ok.inj (second.symm.trans complete')
  omega

end Mapping

/-- Every mapper numbers its events without a gap, and however the events of several runs are
merged, the stream is accepted as it is. -/
theorem numbering_gap_free (mappings : List Mapping) (named : ∀ m ∈ mappings, m.runId ≠ "")
    (distinct : (mappings.map (·.runId)).Nodup) :
    (∀ m ∈ mappings, m.GapFree) ∧
      ∀ merged, Interleaves (mappings.map (·.events)) merged →
        EventStream.check merged = .ok merged ∧ ∀ e ∈ merged, ∃ n, e.checkEnvelope = .ok n := by
  refine ⟨fun m hm => Mapping.gapFree (named m hm), ?_⟩
  intro merged interleaves
  have issuer : ∀ {i : Nat} {l : List Event}, (mappings.map (·.events))[i]? = some l →
      ∃ m, mappings[i]? = some m ∧ m.events = l := by
    intro i l at_
    rwa [List.getElem?_map, Option.map_eq_some_iff] at at_
  have members : ∀ e ∈ merged, (∃ r, e.runId = .str r) ∧ ∃ n, e.checkEnvelope = .ok n := by
    intro e he
    obtain ⟨i, l, at_, member⟩ := interleaves.exists_of_mem he
    obtain ⟨m, _, rfl⟩ := issuer at_
    obtain ⟨run, complete⟩ := Mapping.runId_of_mem member
    exact ⟨⟨_, run⟩, complete⟩
  have complete : ∀ e ∈ merged, ∃ n, e.checkEnvelope = .ok n := fun e he => (members e he).2
  refine ⟨?_, complete⟩
  rw [EventStream.check_eq_ok_iff fun e he => (members e he).1]
  refine ⟨complete, interleaves.pairwise ?_ ?_⟩
  · intro i l at_
    obtain ⟨m, _, rfl⟩ := issuer at_
    exact m.events_pairwise
  · intro i j l l' apart at_ at_' e he f hf same
    obtain ⟨m, here, rfl⟩ := issuer at_
    obtain ⟨m', there, rfl⟩ := issuer at_'
    rw [(Mapping.runId_of_mem he).1, (Mapping.runId_of_mem hf).1] at same
    have first : (mappings.map (·.runId))[i]? = some m.runId := by rw [List.getElem?_map, here]; rfl
    have second : (mappings.map (·.runId))[j]? = some m'.runId := by
      rw [List.getElem?_map, there]; rfl
    rw [← Json.str.inj same, ← first] at second
    have inside := (List.getElem?_eq_some_iff.mp first).1
    exact False.elim (apart ((List.getElem?_inj inside distinct).mp second.symm))

/-- One run with a call that fails between two others, and one run with a single call. -/
def twoRuns : List Mapping :=
  let start : Call := ⟨.event (.stepStart (.str "s") (.str "fast") .null), .str "t", []⟩
  let bad : Call := ⟨.written (.obj [("type", .str "step-pause")]), .str "t", []⟩
  [⟨"a", 0, [start, bad, start]⟩, ⟨"b", 5, [start]⟩]

theorem two_runs_merge : (∀ m ∈ twoRuns, m.runId ≠ "") ∧ (twoRuns.map (·.runId)).Nodup ∧
    (∀ m ∈ twoRuns, m.GapFree) ∧
    ∃ merged, merged.map (fun e => (e.runId, e.seq)) =
        [(.str "a", .int 0), (.str "b", .int 5), (.str "a", .int 1)] ∧
      EventStream.check merged = .ok merged ∧ ∀ e ∈ merged, ∃ n, e.checkEnvelope = .ok n := by
  have named : ∀ m ∈ twoRuns, m.runId ≠ "" := by decide
  have distinct : (twoRuns.map (·.runId)).Nodup := by decide
  obtain ⟨gapFree, accepted⟩ := numbering_gap_free twoRuns named distinct
  have merge : ∃ merged, Interleaves (twoRuns.map (·.events)) merged ∧
      merged.map (fun e => (e.runId, e.seq)) =
        [(.str "a", .int 0), (.str "b", .int 5), (.str "a", .int 1)] := by
    refine ⟨_, .next (i := 0) rfl (.next (i := 1) rfl (.next (i := 0) rfl (.done ?_))), rfl⟩
    decide
  obtain ⟨merged, interleaves, order⟩ := merge
  exact ⟨named, distinct, gapFree, merged, order, accepted merged interleaves⟩

end EventMapper
end Flowgraph
