import Flowgraph.Event.Basic

/-!
# Numbered events

A sequencer numbers the events of one run, each one more than the one before; an event
that cannot be issued takes no number. In a stream of events, in which runs may mix,
the numbers of every run increase.
-/
namespace Flowgraph

structure Sequencer where
  runId : Json
  next : Json
  /-- What is written as the time of an event. -/
  timestamp : Json

namespace Sequencer

def start (runId next timestamp : Json) : Except Fault Sequencer :=
  if runId.truthy then .ok ⟨runId, next, timestamp⟩ else .error .missingRunId

/-- Issues an event and moves on to the next number. -/
def issue (s : Sequencer) (type : EventType) (stageId payload : Json) :
    Except Fault (Event × Sequencer) := do
  let event : Event :=
    { runId := s.runId, seq := s.next, timestamp := s.timestamp, type, stageId,
      payload := if payload.truthy then payload else .obj [] }
  let n ← event.checkEnvelope
  return (event, { s with next := .int (n + 1) })

end Sequencer

namespace EventStream

/-- The last number of each run. -/
abbrev LastNumbers := List (Json × Int)

def LastNumbers.get? (last : LastNumbers) (runId : Json) : Option Int :=
  (last.find? (·.1.alike runId)).map (·.2)

/-- Arrays and objects cannot name a run. -/
def checkRunId : Json → Except Fault Unit
  | .arr _ => .error (.unhashable "list")
  | .obj _ => .error (.unhashable "dict")
  | _ => .ok ()

def checkNext (last : LastNumbers) (e : Event) : Except Fault LastNumbers := do
  let n ← e.checkEnvelope
  checkRunId e.runId
  match last.get? e.runId with
  | some previous =>
    if n = previous then throw (.duplicateSequenceNumber n e.runId.display)
    else if n < previous then throw (.sequenceOutOfOrder n previous e.runId.display)
    else return (e.runId, n) :: last
  | none => return (e.runId, n) :: last

def checkFrom (last : LastNumbers) : List Event → Except Fault Unit
  | [] => .ok ()
  | e :: rest => do
    let last ← checkNext last e
    checkFrom last rest

/-- The events, if the numbers of every run increase. -/
def check (events : List Event) : Except Fault (List Event) := do
  checkFrom [] events
  return events

end EventStream
end Flowgraph
