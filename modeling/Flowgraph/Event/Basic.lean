import Flowgraph.Json.Access
import Flowgraph.Json.Writer

/-!
# Execution events

An event belongs to a run and has a number, a timestamp, a type and a payload. Its
envelope is complete when the run and the timestamp are there and the number is a
natural one.
-/
namespace Flowgraph

inductive EventType where
  | runStarted | runCompleted | runFailed | stageStarted | stageCompleted | stageFailed
  | toolCalled | toolResult | toolFailed | llmStepStarted | llmStepCompleted | llmStepFailed
  | traceBreadcrumb
deriving DecidableEq, Repr

namespace EventType

def all : List EventType :=
  [runStarted, runCompleted, runFailed, stageStarted, stageCompleted, stageFailed, toolCalled,
   toolResult, toolFailed, llmStepStarted, llmStepCompleted, llmStepFailed, traceBreadcrumb]

def name : EventType → String
  | runStarted => "run.started"
  | runCompleted => "run.completed"
  | runFailed => "run.failed"
  | stageStarted => "stage.started"
  | stageCompleted => "stage.completed"
  | stageFailed => "stage.failed"
  | toolCalled => "tool.called"
  | toolResult => "tool.result"
  | toolFailed => "tool.failed"
  | llmStepStarted => "llm.step.started"
  | llmStepCompleted => "llm.step.completed"
  | llmStepFailed => "llm.step.failed"
  | traceBreadcrumb => "trace.breadcrumb"

def ofName? (s : String) : Option EventType :=
  all.find? (·.name == s)

def read (v : Json) : Except Fault EventType :=
  v.choose "EventType" ofName?

end EventType

structure Event where
  version : Json := .str "1.0"
  runId : Json
  seq : Json
  timestamp : Json
  type : EventType
  /-- The stage of the run; null where there is none. -/
  stageId : Json := .null
  payload : Json := .obj []

namespace Event

def stageField : Json → Fields
  | .null => []
  | v => [("stageId", v)]

def toJson (e : Event) : Json :=
  .obj ([("eventVersion", e.version), ("runId", e.runId), ("seq", e.seq),
    ("timestamp", e.timestamp), ("type", .str e.type.name)] ++ stageField e.stageId ++
    [("payload", e.payload)])

/-- The number of an event with a complete envelope. -/
def checkEnvelope (e : Event) : Except Fault Int :=
  if !e.runId.truthy then .error .missingRunId
  else
    match e.seq with
    | .int n =>
      if n < 0 then .error .badSequenceNumber
      else if !e.timestamp.truthy then .error .missingTimestamp
      else .ok n
    | _ => .error .badSequenceNumber

def serialize (e : Event) : Except Fault String :=
  e.checkEnvelope.map fun _ => e.toJson.write .spaced

end Event
end Flowgraph
