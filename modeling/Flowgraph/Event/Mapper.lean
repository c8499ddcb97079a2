import Flowgraph.Event.ProviderEvent
import Flowgraph.Event.Sequence
import Flowgraph.Redaction.Basic
import Flowgraph.Session

/-!
# Mapping provider events

Every provider event becomes one numbered event of the run. Prompts and the input of
tools are hidden; the output of tools is redacted; a failure is classified. A provider
event that cannot be mapped takes no number.
-/
namespace Flowgraph.EventMapper

def promptReason : String := "prompt-redacted-by-default"

def toolInputReason : String := "tool-input-redacted-by-default"

/-- A token count; what is not a number counts as zero. -/
def countOf : Json → Int
  | .bool _ => 0
  | v =>
    match v.toInteger with
    | .ok n => n
    | .error _ => 0

def usageJson (usage : Json) : Json :=
  let fields := ProviderEvent.objectOrEmpty usage
  let count (keys : List String) : Json := .int (countOf (ProviderEvent.pick fields keys .null))
  .obj [("promptTokens", count ["promptTokens", "prompt_tokens"]),
    ("completionTokens", count ["completionTokens", "completion_tokens"])]

def responseField : Json → Fields
  | .null => []
  | v => [("response", (Redacted.mk v .none false none).toJson)]

/-- The type and the payload of the event that a provider event becomes. -/
def content (limit : Int) : ProviderEvent → Except Fault (EventType × Fields)
  | .stepStart stageId modelClass _ =>
    .ok (.llmStepStarted, [("stageId", stageId), ("modelClass", modelClass),
      ("prompt", (Redaction.hide (some promptReason)).toJson)])
  | .toolCall stageId toolName _ =>
    .ok (.toolCalled, [("stageId", stageId), ("toolName", toolName),
      ("input", (Redaction.hide (some toolInputReason)).toJson)])
  | .toolResult stageId toolName result =>
    .ok (.toolResult, [("stageId", stageId), ("toolName", toolName), ("status", .str "success"),
      ("output", (Redaction.redact limit .partly none result).toJson)])
  | .stepComplete stageId modelUsed usage response =>
    .ok (.llmStepCompleted, [("stageId", stageId), ("modelUsed", modelUsed),
      ("usage", usageJson usage)] ++ responseField response)
  | .stepFail stageId error status code provider => do
    let failure ← ProviderFailure.classify status code provider
    return (.llmStepFailed, [("stageId", stageId), ("error", error),
      ("providerFailure", failure.toJson)])

/-- A stage that counts as absent is left out of the envelope. -/
def envelopeStage (v : Json) : Json :=
  if v.truthy then v else .null

/-- The event that a provider event becomes, with the sequencer after it. -/
def map (limit : Int) (s : Sequencer) (e : ProviderEvent) :
    Except Fault (Event × Sequencer) := do
  let (type, payload) ← content limit e
  s.issue type (envelopeStage e.stageId) (.obj payload)

/-- Whether the limit on texts is needed to map an event. -/
def needsLimit : ProviderEvent → Bool
  | .toolResult _ _ result => Redaction.needsLimit result
  | _ => false

/-- The limit on texts; the settings are asked for it only where an event needs it. -/
def limitAsked {m : Type → Type} [Monad m] (settings : m Settings) (e : ProviderEvent) : m Int :=
  if needsLimit e then (·.summaryLimit) <$> settings else pure 0

/-- Maps an event under the settings of the session. -/
def mapNext (s : Sequencer) (e : ProviderEvent) : SessionM (Event × Sequencer) := do
  let limit ← limitAsked SessionM.settings e
  map limit s e

/-- A sequencer that begins with the number in the settings. -/
def begin (runId : Json) (clock : Clock) : SessionM Sequencer := do
  let s ← Sequencer.start runId .null (.str clock.stamp)
  return { s with next := .int (← SessionM.settings).seqStart }

/-- What a mapper is given: an event of the provider, or one that is written as JSON. -/
inductive Given where
  | event (e : ProviderEvent)
  | written (v : Json)

def Given.read : Given → Except Fault ProviderEvent
  | .event e => .ok e
  | .written v => ProviderEvent.ofJson v

/-- Maps a whole sequence of provider events; the first one that cannot be mapped ends it. -/
def mapGiven (s : Sequencer) : List Given → SessionM (List Event)
  | [] => pure []
  | g :: rest => do
    let e ← g.read
    let (event, s) ← mapNext s e
    let events ← mapGiven s rest
    return event :: events

/-- The events of a run, numbered from the first number in the settings of the session. -/
def mapRun (runId : Json) (clock : Clock) (given : List Given) : SessionM (List Event) := do
  mapGiven (← begin runId clock) given

end Flowgraph.EventMapper
