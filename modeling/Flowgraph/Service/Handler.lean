import Flowgraph.Compiler.Compile
import Flowgraph.Event.Mapper
import Flowgraph.Program.Writer
import Flowgraph.Service.Reply
import Flowgraph.Service.Request
import Flowgraph.Service.Route
import Flowgraph.Storage.Repository
import Flowgraph.Workflow.Legacy

/-!
# Answering requests

The service keeps workflows, migrates, lowers and compiles them, and maps the events of a
provider. The repository is opened when it is first needed, after the body has been read
and before it is checked. Whatever is not foreseen is answered as a failure of the
service. What encodes the values that are sent is a parameter; what is answered to a body
that holds half a surrogate pair is not told.
-/
namespace Flowgraph

structure Service where
  clock : Clock
  lowerers : LowererTable := .standard
  emitters : EmitterTable := .standard
  prompts : PromptCatalog := .builtIn
  models : ModelCatalog := .builtIn
  encoder : Reply.Encoder := Json.isFinite
  /-- None until the repository is opened. -/
  repository : Option Repository := none

namespace Service

def applicationName : String := "Lattice Workflow Compiler"

def applicationVersion : String := "0.1.0"

/-- A step of the service; it may change what the service keeps. -/
abbrev ServiceM := StateT Service SessionM

def openRepository : ServiceM Repository := do
  match (← get).repository with
  | some r => return r
  | none =>
    let r ← Repository.configured
    modify fun s => { s with repository := some r }
    return r

def keep (r : Repository) : ServiceM Unit :=
  modify fun s => { s with repository := some r }

def compiler : ServiceM Compiler := do
  let s ← get
  let settings ← SessionM.settings
  return { lowerers := s.lowerers, emitters := s.emitters, prompts := s.prompts,
           version := settings.version, rejectCycles := settings.rejectCycles }

/-- Answers with a value, if it can be sent. -/
def send (v : Json) : ServiceM Reply := do
  return .ofValue (← get).encoder v

def rejection (r : Rejection) : Reply :=
  .refused 422 (.obj [("code", .str r.code), ("message", .str r.message),
    ("nodes", .texts (r.nodes?.getD []))])

/-- The next step is given the checked body, unless there is something wrong with it. -/
def withChecked {α : Type} (x : Checked α) (next : α → ServiceM Reply) : ServiceM Reply :=
  match x with
  | .ok a => next a
  | .error issues => return .invalid issues

def withBody (body : String) (next : Json → ServiceM Reply) : ServiceM Reply :=
  match Request.readBody body with
  | .ok v => next v
  | .error (.invalid issues) => return .invalid issues
  | .error .unreadable => return .refusedText 400 "There was an error parsing the body"
  | .error .halfPair => throw (.fault .halfPair)

/-! The routes -/

def greeting : Json :=
  .obj [("name", .str applicationName), ("version", .str applicationVersion),
    ("docs", .str "/docs"), ("health", .str "/api/v1/health")]

def health (s : Service) : Json :=
  .obj [("status", .str "healthy"), ("version", .str applicationVersion),
    ("timestamp", .str s.clock.now)]

def describeType (s : Service) (t : NodeType) : Json :=
  .obj [("name", .str t.name), ("lowerable", .bool (s.lowerers.find? t).isSome)]

def schema (s : Service) : Json :=
  .obj [("node_types", .arr (NodeType.all.map s.describeType)),
    ("targets", .texts (s.emitters.map (·.target.name)))]

def saveWorkflow (body : Json) : ServiceM Reply := do
  let r ← openRepository
  withChecked (Request.checkWorkflow (← get).clock.now body) fun w => do
    keep (r.save w)
    send w.toJson

def getWorkflow (id : String) : ServiceM Reply := do
  match ← (← openRepository).get? id with
  | some w => send w.toJson
  | none => return .refusedText 404 "Workflow not found"

/-- Whether a fault is answered as one of the request: not that of an unexpected kind of value
where an object or a text was needed. -/
def isForeseen : Fault → Bool
  | .noAttribute .. => false
  | _ => true

def invalidLegacy (text : String) : Reply :=
  .refusedText 400 ("Invalid legacy workflow: " ++ text)

def migrate (body : Json) : ServiceM Reply :=
  withChecked (Request.checkObject body) fun fields => do
    let migrated := Legacy.migrate (← get).clock (.obj fields)
    SessionM.note migrated.notices
    match migrated.result with
    | .ok w => send w.toJson
    | .error (.invalid _) => return invalidLegacy "<ValidationError>"
    | .error (.fault e) => return if isForeseen e then invalidLegacy e.message else .failed
    | .error (.rejected _) => return .failed

def lower (body : Json) : ServiceM Reply := do
  withChecked (Request.checkLower (← get).clock.now body) fun w => do
    let c ← compiler
    SessionM.note (c.notices w)
    match c.lower w with
    | .ok lowered => send (← lowered.program.toJson)
    | .error r => return rejection r

def compileWith (order : CompileOrder) (t : Target) (m : Model) : ServiceM Reply := do
  let c ← compiler
  SessionM.note (c.notices order.workflow)
  match c.compile order.workflow m t with
  | .ok output => send output.toJson
  | .error (.rejected r) => return rejection r
  | .error (.fault (.noEmitter target)) => return .refusedText 400 (Fault.noEmitter target).message
  | .error _ => return .failed

def compile (body : Json) : ServiceM Reply := do
  withChecked (Request.checkCompile (← get).clock.now body) fun order => do
    match Target.ofName? order.target with
    | none => return .refusedText 400 ("Unknown compiler target: " ++ order.target)
    | some t =>
      match (← get).models.find order.modelId with
      | .ok m => compileWith order t m
      | .error e => return .refusedText 400 e.message

def mapOrder (order : MapOrder) (clock : Clock) : SessionM Json := do
  let events ← EventMapper.mapRun (.str order.runId) clock (order.events.map .written)
  return .arr (events.map Event.toJson)

def mapEvents (body : Json) : ServiceM Reply :=
  withChecked (Request.checkMapping body) fun order => do
    try send (← mapOrder order (← get).clock)
    catch
      | .fault e => return if isForeseen e then .refusedText 400 e.message else .failed
      | _ => return .failed

def answer (route : Route) (body : String) : ServiceM Reply := do
  match route with
  | .root => return .value greeting
  | .health => return .value (← get).health
  | .schema => return .value (← get).schema
  | .models => send (.arr ((← get).models.map Model.toJson))
  | .getWorkflow id => getWorkflow id
  | .saveWorkflow => withBody body saveWorkflow
  | .migrate => withBody body migrate
  | .lower => withBody body lower
  | .compile => withBody body compile
  | .mapEvents => withBody body mapEvents

/-- What a failure that was not foreseen is answered with. -/
def answerFailure : Failure → ServiceM Reply
  | .fault .halfPair => throw (.fault .halfPair)
  | _ => return .failed

/-- The answer to a request, unless half a surrogate pair stands in a text that was read. -/
def reply (r : Request) : ServiceM Reply := do
  match Route.find (Method.ofName r.method) r.path with
  | .nothing => return .notFound
  | .otherMethod => return .notAllowed
  | .route route => tryCatch (answer route r.body) answerFailure

end Service
end Flowgraph
