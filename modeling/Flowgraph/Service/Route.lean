/-!
# Routes

What the service can be asked for, by method and path. A path with slashes at its end
stands for the path without them. A path that is known for other methods only is told
apart from an unknown one.
-/
namespace Flowgraph

inductive Method where
  | get
  | post
  | other
deriving DecidableEq, Repr

/-- The method of a name, in any case. -/
def Method.ofName (s : String) : Method :=
  if s.toUpper == "GET" then .get else if s.toUpper == "POST" then .post else .other

inductive Route where
  | root
  | health
  | schema
  | models
  | saveWorkflow
  | getWorkflow (id : String)
  | migrate
  | lower
  | compile
  | mapEvents
deriving DecidableEq, Repr

namespace Route

def method : Route → Method
  | root | health | schema | models | getWorkflow _ => .get
  | saveWorkflow | migrate | lower | compile | mapEvents => .post

/-- The routes of a path that is split at its slashes. -/
def ofParts : List String → List Route
  | ["", ""] => [root]
  | ["", "api", "v1", "health"] => [health]
  | ["", "api", "v1", "schema"] => [schema]
  | ["", "api", "v1", "models"] => [models]
  | ["", "api", "v1", "workflows"] => [saveWorkflow]
  | ["", "api", "v1", "workflows", id] =>
    if id.isEmpty then []
    else if id == "migrate" then [getWorkflow id, migrate]
    else [getWorkflow id]
  | ["", "api", "v1", "lower"] => [lower]
  | ["", "api", "v1", "compile"] => [compile]
  | ["", "api", "v1", "events", "map"] => [mapEvents]
  | _ => []

def ofPath (path : List Char) : List Route :=
  ofParts ((path.splitOn '/').map String.ofList)

def withoutFinalSlashes (path : List Char) : List Char :=
  (path.reverse.dropWhile (· == '/')).reverse

/-- The routes of a path, of any method. -/
def candidates (path : String) : List Route :=
  let chars := if path.isEmpty then ['/'] else path.toList
  match ofPath chars with
  | [] => ofPath (withoutFinalSlashes chars)
  | routes => routes

inductive Found where
  | route (r : Route)
  | otherMethod
  | nothing
deriving DecidableEq, Repr

def find (m : Method) (path : String) : Found :=
  match candidates path with
  | [] => .nothing
  | routes =>
    match routes.find? (·.method == m) with
    | some r => .route r
    | none => .otherMethod

end Route
end Flowgraph
