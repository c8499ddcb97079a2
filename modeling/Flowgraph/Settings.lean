import Flowgraph.Json.Access
import Flowgraph.Text.Case

/-!
# Settings

What can be set from outside: the version stamped on programs, whether cyclic workflows
are rejected, the first number of an event stream, how long summaries may be, and where
workflows are kept. Settings are read from named texts; a flag is on for the words
`true`, `1` and `yes`, and an unknown kind of store falls back to memory, with a notice.
-/
namespace Flowgraph

inductive Backend where
  | memory
  | sqlite
deriving DecidableEq, Repr

def Backend.name : Backend → String
  | memory => "memory"
  | sqlite => "sqlite"

def Backend.ofName? (s : String) : Option Backend :=
  [memory, sqlite].find? (·.name == s)

structure Settings where
  version : String
  rejectCycles : Bool
  seqStart : Int
  summaryLimit : Int
  backend : Backend
  sqlitePath : String
  debug : Bool
  logLevel : String
deriving DecidableEq, Repr

namespace Settings

/-- Named texts from outside. -/
abbrev Source := List (String × String)

def get (source : Source) (name default : String) : String :=
  (source.lookup name).getD default

def lowerText (s : String) : String :=
  String.ofList (Text.lower s.toList)

def flag (source : Source) (name default : String) : Bool :=
  ["true", "1", "yes"].contains (lowerText (get source name default))

def backendName (source : Source) : String :=
  lowerText (get source "LATTICE_PERSISTENCE_BACKEND" "memory")

def load (source : Source) : Except Fault Settings := do
  let seqStart ← Json.readInteger (get source "LATTICE_EVENT_SEQ_START" "1")
  let summaryLimit ← Json.readInteger (get source "LATTICE_SUMMARY_MAX_CHARS" "120")
  return {
    version := get source "LATTICE_EXECIR_VERSION" "1.0"
    rejectCycles := flag source "LATTICE_REJECT_CYCLES" "true"
    seqStart
    summaryLimit
    backend := (Backend.ofName? (backendName source)).getD .memory
    sqlitePath := get source "LATTICE_SQLITE_PATH" "./lattice_workflows.db"
    debug := flag source "LATTICE_DEBUG" "false"
    logLevel := String.ofList (Text.upper (get source "LATTICE_LOG_LEVEL" "INFO").toList) }

/-- What is noticed when settings have been read. -/
def notices (source : Source) : List Notice :=
  let name := backendName source
  if (Backend.ofName? name).isSome then []
  else [.warning ("Unknown persistence backend " ++ Text.quote name ++ ", using memory")]

end Settings
end Flowgraph
