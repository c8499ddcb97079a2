import Flowgraph.Catalog.Prompt
import Flowgraph.Compiler.Lowering

/-!
# Diagnosis

Everything that is wrong with a workflow, found without compiling it. When the graph and
the node types are in order the workflow is lowered, and what that reports is added; so
are templates that are not registered.
-/
namespace Flowgraph

inductive Severity where
  | blocking
  | warning
deriving DecidableEq, Repr

def Severity.name : Severity → String
  | blocking => "blocking"
  | warning => "warning"

structure Diagnostic where
  code : String
  severity : Severity := .blocking
  message : String
  nodes : Option (List String) := none
  edges : Option (List String) := none
deriving DecidableEq, Repr

structure Diagnosis where
  errors : List Diagnostic
  warnings : List Diagnostic
deriving DecidableEq, Repr

namespace Diagnosis

def valid (d : Diagnosis) : Bool :=
  d.errors.isEmpty

def hasBlocking (d : Diagnosis) : Bool :=
  d.errors.any (·.severity == .blocking)

end Diagnosis

def Rejection.diagnostic (r : Rejection) : Diagnostic where
  code := r.code
  message := r.message
  nodes := r.nodes?
  edges := r.edges?

namespace Workflow

def endDiagnostics (w : Workflow) (e : Edge) : List Diagnostic :=
  (w.missingEnds e).map fun id =>
    { code := "E_MISSING_REF"
      message := "Edge " ++ e.id ++ " references non-existent node: " ++ id
      edges := some [e.id] }

def reachDiagnostics (w : Workflow) : List Diagnostic :=
  let unreachable := w.graph.unreachable
  if unreachable.isEmpty then [] else [(Rejection.unreachableNodes unreachable).diagnostic]

def cycleDiagnostics (w : Workflow) (code : String) (severity : Severity) : List Diagnostic :=
  w.graph.cycles.map fun cycle =>
    { code, severity
      message := "Cycle detected: " ++ Rejection.arrows cycle
      nodes := some cycle }

def startDiagnostics (w : Workflow) : List Diagnostic :=
  if w.startIds.length = 1 then [] else [(Rejection.startCount w.startIds).diagnostic]

def typeDiagnostics (table : LowererTable) (w : Workflow) : List Diagnostic :=
  (w.nodes.filter fun n => (table.find? n.type).isNone).map fun n =>
    (Rejection.unsupportedType n.type n.id).diagnostic

/-- What is wrong with the graph and the node types. -/
def structureDiagnostics (table : LowererTable) (rejectCycles : Bool) (w : Workflow) :
    List Diagnostic :=
  w.edges.flatMap w.endDiagnostics ++ w.reachDiagnostics ++
    (if rejectCycles then w.cycleDiagnostics "E_CYCLE" .blocking else []) ++
    w.startDiagnostics ++ w.typeDiagnostics table

/-- The templates that a program needs and the catalog lacks. -/
def missingTemplates (prompts : PromptCatalog) (l : Lowered) : List String :=
  l.templates.filter (!prompts.has ·)

def programDiagnostics (table : LowererTable) (prompts : PromptCatalog) (version : String)
    (rejectCycles : Bool) (w : Workflow) : List Diagnostic :=
  match w.lower table version rejectCycles with
  | .error r => [r.diagnostic]
  | .ok lowered =>
    match missingTemplates prompts lowered with
    | [] => []
    | missing => [(Rejection.missingTemplates missing).diagnostic]

def diagnose (table : LowererTable) (prompts : PromptCatalog) (version : String)
    (rejectCycles : Bool) (w : Workflow) : Diagnosis where
  errors :=
    match w.structureDiagnostics table rejectCycles with
    | [] => w.programDiagnostics table prompts version rejectCycles
    | found => found
  warnings := if rejectCycles then [] else w.cycleDiagnostics "W_CYCLE" .warning

/-- What is noticed during a diagnosis. -/
def diagnoseNotices (table : LowererTable) (rejectCycles : Bool) (w : Workflow) : List Notice :=
  if (w.structureDiagnostics table rejectCycles).isEmpty then w.lowerNotices table rejectCycles
  else []

end Workflow
end Flowgraph
