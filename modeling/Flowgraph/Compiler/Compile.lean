import Flowgraph.Compiler.Diagnosis
import Flowgraph.Emit.Emitter

/-!
# Compiling

A workflow is lowered, its templates are looked for, and the emitter of the target makes
the files. Cycles, where they are let through, become warnings before those of the
emitter. An emitter that makes no files fails the compilation.
-/
namespace Flowgraph

structure Compiler where
  lowerers : LowererTable := .standard
  emitters : EmitterTable := .standard
  prompts : PromptCatalog := .builtIn
  version : String
  rejectCycles : Bool

namespace Compiler

def lower (c : Compiler) (w : Workflow) : Except Rejection Lowered :=
  w.lower c.lowerers c.version c.rejectCycles

def diagnose (c : Compiler) (w : Workflow) : Diagnosis :=
  w.diagnose c.lowerers c.prompts c.version c.rejectCycles

def checkTemplates (c : Compiler) (l : Lowered) : Except Rejection Unit :=
  match Workflow.missingTemplates c.prompts l with
  | [] => .ok ()
  | missing => .error (.missingTemplates missing)

def cycleWarnings (w : Workflow) : List String :=
  w.graph.cycles.map fun cycle => "Workflow contains cycle: " ++ Rejection.arrows cycle

def compile (c : Compiler) (w : Workflow) (m : Model) (t : Target) : Attempt Output := do
  let lowered ← ofRejection (c.lower w)
  ofRejection (c.checkTemplates lowered)
  let emitter ← ofFault (c.emitters.find t)
  let output ← ofFault (emitter.emit ⟨w, m, some lowered.program⟩)
  if output.files.isEmpty then throw (.rejected (.emptyOutput t.name))
  return { output with warnings := cycleWarnings w ++ output.warnings }

/-- What is noticed while a workflow is lowered. -/
def notices (c : Compiler) (w : Workflow) : List Notice :=
  w.lowerNotices c.lowerers c.rejectCycles

end Compiler
end Flowgraph
