import Flowgraph.Emit.Assistant
import Flowgraph.Emit.Bundle
import Flowgraph.Emit.Command

/-!
# Emitters

One emitter for each target, and one that makes no files, which can stand in for any
target. A model whose prompt format is not the one that an emitter expects is warned
about. A table holds one emitter a target; registering another one replaces it in place.
-/
namespace Flowgraph

inductive Emitter where
  | command
  | assistant
  | bundle
  | empty (target : Target) (expected : Option PromptFormat)
deriving DecidableEq, Repr

namespace Emitter

def target : Emitter → Target
  | command => .claude
  | assistant => .openaiAssistants
  | bundle => .portableJson
  | empty target _ => target

def name : Emitter → String
  | command => "Claude"
  | assistant => "OpenAI"
  | bundle => "Portable JSON"
  | empty .. => ""

def description : Emitter → String
  | command => "Generates .claude/commands/ Markdown files."
  | assistant => "Generates OpenAI Assistants API-compatible JSON configuration."
  | bundle => "Generates a platform-neutral JSON bundle."
  | empty .. => ""

def expected : Emitter → Option PromptFormat
  | command => some .xml
  | assistant => some .functionCalling
  | bundle => none
  | empty _ format => format

def shownName (e : Emitter) : String :=
  if e.name.isEmpty then e.target.name else e.name

def capabilityWarnings (e : Emitter) (m : Model) : List String :=
  let actual := m.capabilities.promptFormat
  match e.expected with
  | none => []
  | some expected =>
    if actual = expected then []
    else ["Model " ++ m.displayName ++ " uses " ++ actual.name ++ " format; " ++ e.shownName ++
      " target expects " ++ expected.name ++ "."]

def single (e : Emitter) (i : EmitInput) (f : OutputFile) : Output :=
  ⟨e.target, [f], f.content, e.capabilityWarnings i.model⟩

def emit (e : Emitter) (i : EmitInput) : Except Fault Output :=
  match e with
  | command => .ok (e.single i (Command.file i))
  | assistant => .ok (e.single i (Assistant.file i))
  | bundle => (Bundle.file i).map (e.single i)
  | empty target _ => .ok ⟨target, [], "", e.capabilityWarnings i.model⟩

def ofTarget : Target → Emitter
  | .claude => command
  | .openaiAssistants => assistant
  | .portableJson => bundle

end Emitter

abbrev EmitterTable := List Emitter

namespace EmitterTable

def register : EmitterTable → Emitter → EmitterTable
  | [], e => [e]
  | f :: rest, e => if f.target = e.target then e :: rest else f :: register rest e

def find (table : EmitterTable) (t : Target) : Except Fault Emitter :=
  match List.find? (·.target == t) table with
  | some e => .ok e
  | none => .error (.noEmitter t.name)

/-- Looks an emitter up by the name of its target. -/
def findNamed (table : EmitterTable) (name : String) : Except Fault Emitter :=
  match Target.ofName? name with
  | some t => table.find t
  | none => .error (.noEmitter name)

def standard : EmitterTable := Target.all.map Emitter.ofTarget

end EmitterTable
end Flowgraph
