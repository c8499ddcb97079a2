import Flowgraph.Catalog.Model
import Flowgraph.Program.Basic
import Flowgraph.Text.Slug
import Flowgraph.Workflow.Basic

/-!
# Emission

What an emitter is given and what it makes: files for one target, a preview, and
warnings. The name of a file is the slug of the workflow's name or, where that has
nothing to keep, of its id.
-/
namespace Flowgraph

inductive Target where
  | claude
  | openaiAssistants
  | portableJson
deriving DecidableEq, Repr

namespace Target

def all : List Target := [claude, openaiAssistants, portableJson]

def name : Target → String
  | claude => "claude"
  | openaiAssistants => "openai-assistants"
  | portableJson => "portable-json"

def ofName? (s : String) : Option Target :=
  all.find? (·.name == s)

def read (v : Json) : Except Fault Target :=
  v.choose "CompilerTarget" ofName?

end Target

structure EmitInput where
  workflow : Workflow
  model : Model
  program : Option Program := none

structure OutputFile where
  path : String
  content : String
deriving DecidableEq, Repr

def OutputFile.toJson (f : OutputFile) : Json :=
  .obj [("path", .str f.path), ("content", .str f.content)]

structure Output where
  target : Target
  files : List OutputFile
  preview : String
  warnings : List String
deriving DecidableEq, Repr

def Output.toJson (o : Output) : Json :=
  .obj [("target", .str o.target.name), ("files", .arr (o.files.map OutputFile.toJson)),
    ("preview", .str o.preview), ("warnings", .texts o.warnings)]

def Workflow.fileStem (w : Workflow) : String :=
  Text.slugify w.name (Text.slugify w.id "workflow")

/-- The name that a step is shown under. -/
def Node.title (n : Node) : String :=
  if n.label.isEmpty then n.id else n.label

end Flowgraph
