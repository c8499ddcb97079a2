import Flowgraph.Decimal.Binary
import Flowgraph.Json.Basic

/-!
# Workflow documents

Typed nodes joined by directed edges. A workflow is what its author drew: the ends of
its edges need not be nodes, and it may have cycles. Positions, labels, handles and
metadata are carried along and never read by the compiler.
-/
namespace Flowgraph

inductive NodeType where
  | start | stop | prompt | subAgent | askUserQuestion | ifElse | conditional
  | nondeterministic | recursion | switch | skill | mcp | flow | branch | parallel
  | httpRequest | dataTransform | delay | webhookTrigger | variableStore | codeExecutor
  | batchIterator
deriving DecidableEq, Repr, Inhabited

namespace NodeType

def all : List NodeType :=
  [start, stop, prompt, subAgent, askUserQuestion, ifElse, conditional, nondeterministic,
   recursion, switch, skill, mcp, flow, branch, parallel, httpRequest, dataTransform, delay,
   webhookTrigger, variableStore, codeExecutor, batchIterator]

def name : NodeType → String
  | start => "start"
  | stop => "end"
  | prompt => "prompt"
  | subAgent => "subAgent"
  | askUserQuestion => "askUserQuestion"
  | ifElse => "ifElse"
  | conditional => "conditional"
  | nondeterministic => "nondeterministic"
  | recursion => "recursion"
  | switch => "switch"
  | skill => "skill"
  | mcp => "mcp"
  | flow => "flow"
  | branch => "branch"
  | parallel => "parallel"
  | httpRequest => "httpRequest"
  | dataTransform => "dataTransform"
  | delay => "delay"
  | webhookTrigger => "webhookTrigger"
  | variableStore => "variableStore"
  | codeExecutor => "codeExecutor"
  | batchIterator => "batchIterator"

def ofName? (s : String) : Option NodeType :=
  all.find? (·.name == s)

theorem ofName?_name (t : NodeType) : ofName? t.name = some t := by
  cases t <;> rfl

end NodeType

/-- Where a node stands on the drawing. -/
structure Position where
  x : Binary64 := .zero
  y : Binary64 := .zero
deriving DecidableEq, Repr

structure Node where
  id : String
  type : NodeType
  label : String := ""
  position : Position := {}
  config : Fields := []
deriving Repr

/-- A connection; the handles say where at the node of either end it is attached. -/
structure Edge where
  id : String
  source : String
  target : String
  sourceHandle : Option String := none
  targetHandle : Option String := none
deriving DecidableEq, Repr

structure Workflow where
  id : String
  name : String
  description : Option String := none
  version : String
  createdAt : String
  updatedAt : String
  nodes : List Node := []
  edges : List Edge := []
  metadata : Option Fields := none
deriving Repr

namespace Workflow

def formatVersion : String := "1.0.0"

def nameLimit : Nat := 100

def nodeLimit : Nat := 200

def node? (w : Workflow) (id : String) : Option Node :=
  w.nodes.find? (·.id == id)

end Workflow

/-- The present moment, in the three forms in which it is written down. -/
structure Clock where
  /-- The date of a document. -/
  now : String
  /-- The timestamp of an event. -/
  stamp : String
  milliseconds : Int

end Flowgraph
