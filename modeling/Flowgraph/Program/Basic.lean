import Flowgraph.Json.Basic

/-!
# Programs

The compiled form of a workflow: steps joined by guarded edges. A program may also come
from elsewhere, so a slot that is not checked when a program is read holds any value;
null stands in an optional slot that is not set.
-/
namespace Flowgraph

inductive Op where
  | start | stop | llmWrite | switch | toolCall | varSet | varGet | transform
deriving DecidableEq, Repr

namespace Op

def all : List Op := [start, stop, llmWrite, switch, toolCall, varSet, varGet, transform]

def name : Op → String
  | start => "START"
  | stop => "END"
  | llmWrite => "LLM_WRITE"
  | switch => "SWITCH"
  | toolCall => "TOOL_CALL"
  | varSet => "VAR_SET"
  | varGet => "VAR_GET"
  | transform => "TRANSFORM"

def ofName? (s : String) : Option Op :=
  all.find? (·.name == s)

end Op

/-- How capable a model a step needs, the smallest class first. -/
inductive ModelClass where
  | smallExec
  | mediumPlan
  | largeJudge
deriving DecidableEq, Repr

namespace ModelClass

def all : List ModelClass := [smallExec, mediumPlan, largeJudge]

def name : ModelClass → String
  | smallExec => "SMALL_EXEC"
  | mediumPlan => "MEDIUM_PLAN"
  | largeJudge => "LARGE_JUDGE"

def ofName? (s : String) : Option ModelClass :=
  all.find? (·.name == s)

end ModelClass

inductive RetryStrategy where
  | patchJsonFromError
  | fullRetry
deriving DecidableEq, Repr

namespace RetryStrategy

def all : List RetryStrategy := [patchJsonFromError, fullRetry]

def name : RetryStrategy → String
  | patchJsonFromError => "PATCH_JSON_FROM_ERROR"
  | fullRetry => "FULL_RETRY"

def ofName? (s : String) : Option RetryStrategy :=
  all.find? (·.name == s)

end RetryStrategy

/-- The expression language of a transformation. -/
inductive TransformKind where
  | jmespath
  | jsonpath
  | javascript
deriving DecidableEq, Repr

namespace TransformKind

def all : List TransformKind := [jmespath, jsonpath, javascript]

def name : TransformKind → String
  | jmespath => "jmespath"
  | jsonpath => "jsonpath"
  | javascript => "javascript"

def ofName? (s : String) : Option TransformKind :=
  all.find? (·.name == s)

end TransformKind

inductive ConditionOp where
  | always
  | eq
  | neq
  | contains
  | regex
deriving DecidableEq, Repr

namespace ConditionOp

def all : List ConditionOp := [always, eq, neq, contains, regex]

def name : ConditionOp → String
  | always => "always"
  | eq => "eq"
  | neq => "neq"
  | contains => "contains"
  | regex => "regex"

def ofName? (s : String) : Option ConditionOp :=
  all.find? (·.name == s)

end ConditionOp

structure RetryPolicy where
  strategy : RetryStrategy
  maxAttempts : Int
  positive : 1 ≤ maxAttempts := by omega
deriving DecidableEq, Repr

/-- The failure categories that move a step up to a larger class of models. -/
structure EscalationPolicy where
  on : List Json
  toModelClass : ModelClass
deriving Repr

/-- A check of a step's output. -/
inductive OutputCheck where
  | jsonSchema (schema : Json)
  | invariant (expr : Json)
deriving Repr

structure ModelCall where
  modelClass : ModelClass
  promptTemplate : Json
  outputSchema : Json
  validators : Option (List OutputCheck) := none
  retryPolicy : Option RetryPolicy := none
  escalation : Option EscalationPolicy := none
deriving Repr

inductive Action where
  | start
  | stop
  | llmWrite (call : ModelCall)
  | switch
  | toolCall (tool args : Json)
  | varSet (target value : Json)
  | varGet (source : Json)
  | transform (kind : TransformKind) (expression : Json)
deriving Repr

def Action.op : Action → Op
  | start => .start
  | stop => .stop
  | llmWrite _ => .llmWrite
  | switch => .switch
  | toolCall .. => .toolCall
  | varSet .. => .varSet
  | varGet _ => .varGet
  | transform .. => .transform

structure Step where
  id : Json
  inputs : Json := .null
  outputs : Json := .null
  action : Action
deriving Repr

/-- The guard of an edge; an operand is a state reference or a literal. -/
structure Condition where
  op : ConditionOp
  left : Json := .null
  right : Json := .null
deriving Repr

def Condition.always : Condition := { op := .always }

structure ProgramEdge where
  source : Json
  target : Json
  condition : Condition
deriving Repr

structure Program where
  version : Json
  entry : Json
  steps : List Step
  edges : List ProgramEdge
deriving Repr

end Flowgraph
