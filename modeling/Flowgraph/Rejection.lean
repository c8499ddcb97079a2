import Flowgraph.Workflow.Basic

/-!
# Rejections

Why a workflow cannot be compiled. A rejection has a code, a message and, where they are
known, the nodes and edges that it is about.
-/
namespace Flowgraph

inductive Rejection where
  | danglingEdges (edges missing : List String)
  | unreachableNodes (nodes : List String)
  | cyclic (cycles : List (List String))
  | startCount (starts : List String)
  | unsupportedType (type : NodeType) (node : String)
  | invalidRefs (refs : List String)
  | missingTemplates (templates : List String)
  | emptyOutput (target : String)
deriving DecidableEq, Repr

/-- Each member once, in the order of code points. -/
def sortedDistinct (l : List String) : List String :=
  (l.mergeSort (· ≤ ·)).eraseDups

namespace Rejection

def code : Rejection → String
  | danglingEdges .. => "E_MISSING_REF"
  | unreachableNodes _ => "E_UNREACHABLE"
  | cyclic _ => "E_CYCLE"
  | startCount _ => "E_START_COUNT"
  | unsupportedType .. => "E_UNSUPPORTED_NODE"
  | invalidRefs _ => "E_INVALID_STATE_REF"
  | missingTemplates _ => "E_MISSING_TEMPLATE"
  | emptyOutput _ => "E_NO_OUTPUT"

def commas (l : List String) : String :=
  ", ".intercalate l

def arrows (l : List String) : String :=
  " -> ".intercalate l

def message : Rejection → String
  | danglingEdges _ missing => "Edges reference non-existent nodes: " ++ commas missing
  | unreachableNodes nodes => "Workflow contains unreachable nodes: " ++ commas nodes
  | cyclic cycles => "Workflow contains cycle(s): " ++ "; ".intercalate (cycles.map arrows)
  | startCount starts =>
    "Workflow must contain exactly one start node. Found: " ++ toString starts.length
  | unsupportedType type _ => "Unsupported workflow node type for ExecIR lowering: " ++ type.name
  | invalidRefs refs => "Invalid state references in program: " ++ commas refs
  | missingTemplates templates =>
    "Required prompt templates are not registered: " ++ commas templates
  | emptyOutput target => "Compiler produced no files for target: " ++ target

def nodes? : Rejection → Option (List String)
  | danglingEdges _ missing => some missing
  | unreachableNodes nodes => some nodes
  | cyclic cycles => some (sortedDistinct cycles.flatten)
  | startCount [] => none
  | startCount starts => some starts
  | unsupportedType _ node => some [node]
  | _ => none

def edges? : Rejection → Option (List String)
  | danglingEdges edges _ => some edges
  | _ => none

end Rejection
end Flowgraph
