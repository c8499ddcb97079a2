import Flowgraph.Compiler.Lowerer
import Flowgraph.Failure
import Flowgraph.Graph.Analysis
import Flowgraph.Program.Query

/-!
# Lowering a workflow

The graph is checked first, in a fixed order: edges without a node at an end, nodes that
cannot be reached, cycles, the number of start nodes. Then every node is lowered in
declared order, and last the state references of the program are checked. The first check
that fails rejects the workflow; there is no partial program.
-/
namespace Flowgraph

/-- A program with the templates that it needs. -/
structure Lowered where
  program : Program
  templates : List String

namespace Workflow

def hasNode (w : Workflow) (id : String) : Bool :=
  w.nodes.any (·.id == id)

def danglingEdges (w : Workflow) : List Edge :=
  w.edges.filter fun e => !(w.hasNode e.source && w.hasNode e.target)

/-- The ends of an edge that are no nodes. -/
def missingEnds (w : Workflow) (e : Edge) : List String :=
  [e.source, e.target].filter (!w.hasNode ·)

def startIds (w : Workflow) : List String :=
  (w.nodes.filter (·.type = .start)).map (·.id)

/-- Checks the graph of a workflow; returns the id of its start node. -/
def checkGraph (w : Workflow) (rejectCycles : Bool) : Except Rejection String :=
  let dangling := w.danglingEdges
  let g := w.graph
  if !dangling.isEmpty then
    .error (.danglingEdges (dangling.map (·.id)) (dangling.flatMap w.missingEnds).eraseDups)
  else if !g.unreachable.isEmpty then .error (.unreachableNodes g.unreachable)
  else if rejectCycles && !g.cycles.isEmpty then .error (.cyclic g.cycles)
  else
    match w.startIds with
    | [id] => .ok id
    | ids => .error (.startCount ids)

def lowerNode (table : LowererTable) (outgoing : EdgeIndex Edge) (n : Node) :
    Except Rejection Fragment :=
  match table.find? n.type with
  | some l => .ok (l.fragment n (outgoing.entry n.id))
  | none => .error (.unsupportedType n.type n.id)

def assemble (version entry : String) (fragments : List Fragment) : Program where
  version := .str version
  entry := .str entry
  steps := fragments.map (·.step)
  edges := fragments.flatMap (·.edges)

/-- The texts that stand in a program where a state reference must. -/
def badRefs (p : Program) : List String :=
  match p.invalidRefs with
  | .ok refs => refs.map Json.display
  | .error _ => []

def lower (table : LowererTable) (version : String) (rejectCycles : Bool) (w : Workflow) :
    Except Rejection Lowered := do
  let entry ← w.checkGraph rejectCycles
  let outgoing := w.outgoing
  let fragments ← w.nodes.mapM (lowerNode table outgoing)
  let program := assemble version entry fragments
  match badRefs program with
  | [] => return ⟨program, sortedDistinct (fragments.flatMap (·.templates))⟩
  | refs => throw (.invalidRefs refs)

/-- What is noticed while a workflow is lowered, up to the first node that cannot be. -/
def lowerNotices (table : LowererTable) (rejectCycles : Bool) (w : Workflow) : List Notice :=
  match w.checkGraph rejectCycles with
  | .error _ => []
  | .ok _ =>
    (w.nodes.takeWhile fun n => (table.find? n.type).isSome).flatMap fun n =>
      match table.find? n.type with
      | some l => (l.fragment n []).notices
      | none => []

end Workflow
end Flowgraph
