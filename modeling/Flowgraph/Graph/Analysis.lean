import Flowgraph.Graph.Cycles
import Flowgraph.Graph.EdgeIndex
import Flowgraph.Graph.Order
import Flowgraph.Graph.Reach
import Flowgraph.Workflow.Basic

/-!
# The graph of a workflow

What the compiler asks of a workflow's graph, and the edges of a workflow by their ends.
-/
namespace Flowgraph

def graphOf (nodes : List Node) (edges : List Edge) : Graph String where
  ids := nodes.map (·.id)
  starts := (nodes.filter (·.type = .start)).map (·.id)
  arcs := edges.map fun e => (e.source, e.target)

namespace Workflow

def graph (w : Workflow) : Graph String :=
  graphOf w.nodes w.edges

def outgoing (w : Workflow) : EdgeIndex Edge :=
  .build (w.nodes.map (·.id)) (·.source) w.edges

def incoming (w : Workflow) : EdgeIndex Edge :=
  .build (w.nodes.map (·.id)) (·.target) w.edges

end Workflow
end Flowgraph
