import Flowgraph.Output.Check
import Flowgraph.Pattern.Reader
import Flowgraph.Program.Escalation
import Flowgraph.Program.Routing
import Flowgraph.Proofs.Emit.PortableBundle
import Flowgraph.Proofs.Graph.CycleWalk
import Flowgraph.Proofs.Lowering.BranchText
import Flowgraph.Proofs.Lowering.Diagnosis
import Flowgraph.Proofs.Lowering.Runs
import Flowgraph.Proofs.Program.RoundTrip
import Flowgraph.Proofs.State.Notifications
import Flowgraph.Proofs.State.OperationRuns
import Flowgraph.Proofs.Event.Confidentiality
import Flowgraph.Proofs.Event.Streams
import Flowgraph.Proofs.Event.ToolOutput
import Flowgraph.Proofs.Storage.Agreement
import Flowgraph.Service.Handler
import Flowgraph.State.Live
import Flowgraph.Proofs.Graph.ArcOrder
import Flowgraph.Proofs.Lowering.Redrawing
import Flowgraph.Proofs.Lowering.StateAccess
import Flowgraph.Proofs.Lowering.ResultSlots
import Flowgraph.Proofs.Emit.FrontMatter
import Flowgraph.Proofs.Emit.FileNames
import Flowgraph.Proofs.Emit.StepOrder
import Flowgraph.Proofs.Emit.ToolSharing
import Flowgraph.Proofs.Graph.RecursiveSearch
import Flowgraph.Proofs.Graph.ExecutionOrder
import Flowgraph.Proofs.Service.Migration
import Flowgraph.Proofs.Graph.OrderDepth
import Flowgraph.Proofs.Graph.Unreachable
import Flowgraph.Proofs.Program.Normalization
import Flowgraph.Proofs.Lowering.ReferenceTexts
import Flowgraph.Proofs.Lowering.EmbeddedValues
import Flowgraph.Proofs.Redaction.Completeness
import Flowgraph.Proofs.Event.SummaryLimit
import Flowgraph.Proofs.Event.FailureClass
import Flowgraph.Proofs.Routing.Selection
import Flowgraph.Proofs.Output.Membership
import Flowgraph.Proofs.Lowering.Escalation
import Flowgraph.Proofs.Lowering.AnalysedGraph
import Flowgraph.Proofs.State.RefRoundTrip
