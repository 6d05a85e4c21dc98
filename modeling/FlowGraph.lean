import FlowGraph.Proofs.Expression.Entry
import FlowGraph.Proofs.Expression.Quoting
import FlowGraph.Proofs.Expression.Stuck
import FlowGraph.Proofs.Expression.Substitution
import FlowGraph.Proofs.Run.Attribution
import FlowGraph.Proofs.Run.Call
import FlowGraph.Proofs.Run.Depth
import FlowGraph.Proofs.Run.Failing
import FlowGraph.Proofs.Run.Footprint
import FlowGraph.Proofs.Run.Handover
import FlowGraph.Proofs.Run.Iteration
import FlowGraph.Proofs.Run.Lockstep
import FlowGraph.Proofs.Run.Repetition
import FlowGraph.Proofs.Run.Routing
import FlowGraph.Proofs.Run.Selection
import FlowGraph.Proofs.Run.Termination
import FlowGraph.Proofs.Run.Unfolding
import FlowGraph.Proofs.Server.Creation
import FlowGraph.Proofs.Server.Expiry
import FlowGraph.Proofs.Server.Refusal
import FlowGraph.Proofs.Store.Insertion
import FlowGraph.Proofs.Template.Decomposition
import FlowGraph.Proofs.Template.Resolution
import FlowGraph.Proofs.Workflow.Faults
import FlowGraph.Settings
import FlowGraph.Store.Address
