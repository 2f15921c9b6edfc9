import Aa.AtMostOnce
import Aa.Toolbox.ReplayIdentity
import Aa.Toolbox.PolicySoundness
import Aa.Toolbox.Workflow.Resume
import Aa.Toolbox.Workflow.LeastOrder
import Aa.Memory.Freshness
import Aa.Forge.MergeGate
import Aa.Kernel.ContextDigest
import Aa.Kernel.Progress
import Aa.Kernel.Resubmission
import Aa.Sifter.Spending
import Aa.Sync.RevisionConvergence
import Aa.Sync.Delivery
import Aa.Sync.Receipts
import Aa.Sync.Resumption
import Aa.Sifter.Tasks.Completion
import Aa.Sifter.Config.Resolve
import Aa.Sifter.Rpc.Service
import Aa.Sifter.Desktop.Lifecycle
import Aa.Sync.QueueOrder
import Aa.Sync.Parallel
import Aa.Sync.RevisionDigest
import Aa.Visualizer.Readable
import Aa.Memory.TornAppends
import Aa.Sync.TransferKeys
import Aa.Sync.Crashes
import Aa.Sync.Pairing
import Aa.Memory.Concurrent
import Aa.Memory.Supersede
import Aa.Memory.Canonical
import Aa.Memory.Histories
import Aa.Forge.ChildIssue
import Aa.Library.Calendar
import Aa.Visualizer.Retention
import Aa.Visualizer.Browse
import Aa.Sync.Authentication
import Aa.Sifter.Decisions.ApprovalMenu
import Aa.Sifter.Decisions.NegativeRules
import Aa.Sifter.Billing
import Aa.Sifter.Verification
import Aa.Sifter.Constraints
import Aa.Sifter.Routing.Merge
import Aa.Kernel.Assignments
import Aa.Sifter.Verifier
import Aa.Sifter.Tasks.Traversal
import Aa.Sifter.Context.Fitting
import Aa.Sifter.Recommend.Limits
import Aa.Sifter.Tasks.Decomposition
import Aa.Sifter.Rpc.Handling
import Aa.Sifter.Failures
import Aa.Sifter.Desktop.Events
import Aa.Visualizer.Source
import Aa.Sifter.Desktop.Server
import Aa.Visualizer.TimeTravel
import Aa.Contracts.Exchange
import Aa.Sifter.Egress
import Aa.Sifter.Config.Profiles
