import LeafWeb.Autofill.SolveZone
import LeafWeb.Store.Legacy.Capability
import LeafWeb.Store.Legacy.UndoRedo
import LeafWeb.Store.LockFile
import LeafWeb.Store.Postgres.RedoOrder
import LeafWeb.Broker.SpendCap
import LeafWeb.Jobs.Finality
import LeafWeb.Queue.Fairness
import LeafWeb.Queue.Drain
import LeafWeb.CadEdit.Faithful
import LeafWeb.Mutation.Order
import LeafWeb.Executor.Fencing
import LeafWeb.Executor.Reaper
import LeafWeb.Executor.MemoryBinding
import LeafWeb.Executor.Turnover
import LeafWeb.Executor.Renewal
import LeafWeb.Runtime.AtMostOnce
import LeafWeb.Runtime.LeaseSequence
import LeafWeb.Lab.Recovery
import LeafWeb.Lab.FairSelection
import LeafWeb.Lab.OperatorAgreement
import LeafWeb.Approval.Stores
import LeafWeb.Campaign.DeveloperBudget
import LeafWeb.Mutation.Scope
import LeafWeb.WriteLoop.BipartiteMatch
import LeafWeb.Callbacks.Consume
import LeafWeb.Sessions.Redemption
import LeafWeb.Lab.Embed
import LeafWeb.CostMeter.Ledger
import LeafWeb.Agent.Policy
import LeafWeb.Combiner.Partition
import LeafWeb.Store.RepeatingUnit
import LeafWeb.Solar.Dependencies
