import TenantQueue.Bytes
import TenantQueue.Command.Arguments
import TenantQueue.Command.Basic
import TenantQueue.Config
import TenantQueue.Digest
import TenantQueue.Document
import TenantQueue.Double.Basic
import TenantQueue.Double.Reader
import TenantQueue.Double.Shortest
import TenantQueue.Duration
import TenantQueue.Engine.Basic
import TenantQueue.Engine.Durable
import TenantQueue.Engine.Sweep
import TenantQueue.Failure
import TenantQueue.Foreman.Assign
import TenantQueue.Foreman.Basic
import TenantQueue.Foreman.Config
import TenantQueue.Foreman.Step
import TenantQueue.Foreman.Work
import TenantQueue.Handler.Job
import TenantQueue.Handler.Registry
import TenantQueue.Handler.Script
import TenantQueue.Instant.Basic
import TenantQueue.Instant.Calendar
import TenantQueue.Instant.Parser
import TenantQueue.Instant.Printer
import TenantQueue.KeyLayout
import TenantQueue.Main
import TenantQueue.Metrics.Basic
import TenantQueue.Metrics.Exposition
import TenantQueue.Metrics.Series
import TenantQueue.Notice
import TenantQueue.Pack.Reader
import TenantQueue.Pack.Value
import TenantQueue.Pack.Writer
import TenantQueue.Priority
import TenantQueue.Program
import TenantQueue.Proofs.Engine.TasksOut
import TenantQueue.Proofs.Engine.Fairness
import TenantQueue.Proofs.Engine.Next
import TenantQueue.Proofs.Engine.Visibility
import TenantQueue.Proofs.Order
import TenantQueue.Proofs.Program
import TenantQueue.Proofs.Queue.Calls
import TenantQueue.Proofs.Queue.History
import TenantQueue.Proofs.Queue.Selection
import TenantQueue.Proofs.Queue.Sound
import TenantQueue.Proofs.Queue.Total
import TenantQueue.Proofs.ScoredSet
import TenantQueue.Proofs.Tenant
import TenantQueue.Remote.Peer
import TenantQueue.Remote.Reply
import TenantQueue.Remote.Request
import TenantQueue.Remote.Script
import TenantQueue.ScoredSet
import TenantQueue.Session
import TenantQueue.Store.Backend
import TenantQueue.Store.Call
import TenantQueue.Store.Memory
import TenantQueue.Store.Outcome
import TenantQueue.Sweeper
import TenantQueue.Table
import TenantQueue.Task.Basic
import TenantQueue.Task.Payload
import TenantQueue.Task.Record
import TenantQueue.Tenant
import TenantQueue.Text.Blank
import TenantQueue.Text.Printable
import TenantQueue.Text.Quoted
import TenantQueue.Timeline.Basic
import TenantQueue.Timeline.Service
import TenantQueue.Proofs.Double
import TenantQueue.Proofs.Queue.Deadlines
import TenantQueue.Proofs.Engine.Operations
import TenantQueue.Proofs.Engine.Redelivery
import TenantQueue.Proofs.Engine.Clearance
import TenantQueue.Proofs.Engine.Recovery
import TenantQueue.Proofs.Engine.Starvation
import TenantQueue.Proofs.Foreman.Moves
import TenantQueue.Proofs.Foreman.Orderly
import TenantQueue.Proofs.Foreman.Dispatch
import TenantQueue.Proofs.Site.Course
import TenantQueue.Proofs.Site.Dispatch
import TenantQueue.Proofs.Instant.Calendar
import TenantQueue.Proofs.Instant.Text
import TenantQueue.Proofs.Pack.RoundTrip
import TenantQueue.Proofs.Task.Record
import TenantQueue.Proofs.Pack.Lengths
import TenantQueue.Proofs.Pack.Exactness
import TenantQueue.Proofs.Task.Draft
import TenantQueue.Proofs.Task.Entries
import TenantQueue.Proofs.Document
import TenantQueue.Proofs.Task.RoundTrip
import TenantQueue.Proofs.Disruption
import TenantQueue.Proofs.Engine.Interruption
import TenantQueue.Proofs.Engine.Pairing
import TenantQueue.Proofs.Company
import TenantQueue.Proofs.Engine.Discard
import TenantQueue.Proofs.Queue.Isolation
import TenantQueue.Proofs.Engine.Ownership
import TenantQueue.Proofs.Engine.Occupancy
import TenantQueue.Proofs.Foreman.Execution
import TenantQueue.Proofs.Engine.Slots
import TenantQueue.Proofs.Foreman.Places
import TenantQueue.Proofs.Foreman.Reports
import TenantQueue.Proofs.Foreman.Staff
import TenantQueue.Proofs.Site.Shift
import TenantQueue.Proofs.Backoff
import TenantQueue.Proofs.Task.Fingerprint
import TenantQueue.Proofs.Partition
import TenantQueue.Proofs.Engine.Sweep
import TenantQueue.Proofs.Engine.Effect
import TenantQueue.Proofs.KeyLayout
import TenantQueue.Proofs.Engine.Balance
import TenantQueue.Proofs.Score
import TenantQueue.Proofs.Queue.Sequence
import TenantQueue.Proofs.Engine.Arrivals
import TenantQueue.Proofs.Engine.Priorities
import TenantQueue.Proofs.Task.Moment
import TenantQueue.Proofs.Engine.FirstIn
import TenantQueue.Proofs.Queue.Undoing
import TenantQueue.Proofs.Engine.Rollback
import TenantQueue.Proofs.Metrics
import TenantQueue.Proofs.Intake
import TenantQueue.Proofs.Engine.Logging
import TenantQueue.Proofs.Engine.Recount
import TenantQueue.Proofs.Foreman.HandBack
import TenantQueue.Proofs.Foreman.Assigner
import TenantQueue.Proofs.Foreman.Conduct
import TenantQueue.Proofs.Foreman.Turns
import TenantQueue.Proofs.Site.Executions
import TenantQueue.Proofs.Site.Statistics
import TenantQueue.Proofs.Cluster
import TenantQueue.Proofs.ScoredSet.Changes
