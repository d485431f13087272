import Polling.Text
import Polling.Address.Basic
import Polling.Address.Printer
import Polling.Address.Parser
import Polling.ServiceKey
import Polling.Json.Basic
import Polling.Json.Lexer
import Polling.Json.Reader
import Polling.Json.Printer
import Polling.EventId
import Polling.Instant.Basic
import Polling.Instant.Parser
import Polling.Error
import Polling.Config.Basic
import Polling.Document.Parts
import Polling.Document.Configuration
import Polling.Notification
import Polling.Document.Notification
import Polling.Matching.Sources
import Polling.Matching.Membership
import Polling.Monitor.Registry
import Polling.Directory
import Polling.Store.Basic
import Polling.Store.Queries
import Polling.Inventory
import Polling.Outage
import Polling.Schedule.Deletion
import Polling.Engine.Delivery
import Polling.Document.Status
import Polling.Proofs.Schedule.Marks
import Polling.Proofs.Schedule.Actions
import Polling.Proofs.Schedule.Journal
import Polling.Proofs.Schedule.Nodes
import Polling.Proofs.Schedule.Queue
import Polling.Proofs.Schedule.Expulsion
import Polling.Proofs.Schedule.Listing
import Polling.Proofs.Schedule.Tree
import Polling.Proofs.Schedule.Levels
import Polling.Proofs.Engine.Calls
import Polling.Proofs.Engine.Removal
import Polling.Proofs.Engine.Loops
import Polling.Proofs.Engine.Plan
import Polling.Proofs.Engine.Outcome
import Polling.Proofs.Engine.Effects
import Polling.Proofs.Engine.Footprint
import Polling.Proofs.Engine.Orderly
import Polling.Proofs.Engine.Reachable
import Polling.Proofs.Engine.Reconciliation
import Polling.Proofs.Engine.Handling
import Polling.Proofs.Engine.Safety
import Polling.Proofs.Engine.OutageSafety
import Polling.Proofs.Schedule.Confirmation
import Polling.Proofs.Schedule.Flattening
import Polling.Proofs.Engine.Timeliness
import Polling.Proofs.Engine.Alignment
import Polling.Proofs.Engine.Reload
import Polling.Proofs.Engine.Demand
import Polling.Proofs.Engine.Interleaving
import Polling.Proofs.Engine.Agreement
import Polling.Proofs.Engine.Redelivery
import Polling.Proofs.Engine.Confinement
import Polling.Proofs.Engine.Discarding
import Polling.Proofs.Text.Digits
import Polling.Proofs.Json.Tokens
import Polling.Proofs.Json.RoundTrip
import Polling.Proofs.Address.RoundTrip
import Polling.Proofs.Document.Configuration
import Polling.Proofs.Store.Replacement
import Polling.Proofs.Store.Saving
import Polling.Proofs.Store.Consistency
import Polling.Proofs.Engine.Convergence
import Polling.Proofs.Instant.RoundTrip
import Polling.Proofs.EventId
import Polling.Proofs.Document.Notification
import Polling.Proofs.Engine.Closing
import Polling.Proofs.Engine.Difference
import Polling.Proofs.Schedule.Provenance
import Polling.Proofs.Engine.Licence
import Polling.Proofs.Engine.Authority
import Polling.Proofs.Engine.Withdrawal
import Polling.Proofs.Store.Settings
import Polling.Proofs.Engine.Moving
import Polling.Proofs.Engine.Retry
import Polling.Proofs.Matching.Isolation
import Polling.Proofs.Matching.Rules
import Polling.Proofs.Store.Dormancy
import Polling.Proofs.Monitor.Index
import Polling.Proofs.Address.Order
import Polling.Proofs.Text.Lines
import Polling.Proofs.Address.Listing
import Polling.Proofs.Outages.History
