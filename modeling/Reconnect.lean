import Reconnect.Application
import Reconnect.Broker.Arrangement
import Reconnect.Broker.Channel
import Reconnect.Broker.Consumption
import Reconnect.Broker.Failures
import Reconnect.Broker.Headers
import Reconnect.Broker.Message
import Reconnect.Broker.Options
import Reconnect.Broker.Profile
import Reconnect.Broker.Publication
import Reconnect.Broker.Station
import Reconnect.Broker.Subscription
import Reconnect.Broker.TaskQueue
import Reconnect.Broker.Topic
import Reconnect.Cache.Address
import Reconnect.Cache.GuardedWork
import Reconnect.Cache.KeyStore
import Reconnect.Cache.Lock
import Reconnect.Cache.LockCall
import Reconnect.Cache.Profile
import Reconnect.Cache.Script
import Reconnect.Documents.Profile
import Reconnect.Duration
import Reconnect.Endpoint
import Reconnect.Execution
import Reconnect.Fault
import Reconnect.Folder
import Reconnect.Identifier
import Reconnect.Json.Reader
import Reconnect.Json.Value
import Reconnect.Json.Writer
import Reconnect.Main
import Reconnect.NetworkFailure
import Reconnect.Provider
import Reconnect.Rehearsal.Behaviour
import Reconnect.Rehearsal.Crew
import Reconnect.Rehearsal.Cue
import Reconnect.Rehearsal.Demonstration
import Reconnect.Rehearsal.Hub
import Reconnect.Rehearsal.Isolation
import Reconnect.Rehearsal.Network
import Reconnect.Rehearsal.Postroom
import Reconnect.Rehearsal.Script
import Reconnect.Rehearsal.Vault
import Reconnect.Schedule.Errand
import Reconnect.Schedule.Session
import Reconnect.Schedule.World
import Reconnect.Settings.Basic
import Reconnect.Settings.EnvironmentFile
import Reconnect.Settings.Files
import Reconnect.Settings.Overrides
import Reconnect.Settings.Reading
import Reconnect.Settings.Writing
import Reconnect.SortedTable
import Reconnect.Supervisor.Call
import Reconnect.Supervisor.Registry
import Reconnect.Table
import Reconnect.Text.Alphanumeric
import Reconnect.Text.Blank
import Reconnect.Text.Decimal
import Reconnect.Text.Percent
import Reconnect.Text.Printable
import Reconnect.Text.Quoted
import Reconnect.Text.Utf8
import Reconnect.Timeouts
import Reconnect.Uri
import Reconnect.Proofs.Supervisor.Interplay
import Reconnect.Proofs.Supervisor.Registry
import Reconnect.Proofs.Supervisor.Rules
import Reconnect.Proofs.Supervisor.SingleFlight
import Reconnect.Proofs.Supervisor.Coverage
import Reconnect.Proofs.Supervisor.Conservation
import Reconnect.Proofs.Cache.LockCall
import Reconnect.Proofs.Identifier
import Reconnect.Proofs.Rehearsal.Vault
import Reconnect.Proofs.Rehearsal.Quiet
import Reconnect.Proofs.Rehearsal.Contest
import Reconnect.Proofs.Rehearsal.MutualExclusion
import Reconnect.Proofs.Rehearsal.Strides
import Reconnect.Proofs.Rehearsal.Tenancy
import Reconnect.Proofs.Rehearsal.Ownership
import Reconnect.Proofs.Rehearsal.Tenure
import Reconnect.Proofs.Broker.Failures
import Reconnect.Proofs.Rehearsal.Hub
import Reconnect.Proofs.Rehearsal.Balance
import Reconnect.Proofs.Rehearsal.Shift
import Reconnect.Proofs.Rehearsal.EffectivelyOnce
import Reconnect.Proofs.Schedule.Simulation
import Reconnect.Proofs.Broker.Arrangement
import Reconnect.Proofs.Rehearsal.Layout
import Reconnect.Proofs.Rehearsal.Record
import Reconnect.Proofs.Rehearsal.Redeclaration
import Reconnect.Proofs.Supervisor.OneGeneration
import Reconnect.Proofs.Broker.Consumption
import Reconnect.Proofs.Broker.Vigil
import Reconnect.Proofs.Broker.Endurance
import Reconnect.Proofs.Broker.TopologyFirst
import Reconnect.Proofs.Rehearsal.Copies
import Reconnect.Proofs.Broker.Publication
import Reconnect.Proofs.Rehearsal.Publishing
import Reconnect.Proofs.Supervisor.Dismissal
import Reconnect.Proofs.Rehearsal.Intact
import Reconnect.Proofs.Cache.GuardedWork
import Reconnect.Proofs.Rehearsal.Custody
import Reconnect.Proofs.Broker.Remembrance
import Reconnect.Proofs.Broker.Redelivery
import Reconnect.Proofs.Rehearsal.Coherence
import Reconnect.Proofs.Cache.Script
import Reconnect.Proofs.Rehearsal.Agreement
import Reconnect.Proofs.Broker.Stopping
import Reconnect.Proofs.Broker.Topic
import Reconnect.Proofs.Rehearsal.Extent
import Reconnect.Proofs.Rehearsal.Bureau
import Reconnect.Proofs.Rehearsal.Notification
import Reconnect.Proofs.Lists
import Reconnect.Proofs.Provider
import Reconnect.Proofs.Execution.Course
import Reconnect.Proofs.Broker.Handling
import Reconnect.Proofs.Rehearsal.Circulation
import Reconnect.Proofs.Rehearsal.Inventory
import Reconnect.Proofs.Broker.Roll
import Reconnect.Proofs.Broker.Shelf
import Reconnect.Proofs.Rehearsal.QueueDeclaration
import Reconnect.Proofs.Rehearsal.Offered
import Reconnect.Proofs.Rehearsal.Watch
import Reconnect.Proofs.Cache.Attempts
import Reconnect.Proofs.Cache.Deadline
import Reconnect.Proofs.Cache.Usage
import Reconnect.Proofs.Cache.Abandonment
import Reconnect.Proofs.Cache.LostAnswers
import Reconnect.Proofs.Rehearsal.FailedSubscriptions
import Reconnect.Proofs.Rehearsal.Dispatch
import Reconnect.Proofs.Broker.TopicLanguage
import Reconnect.Proofs.Text.Utf8
import Reconnect.Proofs.Text.Percent
import Reconnect.Proofs.Endpoint
import Reconnect.Proofs.Broker.VirtualHost
import Reconnect.Proofs.Broker.Slots
import Reconnect.Proofs.Text.Lenient
import Reconnect.Proofs.Broker.Headers
import Reconnect.Proofs.Json.RoundTrip
import Reconnect.Proofs.Json.Removal
import Reconnect.Proofs.Settings.Merging
