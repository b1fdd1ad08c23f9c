import ReconcileLoop.App.Basic
import ReconcileLoop.App.Definition
import ReconcileLoop.App.Templates
import ReconcileLoop.Cache.Index
import ReconcileLoop.Cache.Ingest
import ReconcileLoop.Cluster.Answer
import ReconcileLoop.Cluster.Objects
import ReconcileLoop.Cluster.Recorder
import ReconcileLoop.Cluster.Request
import ReconcileLoop.Cluster.Watch
import ReconcileLoop.CommandLine.Choices
import ReconcileLoop.CommandLine.Flag
import ReconcileLoop.CommandLine.Invocation
import ReconcileLoop.CommandLine.Program
import ReconcileLoop.CommandLine.Scan
import ReconcileLoop.Controller.Basic
import ReconcileLoop.Controller.CrashPoints
import ReconcileLoop.Controller.Settings
import ReconcileLoop.Controller.Site
import ReconcileLoop.Controller.Time
import ReconcileLoop.Controller.Worker
import ReconcileLoop.Duration
import ReconcileLoop.Error
import ReconcileLoop.Ingress.Template
import ReconcileLoop.Json.Basic
import ReconcileLoop.Json.Fields
import ReconcileLoop.Json.Parser
import ReconcileLoop.Json.Printer
import ReconcileLoop.Json.Record
import ReconcileLoop.Json.Yaml
import ReconcileLoop.Key
import ReconcileLoop.Limiter.Backoff
import ReconcileLoop.Limiter.Bucket
import ReconcileLoop.Limiter.Tree
import ReconcileLoop.Main
import ReconcileLoop.Metrics
import ReconcileLoop.Object.Manifest
import ReconcileLoop.Object.Metadata
import ReconcileLoop.Object.Ownership
import ReconcileLoop.Object.Resource
import ReconcileLoop.Proofs.App.Codec
import ReconcileLoop.Proofs.App.StatusPatch
import ReconcileLoop.Proofs.Cache.Batching
import ReconcileLoop.Proofs.Cache.Chronicle
import ReconcileLoop.Proofs.Cache.Initial
import ReconcileLoop.Proofs.Cache.Listing
import ReconcileLoop.Proofs.Cache.OwnedObjects
import ReconcileLoop.Proofs.Cache.Owners
import ReconcileLoop.Proofs.Cache.Relist
import ReconcileLoop.Proofs.Cache.Replay
import ReconcileLoop.Proofs.Cache.Waiting
import ReconcileLoop.Proofs.Closing
import ReconcileLoop.Proofs.Controller.Crew
import ReconcileLoop.Proofs.Controller.Run
import ReconcileLoop.Proofs.Counter
import ReconcileLoop.Proofs.Crew
import ReconcileLoop.Proofs.Dispatch
import ReconcileLoop.Proofs.Gauge
import ReconcileLoop.Proofs.Handovers
import ReconcileLoop.Proofs.Hands
import ReconcileLoop.Proofs.Json.MergePatch
import ReconcileLoop.Proofs.Json.Reading
import ReconcileLoop.Proofs.KeyText
import ReconcileLoop.Proofs.Limiter.Counts
import ReconcileLoop.Proofs.Limiter.Doubling
import ReconcileLoop.Proofs.Limiter.History
import ReconcileLoop.Proofs.Lobby
import ReconcileLoop.Proofs.Object.Laws
import ReconcileLoop.Proofs.Queue.Exclusion
import ReconcileLoop.Proofs.Queue.Ledger
import ReconcileLoop.Proofs.Reconcile.Commuting
import ReconcileLoop.Proofs.Reconcile.Converged
import ReconcileLoop.Proofs.Reconcile.Footprint
import ReconcileLoop.Proofs.Reconcile.Healed
import ReconcileLoop.Proofs.Reconcile.Idle
import ReconcileLoop.Proofs.Reconcile.InSync
import ReconcileLoop.Proofs.Reconcile.Kind
import ReconcileLoop.Proofs.Reconcile.Kinds
import ReconcileLoop.Proofs.Reconcile.Lawful
import ReconcileLoop.Proofs.Reconcile.Order
import ReconcileLoop.Proofs.Reconcile.Outcome
import ReconcileLoop.Proofs.Reconcile.Passes
import ReconcileLoop.Proofs.Reconcile.Recovered
import ReconcileLoop.Proofs.Reconcile.Routed
import ReconcileLoop.Proofs.Reconcile.Spared
import ReconcileLoop.Proofs.Reconcile.Suppressed
import ReconcileLoop.Proofs.Releases
import ReconcileLoop.Proofs.Retry.Numbering
import ReconcileLoop.Proofs.Run
import ReconcileLoop.Proofs.Shutdown
import ReconcileLoop.Proofs.Store.Calls
import ReconcileLoop.Proofs.Store.Edits
import ReconcileLoop.Proofs.Store.StatusWrites
import ReconcileLoop.Proofs.Store.Told
import ReconcileLoop.Proofs.Store.Versions
import ReconcileLoop.Proofs.Store.Viewing
import ReconcileLoop.Proofs.Watch.Relay
import ReconcileLoop.Proofs.Workshop
import ReconcileLoop.Queue.Basic
import ReconcileLoop.Queue.Getter
import ReconcileLoop.Queue.Signal
import ReconcileLoop.Reconcile.Dependent
import ReconcileLoop.Reconcile.Event
import ReconcileLoop.Reconcile.Pass
import ReconcileLoop.Reconcile.World
import ReconcileLoop.Retry
import ReconcileLoop.Route
import ReconcileLoop.Store.Basic
import ReconcileLoop.Store.Feed
import ReconcileLoop.Store.Scripted
import ReconcileLoop.Template
import ReconcileLoop.Text.Printable
import ReconcileLoop.Text.Quoted
import ReconcileLoop.Watch.Channel
import ReconcileLoop.Watch.Delta
import ReconcileLoop.Watch.Pump
import ReconcileLoop.Wire.Basic
import ReconcileLoop.Wire.Invocation
import ReconcileLoop.Wire.Objects
import ReconcileLoop.Wire.Outcome
import ReconcileLoop.Wire.Settings
import ReconcileLoop.WorkQueue
