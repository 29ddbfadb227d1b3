import CertRuns.Cluster.Error
import CertRuns.Cluster.Request
import CertRuns.Cluster.Store
import CertRuns.Command.Arguments
import CertRuns.Command.Help
import CertRuns.Command.Run
import CertRuns.Config.Basic
import CertRuns.Config.Load
import CertRuns.Control.Backoff
import CertRuns.Control.Completion
import CertRuns.Control.Controller
import CertRuns.Control.Listing
import CertRuns.Control.Monitor
import CertRuns.Control.Reconcile
import CertRuns.Control.StatusUpdate
import CertRuns.Control.Tracker
import CertRuns.Control.Wait
import CertRuns.Control.Watcher
import CertRuns.Harvest.Basic
import CertRuns.Harvest.Settings
import CertRuns.Http.Message
import CertRuns.Http.Page
import CertRuns.Http.Url
import CertRuns.Job.Build
import CertRuns.Job.Names
import CertRuns.Json.Basic
import CertRuns.Json.Decode
import CertRuns.Json.Magnitude
import CertRuns.Json.Parser
import CertRuns.Json.Printer
import CertRuns.Json.Token
import CertRuns.Main
import CertRuns.Number.Decimal
import CertRuns.Number.Double
import CertRuns.Number.Power
import CertRuns.Number.Scientific
import CertRuns.Object.Key
import CertRuns.Object.Meta
import CertRuns.Object.Pod
import CertRuns.Object.PodJson
import CertRuns.Rehearsal.Link
import CertRuns.Rehearsal.Work
import CertRuns.Rehearsal.World
import CertRuns.Report.CheckDetails
import CertRuns.Report.ClaimFile
import CertRuns.Report.Synthesis
import CertRuns.Run.Basic
import CertRuns.Run.Report
import CertRuns.Run.ReportJson
import CertRuns.Run.RunJson
import CertRuns.Server.Certificate
import CertRuns.Server.Client
import CertRuns.Server.Exchange
import CertRuns.Table
import CertRuns.Text.Blank
import CertRuns.Text.Lossy
import CertRuns.Text.Utf8
import CertRuns.Time.Duration
import CertRuns.Time.Timestamp
import CertRuns.Toml.Basic
import CertRuns.Toml.Document
import CertRuns.Toml.Scalar
import CertRuns.Proofs.Execution
import CertRuns.Proofs.Operator.Basic
import CertRuns.Proofs.Control.Reconcile
import CertRuns.Proofs.Operator.Steps
import CertRuns.Proofs.Operator.OnePod
import CertRuns.Proofs.Cluster.Endings
import CertRuns.Proofs.Cluster.Versions
import CertRuns.Proofs.Site.Basic
import CertRuns.Proofs.Site.Script
import CertRuns.Proofs.Operator.Updates
import CertRuns.Proofs.Site.StatusWrites
import CertRuns.Proofs.Operator.Roles
import CertRuns.Proofs.Site.Keys
import CertRuns.Proofs.Site.Incarnations
import CertRuns.Proofs.Operator.Commits
import CertRuns.Proofs.Site.Completion
import CertRuns.Proofs.Site.Rehearsal
import CertRuns.Proofs.Job.Names
import CertRuns.Proofs.Control.Tracker
import CertRuns.Proofs.Control.Listing
import CertRuns.Proofs.Control.Monitor
import CertRuns.Proofs.Control.Watcher
import CertRuns.Proofs.Operator.Fates
import CertRuns.Proofs.Operator.Validity
import CertRuns.Proofs.Operator.PodNumbers
import CertRuns.Proofs.Operator.Composes
import CertRuns.Proofs.Operator.Exclusive
import CertRuns.Proofs.Operator.Failures
import CertRuns.Proofs.Operator.Listings
import CertRuns.Proofs.Site.Pods
import CertRuns.Proofs.Site.Creations
import CertRuns.Proofs.Site.Placement
import CertRuns.Proofs.Site.Statuses
import CertRuns.Proofs.Site.Provenance
import CertRuns.Proofs.Site.Sharing
import CertRuns.Proofs.Site.Orphans
import CertRuns.Proofs.Site.Presence
import CertRuns.Proofs.Site.Handover
import CertRuns.Proofs.Control.Ledger
import CertRuns.Proofs.Job.Build
import CertRuns.Proofs.Job.Agreement
import CertRuns.Proofs.Number.Decimal
import CertRuns.Proofs.Json.Tokens
import CertRuns.Proofs.Json.RoundTrip
import CertRuns.Proofs.Json.Records
import CertRuns.Proofs.Time.Timestamp
import CertRuns.Proofs.Object.RoundTrip
import CertRuns.Proofs.Run.RoundTrip
import CertRuns.Proofs.Run.Course
import CertRuns.Proofs.Site.Tended
import CertRuns.Proofs.Site.Phases
import CertRuns.Proofs.Report.Verdict
import CertRuns.Proofs.Control.Views
import CertRuns.Proofs.Control.Independence
import CertRuns.Proofs.Operator.Grounds
import CertRuns.Proofs.Site.Harvests
import CertRuns.Proofs.Operator.Liveness
import CertRuns.Proofs.Control.StatusUpdate
import CertRuns.Proofs.Operator.Attempts
import CertRuns.Proofs.Site.Undisturbed
import CertRuns.Proofs.Site.Tries
import CertRuns.Proofs.Cluster.Calls
import CertRuns.Proofs.Site.Conduct
import CertRuns.Proofs.Operator.Timeline
import CertRuns.Proofs.Operator.EventStream
import CertRuns.Proofs.Control.Difference
import CertRuns.Proofs.Report.Cases
import CertRuns.Proofs.Control.PodCounter
import CertRuns.Proofs.Operator.Allocation
import CertRuns.Proofs.Site.FreshNames
import CertRuns.Proofs.Job.Failure
import CertRuns.Proofs.Job.Assembly
import CertRuns.Proofs.Toml.Integers
import CertRuns.Proofs.Time.Duration
import CertRuns.Proofs.Control.MonitorStart
import CertRuns.Proofs.Http.Percent
import CertRuns.Proofs.Http.Address
import CertRuns.Proofs.Http.Segment
import CertRuns.Proofs.Server.PodRequest
import CertRuns.Proofs.Job.PodIndex
import CertRuns.Proofs.Operator.Succession
import CertRuns.Proofs.Json.Grammar
import CertRuns.Proofs.Json.Fields
import CertRuns.Proofs.Report.CheckDetails
import CertRuns.Proofs.Json.Edits
import CertRuns.Proofs.Report.Unmodelled
import CertRuns.Proofs.Cluster.Operations
import CertRuns.Proofs.Cluster.Bookkeeping
