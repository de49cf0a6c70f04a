import VsFleet.Misc.OrderedMap
import VsFleet.Protocol.Wire
import VsFleet.Hub.Merge
import VsFleet.Hub.Fleet
import VsFleet.Hub.Proofs.MergeRefines
import VsFleet.HostCore.View
import VsFleet.HostCore.Proofs.FaceFold
import VsFleet.HostCore.Proofs.FaceSimulation
import VsFleet.Hub.Persist
import VsFleet.Hub.Server
import VsFleet.Hub.Proofs.StoreSteps
import VsFleet.Hub.Proofs.MessageSteps
import VsFleet.Hub.Proofs.LastWriter
import VsFleet.Hub.Proofs.GcPass
import VsFleet.Hub.Proofs.PublishedView
import VsFleet.Hub.Proofs.Unread
import VsFleet.Hub.Proofs.Replay
import VsFleet.Reporter.Buffer
import VsFleet.Reporter.Identity
import VsFleet.Reporter.Core
import VsFleet.Reporter.Driver
import VsFleet.Reporter.Proofs.Backlog
import VsFleet.Reporter.Proofs.LinkSteps
import VsFleet.Reporter.Proofs.Reconnect
import VsFleet.Reporter.Proofs.Regression
import VsFleet.Extension.Heartbeat
import VsFleet.Extension.Proofs.Interleaving
import VsFleet.Host.HubClient
import VsFleet.HostCore.Proofs.Pings
import VsFleet.Host.Proofs.MutationPings
import VsFleet.Host.Proofs.SoloPings
import VsFleet.Host.Proofs.PingsInStep
import VsFleet.Hub.Proofs.Marks
import VsFleet.Hub.Proofs.FailedAppends
import VsFleet.Hub.Proofs.SoloExclusive
import VsFleet.Hub.Connection
import VsFleet.Hub.Proofs.LaggingFace
import VsFleet.Reporter.Proofs.Restart
import VsFleet.Reporter.Channel
import VsFleet.Reporter.Proofs.Outage
import VsFleet.Reporter.Proofs.SilentRuns
import VsFleet.Reporter.Proofs.UplinkSteps
import VsFleet.Reporter.Proofs.RemovedRuns
import VsFleet.Reporter.Proofs.SweptSessions
import VsFleet.Hub.Lockfile
import VsFleet.Hub.Proofs.SoleHub
import VsFleet.Reporter.Claude
import VsFleet.Reporter.ClaudeInfer
import VsFleet.Reporter.ClaudeShim
import VsFleet.Reporter.Codex
import VsFleet.Reporter.Proofs.Honesty
import VsFleet.Reporter.Proofs.InferredWaiting
import VsFleet.Reporter.Receiver
import VsFleet.Reporter.Proofs.ShellSteps
import VsFleet.Reporter.Proofs.Silence
import VsFleet.Reporter.Proofs.Revival
import VsFleet.Hub.Proofs.RollupOrder
import VsFleet.Reporter.Proofs.Delivery
import VsFleet.HostCore.Proofs.PingRules
import VsFleet.HostCore.Proofs.Outstanding
import VsFleet.Cli.Render
import VsFleet.Hub.Proofs.Readers
import VsFleet.Cli.Proofs.RowsInStep
import VsFleet.Misc.Serde
import VsFleet.Protocol.Codec
import VsFleet.Protocol.Proofs.RoundTrip
import VsFleet.Hub.Codec
import VsFleet.Protocol.Proofs.UnknownKeys
import VsFleet.Hub.Proofs.WireRoundTrip
import VsFleet.Reporter.Proofs.RunIds
import VsFleet.Reporter.Proofs.FinalReport
import VsFleet.Reporter.Proofs.TickVerdicts
import VsFleet.Reporter.Transcript
import VsFleet.Reporter.Proofs.Corroborators
import VsFleet.Misc.History
import VsFleet.Host.Bridge
import VsFleet.Host.Proofs.RegistrySteps
import VsFleet.Host.Proofs.ServerHistory
import VsFleet.Host.Proofs.Registry
import VsFleet.Host.Connections
import VsFleet.Host.Proofs.Commands
import VsFleet.HostCore.Sort
import VsFleet.Host.Render
import VsFleet.Host.Rail
import VsFleet.Host.Proofs.Prediction
import VsFleet.Host.Proofs.Rollback
import VsFleet.Cli.Init
import VsFleet.Cli.Proofs.HookIdempotence
import VsFleet.Cli.Proofs.Backups
import VsFleet.Cli.Proofs.InitSteps
import VsFleet.Cli.Proofs.Tracking
import VsFleet.Cli.Proofs.ConfigFiles
import VsFleet.Cli.Proofs.Reversible
import VsFleet.Cli.Proofs.InitCycles
import VsFleet.Reporter.Panics
import VsFleet.Reporter.Proofs.Panics
import VsFleet.Cli.Proofs.InitPanics
import VsFleet.HostCore.Proofs.EarliestWait
import VsFleet.HostCore.Proofs.Escalation
import VsFleet.HostCore.Proofs.SortOrder
import VsFleet.HostCore.Palette
import VsFleet.Misc.Subsequence
import VsFleet.HostCore.Proofs.FuzzyLaw
import VsFleet.Misc.Cycle
import VsFleet.HostCore.Proofs.UnreadCycle
import VsFleet.Host.Proofs.Selection
import VsFleet.Reporter.Proofs.BufferOrder
import VsFleet.Hub.Proofs.ExpiredOnly
import VsFleet.Cli.Proofs.HooksComplete
import VsFleet.Host.Supervisor
import VsFleet.Host.Proofs.SpawnFailure
import VsFleet.Host.Supervision
import VsFleet.Host.Proofs.ServerTables
import VsFleet.Misc.Shell
import VsFleet.Extension.Shim
import VsFleet.Host.ClaudeShim
import VsFleet.Host.Proofs.ShellQuoting
import VsFleet.Misc.JsText
import VsFleet.Extension.OscParser
import VsFleet.Extension.Proofs.OscChunks
import VsFleet.Extension.Proofs.OscBounds
import VsFleet.Extension.Proofs.OscResync
import VsFleet.Extension.Proofs.OscGrammar
import VsFleet.Misc.JsPath
import VsFleet.Extension.Proofs.WindowPaths
import VsFleet.FleetBridge.Extension
import VsFleet.FleetBridge.Proofs.Redial
import VsFleet.Host.Proofs.Surfaces
import VsFleet.Reporter.Proofs.Stamps
import VsFleet.Reporter.Backoff
import VsFleet.Reporter.Proofs.BackoffBounds
import VsFleet.Misc.Calendar
import VsFleet.Misc.FixedWidth
import VsFleet.Hub.Proofs.IsoStamps
import VsFleet.Hub.Cell
import VsFleet.Hub.Proofs.Cells
import VsFleet.Host.Link
import VsFleet.Host.Proofs.LinkInStep
import VsFleet.Host.Proofs.BadgeInStep
import VsFleet.Host.PhoneHome
import VsFleet.Host.Proofs.PhoneHome
import VsFleet.Host.Proofs.Restart
import VsFleet.Host.Proofs.RemoteCommand
import VsFleet.Extension.Window
import VsFleet.Extension.Proofs.WindowParts
import VsFleet.Extension.Proofs.Window
import VsFleet.Host.Proofs.ServerList
import VsFleet.Host.Proofs.ServerRefresh
import VsFleet.Host.ToolPath
import VsFleet.Host.Proofs.ToolPath
