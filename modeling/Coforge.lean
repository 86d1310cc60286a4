import Coforge.Lib.Run
import Coforge.Lib.Prog
import Coforge.Lib.Serial
import Coforge.Idempotency.Redis
import Coforge.Idempotency.AtMostOnce
import Coforge.Control.Record
import Coforge.Control.Operations
import Coforge.Control.System
import Coforge.Control.Starting
import Coforge.Control.Known
import Coforge.Supervisor.Binding
import Coforge.Supervisor.Machine
import Coforge.Supervisor.Lifecycle
import Coforge.Supervisor.Upgrade
import Coforge.Supervisor.System
import Coforge.Supervisor.Work
import Coforge.Supervisor.Refused
import Coforge.Supervisor.Operations
import Coforge.Supervisor.UpgradeHistory
import Coforge.Lib.Json
import Coforge.Supervisor.BindingFile
import Coforge.Supervisor.WriteBack
import Coforge.Supervisor.Stillness
import Coforge.Supervisor.Ledger
import Coforge.Supervisor.UpgradeExclusion
import Coforge.Health.Journal
import Coforge.Lib.Pool
import Coforge.Supervisor.HeldRecovery
import Coforge.Supervisor.HeldVerdict
import Coforge.Lib.Script
import Coforge.Release.Upgrade
import Coforge.Release.Hold
import Coforge.Release.Receipt
import Coforge.Lib.Document
import Coforge.Installer.Receipt
import Coforge.Installer.ReceiptReaders
import Coforge.Installer.Identity
import Coforge.Installer.Manifest
import Coforge.Installer.ManifestReaders
import Coforge.Installer.Installed
import Coforge.Installer.InstalledReaders
import Coforge.Lib.Keyed
import Coforge.Reminder.Mirror
import Coforge.Reminder.Convergence
import Coforge.Reminder.Scheduler
import Coforge.Reminder.Invariant
import Coforge.Reminder.Interleaving
import Coforge.Reminder.Operations
import Coforge.Reminder.Wake
import Coforge.Reminder.FiringIdentity
import Coforge.Attention.Index
import Coforge.Attention.System
import Coforge.Attention.Coherence
import Coforge.Attention.LocalHold
import Coforge.Attention.SeenReport
import Coforge.Sends.Server
import Coforge.Sends.Network
import Coforge.Sends.OneMessage
import Coforge.Sends.DraftStore
import Coforge.Sends.SendMessage
import Coforge.Sends.NewerDraft
import Coforge.Attention.ConsumedFile
import Coforge.Attention.Cursor
import Coforge.Lib.Marks
import Coforge.Attention.Seen
import Coforge.Attention.Aliases
import Coforge.Attention.Renames
import Coforge.Attention.Arrivals
import Coforge.Attention.Counting
import Coforge.Attention.Scopes
import Coforge.Attention.RoundTrip
import Coforge.Lib.Trace
import Coforge.Mentions.System
import Coforge.Mentions.SettledOnce
import Coforge.Mentions.AckSound
import Coforge.Deliveries.Runtime
import Coforge.Attention.Backed
import Coforge.Deliveries.Acknowledged
import Coforge.Deliveries.Queue
import Coforge.ServerControl.Record
import Coforge.ServerControl.Store
import Coforge.ServerControl.Operations
import Coforge.ServerControl.System
import Coforge.ServerControl.Chain
import Coforge.ServerControl.Known
import Coforge.Lib.Double
import Coforge.Lib.Growth
import Coforge.ServerControl.Calls
import Coforge.ServerControl.Reach
import Coforge.ServerControl.Fencing
import Coforge.ServerControl.Resets
import Coforge.Control.Sequences
import Coforge.Control.Fenced
import Coforge.Control.SingleLaunch
import Coforge.Control.Stale
import Coforge.Reminder.Repository
import Coforge.MentionDeliveries.Record
import Coforge.MentionDeliveries.Reports
import Coforge.Reminder.Firings
import Coforge.MentionDeliveries.Outcomes
import Coforge.MentionDeliveries.Resends
import Coforge.MentionDeliveries.Envelopes
import Coforge.MentionDeliveries.Drift
import Coforge.Display.Record
import Coforge.Display.Scripts
import Coforge.Display.Revisions
import Coforge.Display.Effects
import Coforge.Display.Usage
import Coforge.Display.Fences
import Coforge.AttentionRule.Tables
import Coforge.AttentionRule.Agreement
import Coforge.AttentionRule.Boundaries
import Coforge.AttentionRule.Settling
import Coforge.AttentionRule.HandedOver
import Coforge.AttentionRule.History
import Coforge.Lib.Newest
import Coforge.Tasks.Sessions
import Coforge.Tasks.Board
import Coforge.Tasks.Steps
import Coforge.Tasks.Followed
import Coforge.Tasks.Told
import Coforge.Tasks.Repeated
import Coforge.AgentSessions.Calls
import Coforge.AgentSessions.Fenced
import Coforge.Lib.Wire
import Coforge.Protocol.Fields
import Coforge.Protocol.Reports
import Coforge.Protocol.Deliveries
import Coforge.Protocol.Start
import Coforge.Protocol.Activity
import Coforge.Protocol.Agree
import Coforge.Unread.Badges
import Coforge.Unread.Counted
import Coforge.Reconciliation.Reconciler
import Coforge.Reconciliation.Window
import Coforge.Reconciliation.World
import Coforge.Reconciliation.Shown
import Coforge.Health.Guard
import Coforge.Mentions.Bookkeeping
import Coforge.Lib.Rising
import Coforge.Threads.Summary
import Coforge.Threads.Folded
import Coforge.Attention.Normal
import Coforge.Attention.Normalized
import Coforge.AttentionRule.Freshness
import Coforge.Lib.Stream
import Coforge.Subscriptions.Gap
import Coforge.Lib.Rewriting
import Coforge.Lib.Passes
import Coforge.Bodies.Tokens
import Coforge.Bodies.Readable
import Coforge.Files.Base64
import Coforge.Files.Messages
import Coforge.Files.RoundTrip
import Coforge.Connection.HeldPublications
import Coforge.Lib.Scan
import Coforge.References.Alternatives
import Coforge.References.Matching
import Coforge.Bodies.MentionTargets
import Coforge.Bodies.CodeSpans
import Coforge.Activity.Redaction
import Coforge.Activity.Trajectory
import Coforge.Activity.Streamed
import Coforge.Lib.Lines
import Coforge.CodeAgent.JsonlProcess
import Coforge.CodeAgent.Settled
import Coforge.CodeAgent.Chunks
import Coforge.Attention.MergedSeqs
import Coforge.Files.Base64Units
import Coforge.Subscriptions.SidebarRefresh
