import Imcodes.Collections.OrderedMap
import Imcodes.Collections.KeyedLog
import Imcodes.Collections.Median
import Imcodes.Collections.PlainObject
import Imcodes.Relational.Table
import Imcodes.Relational.Transaction
import Imcodes.Relational.Working
import Imcodes.Machine.Runs
import Imcodes.Queue.Types
import Imcodes.Queue.Store
import Imcodes.Queue.Operations
import Imcodes.Queue.Session
import Imcodes.Queue.Refinement
import Imcodes.Queue.Runs
import Imcodes.Queue.Versions
import Imcodes.Queue.PrivateMaterial
import Imcodes.Queue.Listing
import Imcodes.Queue.Reducer
import Imcodes.Queue.Emission
import Imcodes.Queue.Convergence
import Imcodes.Queue.Epochs
import Imcodes.Queue.Working
import Imcodes.Transport.Activity
import Imcodes.Transport.State
import Imcodes.Transport.Dispatch
import Imcodes.Transport.Callbacks
import Imcodes.Transport.Calls
import Imcodes.Transport.Control
import Imcodes.Transport.Lane
import Imcodes.Transport.Moves
import Imcodes.Transport.Numbering
import Imcodes.Transport.Order
import Imcodes.Transport.Retry
import Imcodes.Transport.Once
import Imcodes.Transport.Desk
import Imcodes.Transport.Settlement
import Imcodes.Transport.Stop
import Imcodes.Resend.Holder
import Imcodes.Resend.Custody
import Imcodes.Resend.Drainable
import Imcodes.Outbox.AckOutbox
import Imcodes.Outbox.Faithful
import Imcodes.Paths.Posix
import Imcodes.GitStatus.Booking
import Imcodes.GitStatus.Pool
import Imcodes.Graphs.Closure
import Imcodes.Graphs.Walks
import Imcodes.Workflow.Types
import Imcodes.Workflow.Validators
import Imcodes.Workflow.Compiler
import Imcodes.Workflow.Accepted
import Imcodes.Workflow.Rounds
import Imcodes.Workflow.Adapter
import Imcodes.Workflow.Chain
import Imcodes.Workflow.Budgets
import Imcodes.Clones.ExecutionClone
import Imcodes.Clones.Reaping
import Imcodes.Context.Replication
import Imcodes.Context.Client
import Imcodes.Context.ClientBooks
import Imcodes.Context.Remembered
import Imcodes.FilePreview.Admission
import Imcodes.FilePreview.Cache
import Imcodes.FilePreview.Coordinator
import Imcodes.FilePreview.Answers
import Imcodes.FilePreview.Freshness
import Imcodes.FilePreview.Lockout
import Imcodes.Upgrade.PublicationGate
import Imcodes.Upgrade.Coordinator
import Imcodes.Upgrade.Safety
import Imcodes.Upgrade.Stuck
import Imcodes.Bridge.Link
import Imcodes.Bridge.Handshake
import Imcodes.Bridge.Terminal
import Imcodes.Bridge.Demand
import Imcodes.Collections.Json
import Imcodes.Share.Target
import Imcodes.Share.Command
import Imcodes.Share.Acted
import Imcodes.Share.DaemonMessage
import Imcodes.Share.Leaks
import Imcodes.Share.Tokens
import Imcodes.Streams.ReadableStream
import Imcodes.Preview.Lifetime
import Imcodes.Preview.Registry
import Imcodes.Preview.Relay
import Imcodes.Preview.Whole
import Imcodes.Share.Routing
import Imcodes.Share.Reach
import Imcodes.Collections.Versions
import Imcodes.Discussion.Offsets
import Imcodes.Discussion.Tiling
import Imcodes.Encodings.Utf8
import Imcodes.Collections.Modify
import Imcodes.Timeline.Preference
import Imcodes.Timeline.Projection
import Imcodes.Timeline.Mirror
import Imcodes.Timeline.Merge
import Imcodes.Timeline.Store
import Imcodes.Timeline.Truncation
import Imcodes.Timeline.Emitter
import Imcodes.Timeline.Replay
import Imcodes.SkillReview.Scheduler
import Imcodes.SkillReview.Worker
import Imcodes.SkillReview.Limits
import Imcodes.SkillReview.Stranded
import Imcodes.Files.Program
import Imcodes.Paths.Path
import Imcodes.Files.FileSystem
import Imcodes.Files.Changes
import Imcodes.Artifacts.RuntimePath
import Imcodes.Artifacts.Create
import Imcodes.Artifacts.Freeze
import Imcodes.Artifacts.Identity
import Imcodes.Files.Below
import Imcodes.Files.Disk
import Imcodes.Collections.Lines
import Imcodes.Encodings.Utf8Cuts
import Imcodes.Timeline.TailLines
import Imcodes.RateLimit.Limiter
import Imcodes.Encodings.Hex
import Imcodes.Preview.Frames
import Imcodes.Collections.Ranking
import Imcodes.Windows.Order
import Imcodes.Context.Backoff
import Imcodes.Sessions.CloseTargets
import Imcodes.Clones.P2pConfig
import Imcodes.Discussion.Writer
import Imcodes.Collections.JsonText
import Imcodes.History.Events
import Imcodes.Encodings.Utf8Tail
import Imcodes.History.Replay
import Imcodes.Clones.Scrub
import Imcodes.Clones.Isolation
import Imcodes.Memory.Noise
import Imcodes.Memory.StagedEvents
import Imcodes.Memory.Materialization
import Imcodes.Workflow.WellFormed
import Imcodes.Security.Lockout
import Imcodes.Timeline.Backfill
import Imcodes.Stores.SharedResource
import Imcodes.Timeline.Subagents
import Imcodes.Timeline.Finished
import Imcodes.Terminal.RawStream
import Imcodes.Encodings.Utf8Head
import Imcodes.Workflow.ScriptOutput
import Imcodes.Collections.Joined
import Imcodes.Collections.Sorted
import Imcodes.Collections.JsonOrder
import Imcodes.Workflow.StableHash
import Imcodes.Workflow.Canonical
import Imcodes.Memory.NamespaceKeys
import Imcodes.Workflow.Legacy
import Imcodes.Queue.Messages
import Imcodes.Workflow.CanonicalText
import Imcodes.Artifacts.Baseline
import Imcodes.Artifacts.Listing
import Imcodes.Artifacts.Gate
import Imcodes.Memory.Ingestion
import Imcodes.Bridge.Guarded
import Imcodes.Bridge.SendOrder
import Imcodes.Workflow.Launch
import Imcodes.Workflow.Recheck
import Imcodes.Share.Socket
import Imcodes.Collections.Recent
import Imcodes.Commands.Dedup
import Imcodes.Bridge.Answered
import Imcodes.Bridge.Owned
import Imcodes.Bridge.Held
import Imcodes.Bridge.Turns
import Imcodes.Outbox.About
import Imcodes.Commands.Delivery
import Imcodes.Queue.Rows
import Imcodes.Transport.Drains
import Imcodes.Transport.Rehydration
