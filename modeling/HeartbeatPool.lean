import HeartbeatPool.Text.Invisible
import HeartbeatPool.Text.Quoted
import HeartbeatPool.Text.Shape
import HeartbeatPool.Text.Duration
import HeartbeatPool.Text.Blank
import HeartbeatPool.Decimal.Shortest
import HeartbeatPool.Table
import HeartbeatPool.Json.Fault
import HeartbeatPool.Json.Cursor
import HeartbeatPool.Json.Skip
import HeartbeatPool.Json.StringLiteral
import HeartbeatPool.Json.Number
import HeartbeatPool.Endpoint
import HeartbeatPool.Settings
import HeartbeatPool.Error
import HeartbeatPool.Connection
import HeartbeatPool.Event
import HeartbeatPool.Config.Basic
import HeartbeatPool.Config.Reader
import HeartbeatPool.Config.Files
import HeartbeatPool.Pool.Basic
import HeartbeatPool.World.Basic
import HeartbeatPool.World.Step
import HeartbeatPool.World.Prompt
import HeartbeatPool.Session.Script
import HeartbeatPool.Session.Step
import HeartbeatPool.Session.State
import HeartbeatPool.Session.Activity
import HeartbeatPool.Session.Run
import HeartbeatPool.Session.Direct
import HeartbeatPool.Channel.Uri
import HeartbeatPool.Channel.Factory
import HeartbeatPool.Channel.Pool
import HeartbeatPool.Demo.Greeter
import HeartbeatPool.Demo.Environment
import HeartbeatPool.Demo.Worker
import HeartbeatPool.Demo.Client
import HeartbeatPool.Main
import HeartbeatPool.Proofs.Totals
import HeartbeatPool.Proofs.Effect
import HeartbeatPool.Proofs.Stock
import HeartbeatPool.Proofs.Holdings
import HeartbeatPool.Proofs.Step
import HeartbeatPool.Proofs.Balance
import HeartbeatPool.Proofs.Keeping
import HeartbeatPool.Proofs.Orderly
import HeartbeatPool.Proofs.Census
import HeartbeatPool.Proofs.Counter
import HeartbeatPool.Proofs.Open
import HeartbeatPool.Proofs.Slots
import HeartbeatPool.Proofs.Ledger
import HeartbeatPool.Proofs.Custody
import HeartbeatPool.Proofs.Occurrences
import HeartbeatPool.Proofs.Vetting
import HeartbeatPool.Proofs.Release
import HeartbeatPool.Proofs.Dials
import HeartbeatPool.Proofs.Provenance
import HeartbeatPool.Proofs.DialCount
import HeartbeatPool.Proofs.Unlimited
import HeartbeatPool.Proofs.Truncation
import HeartbeatPool.Proofs.Lockstep
import HeartbeatPool.Proofs.LockstepCalls
import HeartbeatPool.Proofs.LockstepTasks
import HeartbeatPool.Proofs.Deadlines
import HeartbeatPool.Proofs.Grammar
import HeartbeatPool.Proofs.Skipping
import HeartbeatPool.Proofs.ConfigText
import HeartbeatPool.Proofs.Completion
import HeartbeatPool.Proofs.Builds
import HeartbeatPool.Proofs.Creations
import HeartbeatPool.Proofs.Apart
import HeartbeatPool.Proofs.Members
import HeartbeatPool.Proofs.AllOrNothing
import HeartbeatPool.Proofs.Grouping
import HeartbeatPool.Proofs.Neighbours
import HeartbeatPool.Proofs.Services
import HeartbeatPool.Proofs.Independence
import HeartbeatPool.Proofs.Answers
import HeartbeatPool.Proofs.Course
import HeartbeatPool.Proofs.Attempts
import HeartbeatPool.Proofs.InTime
import HeartbeatPool.Proofs.Trials
import HeartbeatPool.Proofs.Alone
import HeartbeatPool.Proofs.Prompting
import HeartbeatPool.Proofs.Crew
import HeartbeatPool.Proofs.Rounds
import HeartbeatPool.Proofs.Accounts
import HeartbeatPool.Proofs.Channels
import HeartbeatPool.Proofs.Healing
import HeartbeatPool.Proofs.ChannelCalls
import HeartbeatPool.Proofs.Cancellation
import HeartbeatPool.Proofs.Rotation
import HeartbeatPool.Proofs.Documents
import HeartbeatPool.Proofs.Decoding
import HeartbeatPool.Proofs.Schema
import HeartbeatPool.Proofs.Timing
import HeartbeatPool.Proofs.Rejections
import HeartbeatPool.Proofs.Admission
import HeartbeatPool.Proofs.Uris
import HeartbeatPool.Proofs.Addresses
