import Famp.Bus.AwaitOnce
import Famp.Bus.Awaiting
import Famp.Bus.Codec
import Famp.Bus.Cursors
import Famp.Bus.Delivery
import Famp.Bus.DrainWalk
import Famp.Bus.FrameLimit
import Famp.Bus.Guests
import Famp.Bus.Handle
import Famp.Bus.Handled
import Famp.Bus.InboxOnce
import Famp.Bus.Isolation
import Famp.Bus.Mailbox
import Famp.Bus.Membership
import Famp.Bus.Origin
import Famp.Bus.Parked
import Famp.Bus.Proto
import Famp.Bus.Provenance
import Famp.Bus.ReadBack
import Famp.Bus.Reading
import Famp.Bus.Refusal
import Famp.Bus.Roles
import Famp.Bus.State
import Famp.Bus.StateInvariant
import Famp.Bus.System
import Famp.Bus.Transition
import Famp.Bus.Wake
import Famp.Bus.WakeDrain
import Famp.Bus.WalkContract
import Famp.Cli.ForeignServers
import Famp.Cli.Hook
import Famp.Cli.Looking
import Famp.Cli.Render
import Famp.Cli.Send
import Famp.Cli.SendContent
import Famp.Cli.SendReadable
import Famp.Cli.StopLock
import Famp.Cli.Tail
import Famp.Cli.Threads
import Famp.Cli.Transcript
import Famp.Core.Ids
import Famp.Core.Principals
import Famp.Core.Uuids
import Famp.Data.FixedWindow
import Famp.Data.Insertion
import Famp.Data.Instant
import Famp.Data.Limiter
import Famp.Data.Lines
import Famp.Data.Occurrence
import Famp.Data.OrdMap
import Famp.Data.Path
import Famp.Data.Recent
import Famp.Data.Run
import Famp.Data.Slot
import Famp.Data.Words
import Famp.Envelope.Body
import Famp.Envelope.Bus
import Famp.Envelope.Encode
import Famp.Envelope.Federation
import Famp.Envelope.Roundtrip
import Famp.Envelope.Signed
import Famp.Envelope.View
import Famp.Fsm.Task
import Famp.Gateway.Delivered
import Famp.Gateway.Egress
import Famp.Gateway.Guard
import Famp.Gateway.Ingress
import Famp.Gateway.NonceMemory
import Famp.Gateway.RateLimits
import Famp.Gateway.RelayFetch
import Famp.Gateway.Replay
import Famp.Gateway.Retry
import Famp.Inbox.Agreement
import Famp.Inbox.File
import Famp.Inspect.Agreement
import Famp.Inspect.Tasks
import Famp.Json.Double
import Famp.Json.Object
import Famp.Json.Plain
import Famp.Json.Serde
import Famp.Json.Spelling
import Famp.Json.Text
import Famp.Json.Value
import Famp.Keyring.Effect
import Famp.Keyring.File
import Famp.Keyring.Finality
import Famp.Keyring.Pinning
import Famp.Keyring.Reload
import Famp.Keyring.Revocation
import Famp.Keyring.Store
import Famp.Pairing.Invite
import Famp.Pairing.KillSwitch
import Famp.Pairing.Redeem
import Famp.Pairing.SingleUse
import Famp.Pairing.Status
import Famp.Relay.Accounting
import Famp.Relay.FetchAuth
import Famp.Relay.Http
import Famp.Relay.Once
import Famp.Relay.Queue
import Famp.Bus.Stream
import Famp.Json.Nesting
