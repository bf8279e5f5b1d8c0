import Shroudb.Wire.Utf8
import Shroudb.Wire.Decimal
import Shroudb.Wire.Reader
import Shroudb.Wire.Decode
import Shroudb.Wire.Stream
import Shroudb.Wire.Truncated
import Shroudb.Wire.LittleEndian
import Shroudb.Wire.AsciiCase
import Shroudb.Wire.Substring
import Shroudb.Wire.Stops
import Shroudb.Resp3.Frame
import Shroudb.Resp3.Reader
import Shroudb.Resp3.RoundTrip
import Shroudb.Resp3.Limits
import Shroudb.Effect.Program
import Shroudb.Effect.Schedule
import Shroudb.Effect.Threads
import Shroudb.Effect.Channels
import Shroudb.Effect.Potential
import Shroudb.Wire.Relay
import Shroudb.Crates
import Shroudb.Store
import Shroudb.MemoryStore
import Shroudb.Protocol.Command
import Shroudb.Protocol.Response
import Shroudb.Protocol.ParseCommand
import Shroudb.Protocol.Parsable
import Shroudb.Resp3.Truncation
import Shroudb.Protocol.Handlers
import Shroudb.Protocol.Idempotency
import Shroudb.Protocol.Dispatch
import Shroudb.Protocol.AclCoverage
import Shroudb.Protocol.NamespaceVisibility
import Shroudb.Protocol.CacheIsolation
import Shroudb.Protocol.Replay
import Shroudb.Protocol.Atomicity
import Shroudb.Protocol.ConcurrentReplay
import Shroudb.Protocol.CacheRetention
import Shroudb.Protocol.ConfigLog
import Shroudb.Protocol.RekeyKey
import Shroudb.Protocol.OptionGrammar
import Shroudb.Protocol.StrictParsers
import Shroudb.Protocol.LooseParsers
import Shroudb.Client.Response
import Shroudb.Client.Decoder
import Shroudb.Client.Connection
import Shroudb.Client.RemoteStore
import Shroudb.Server.Connection
import Shroudb.Server.AuthGate
import Shroudb.Server.Rekey
import Shroudb.Server.RekeyRuns
import Shroudb.Server.Bundle
import Shroudb.Server.Migration
import Shroudb.Server.BundleIntegrity
import Shroudb.Server.VersionHistory
import Shroudb.Server.MigrationRuns
import Shroudb.Server.MigratedHistory
import Shroudb.Server.RekeyConfig
import Shroudb.Server.Attribution
import Shroudb.Protocol.Audit
import Shroudb.Effect.Expansion
import Shroudb.Effect.Worker
import Shroudb.Protocol.Interleaving
import Shroudb.Server.TenantIsolation
import Shroudb.Server.ReplyFraming
import Shroudb.Server.Subscription
import Shroudb.Server.Expiry
import Shroudb.Server.ReplyOrder
import Shroudb.Server.RateLimit
import Shroudb.Server.Throttle
import Shroudb.Server.ReplyGrowth
import Shroudb.Server.SubscribeAcl
import Shroudb.Server.EnvExpansion
import Shroudb.Server.TokenConfig
import Shroudb.Server.Reload
import Shroudb.Server.Turn
import Shroudb.Server.Lifecycle
import Shroudb.Server.TokenOrigin
import Shroudb.Server.Drain
import Shroudb.Server.Scheduler
import Shroudb.Server.Webhooks
import Shroudb.Server.WebhookDeliveries
import Shroudb.Server.WebhookShutdown
import Shroudb.Client.Exchange
import Shroudb.Client.Pipeline
import Shroudb.Client.SharedStore
import Shroudb.Client.Encoding
import Shroudb.Client.Simulation
import Shroudb.Client.ProxyChain
import Shroudb.Client.ChainSimulation
import Shroudb.Client.Render
import Shroudb.Client.Fidelity
import Shroudb.Client.ErrorClasses
import Shroudb.Client.Subscription
import Shroudb.Client.ElidedFields
import Shroudb.Client.Uri
import Shroudb.Client.Moat
import Shroudb.Client.TypedClient
import Shroudb.Client.RawOutput
import Shroudb.Client.DecoderSafety
import Shroudb.Cli.ShellWords
