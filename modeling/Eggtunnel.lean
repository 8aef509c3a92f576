import Eggtunnel.Run
import Eggtunnel.Table
import Eggtunnel.Codec
import Eggtunnel.Enrol
import Eggtunnel.Agree
import Eggtunnel.Host
import Eggtunnel.Wire
import Eggtunnel.Message
import Eggtunnel.Frame
import Eggtunnel.Common
import Eggtunnel.ReadLoop
import Eggtunnel.RoundTrip
import Eggtunnel.Feed
import Eggtunnel.Decode
import Eggtunnel.Spoofing
import Eggtunnel.Outbound
import Eggtunnel.ServiceState
import Eggtunnel.Transactions
import Eggtunnel.Client
import Eggtunnel.ClientSteps
import Eggtunnel.Server
import Eggtunnel.Link
import Eggtunnel.View
import Eggtunnel.Refine
import Eggtunnel.Exchange
import Eggtunnel.Reconnect
import Eggtunnel.Phases
import Eggtunnel.Registration
import Eggtunnel.Attribution
import Eggtunnel.Callers
import Eggtunnel.Session
import Eggtunnel.Stream
import Eggtunnel.Ledger
import Eggtunnel.Hub
import Eggtunnel.Accounting
import Eggtunnel.DataHello
import Eggtunnel.Teardown
import Eggtunnel.Index
import Eggtunnel.ServiceTables
import Eggtunnel.Operations
import Eggtunnel.Drive
import Eggtunnel.Negotiation
import Eggtunnel.Authentication
import Eggtunnel.Window
import Eggtunnel.Limiter
import Eggtunnel.Ingress
import Eggtunnel.Conservation
import Eggtunnel.History
import Eggtunnel.Waiting
import Eggtunnel.Backoff
import Eggtunnel.Endpoint
import Eggtunnel.Isolation
import Eggtunnel.ServerQueue
import Eggtunnel.AckOrder
import Eggtunnel.Tally
import Eggtunnel.Reuse
import Eggtunnel.Snapshot
import Eggtunnel.Peak
import Eggtunnel.Tide
import Eggtunnel.HighWater
import Eggtunnel.Shutdown
import Eggtunnel.Listeners
import Eggtunnel.HubMoves
import Eggtunnel.Subside
import Eggtunnel.Workers
import Eggtunnel.Release
import Eggtunnel.Ceilings
import Eggtunnel.Dial
import Eggtunnel.Circuit
import Eggtunnel.Fallible
import Eggtunnel.Profile
import Eggtunnel.Cli
import Eggtunnel.Secrets
import Eggtunnel.Quic
import Eggtunnel.KeepAlive
import Eggtunnel.Handle
import Eggtunnel.Cow
import Eggtunnel.Binds
