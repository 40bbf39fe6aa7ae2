import Perfacet.Lib.UnorderedMap
import Perfacet.Lib.Transition
import Perfacet.Detail.Time
import Perfacet.Ir.Request
import Perfacet.Policy.Access
import Perfacet.Govern.Machine
import Perfacet.Govern.Accounting
import Perfacet.Govern.Wakeup
import Perfacet.Pipeline.Lifecycle
import Perfacet.Pipeline.Resources
import Perfacet.Pipeline.Answers
import Perfacet.Pipeline.Admission
import Perfacet.Pipeline.Attempts
import Perfacet.Pipeline.Duplicates
import Perfacet.Pipeline.Simulation.Calls
import Perfacet.Pipeline.Simulation.Requests
import Perfacet.Pipeline.Simulation.Steps
import Perfacet.Pipeline.Guarantees
import Perfacet.Pipeline.Lapses
import Perfacet.Policy.YamlIdentityStore
import Perfacet.Frontend.Gate
import Perfacet.Policy.Visibility
import Perfacet.Pipeline.Facets
import Perfacet.Pipeline.Upstream
import Perfacet.Health.Cooldown
import Perfacet.Policy.JsonlGrantStore
import Perfacet.Policy.GrantSchedule
import Perfacet.Pipeline.Shutdown
import Perfacet.Pipeline.Entries
import Perfacet.Pipeline.Replies
import Perfacet.Pipeline.Tasks
import Perfacet.Pipeline.Effects
import Perfacet.Pipeline.Outcomes
import Perfacet.Pipeline.Isolation
import Perfacet.Pipeline.Handles
import Perfacet.Policy.Elevation
import Perfacet.Pipeline.ListTtl
import Perfacet.Cli.Gateway
import Perfacet.Govern.Fifo
import Perfacet.Pipeline.Tokens
import Perfacet.Pipeline.OneTask
import Perfacet.Pipeline.Orphans
import Perfacet.Pipeline.Shapes
import Perfacet.Frontend.Framing
import Perfacet.Frontend.Pipelining
import Perfacet.Health.Observation
import Perfacet.Health.ProbeHistory
import Perfacet.Pipeline.Coherence
import Perfacet.Pipeline.Summary
import Perfacet.Policy.Expiry
import Perfacet.Policy.Journal
import Perfacet.Policy.Persistence
import Perfacet.Policy.Yaml
import Perfacet.Policy.YamlLoad
import Perfacet.Policy.FailClosed
import Perfacet.Policy.Taxonomy
import Perfacet.Pipeline.Totality
import Perfacet.Backend.Timeout
import Perfacet.Netlib.RawBuffer
import Perfacet.Netlib.TimerLaws
import Perfacet.Observe.Export
import Perfacet.Netlib.TcpConnection
import Perfacet.Pipeline.ParamsHash
import Perfacet.Pipeline.SpanEnds
import Perfacet.Netlib.LoopTimerLaws
import Perfacet.Netlib.Workers
import Perfacet.Backend.Delivery
import Perfacet.Netlib.ServerSafety
import Perfacet.Frontend.Responses
import Perfacet.Observe.Destruction
import Perfacet.Netlib.Acceptor
import Perfacet.Policy.Approvals
import Perfacet.Pipeline.Limits
import Perfacet.Pipeline.RoundTrip
import Perfacet.Cli.Service
