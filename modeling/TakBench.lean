import TakBench.Library.Loop
import TakBench.Library.Machine
import TakBench.Library.Enumeration
import TakBench.Library.Rounding
import TakBench.Library.Scanner
import TakBench.Library.Substitution
import TakBench.Library.Search
import TakBench.Library.Markup
import TakBench.Library.Utf8
import TakBench.Library.Text
import TakBench.Library.Replacement
import TakBench.Library.Records
import TakBench.Numeric
import TakBench.Durations
import TakBench.Config
import TakBench.Host
import TakBench.Safety
import TakBench.Names
import TakBench.TlsPaths
import TakBench.Scheduling
import TakBench.TimeRange
import TakBench.Backoff
import TakBench.Protocol.Decoder
import TakBench.Protocol.Retention
import TakBench.Protocol.Escaping
import TakBench.Protocol.Event
import TakBench.Protocol.Inspect
import TakBench.Protocol.Reference
import TakBench.Protocol.RoundTrip
import TakBench.Protocol.Loss
import TakBench.Scenario.Failure
import TakBench.Scenario.Connect
import TakBench.Scenario.Fragmentation
import TakBench.Scenario.World
import TakBench.Scenario.Barrier
import TakBench.Scenario.LostWakeup
import TakBench.Scenario.Reader
import TakBench.Scenario.Sender
import TakBench.Scenario.Freshness
import TakBench.Scenario.Session
import TakBench.Scenario.Accounting
import TakBench.Scenario.Books
import TakBench.Scenario.Participant
import TakBench.Scenario.InvalidBudget
import TakBench.Scenario.LastFailure
import TakBench.Scenario.Connection
import TakBench.Scenario.Dials
import TakBench.Scenario.Recovery
import TakBench.Scenario.TlsFailures
import TakBench.Scenario.Run
import TakBench.Scenario.Load
import TakBench.Scenario.Readiness
import TakBench.Scenario.Deadline
import TakBench.Scenario.Cancellation
import TakBench.Scenario.Disconnects
import TakBench.Scenario.Joining
import TakBench.Scenario.Counters
import TakBench.Scenario.MessageErrors
import TakBench.Scenario.Delivery
import TakBench.Scenario.SendTimes
import TakBench.Scenario.Samples
import TakBench.Scenario.Tracking
import TakBench.Scenario.Chronicle
import TakBench.Scenario.Verdict
import TakBench.Scenario.Received
import TakBench.Scenario.Routing
import TakBench.Scenario.Intake
import TakBench.Scenario.Receipts
import TakBench.Scenario.Relay
import TakBench.Scenario.Roles
import TakBench.Scenario.Sockets
import TakBench.Scenario.Ending
import TakBench.Scenario.Outcome
import TakBench.Scenario.Panics
import TakBench.Scenario.Pacing
import TakBench.Scenario.Ramp
import TakBench.Scenario.Throughput
import TakBench.Scenario.Abrupt
import TakBench.Scenario.Channels
import TakBench.Scenario.Shutdown
import TakBench.Runner.Thresholds
import TakBench.Runner.Rates
import TakBench.Runner.Execution
import TakBench.Runner.Agreement
import TakBench.Runner.Lifecycle
import TakBench.Runner.Sampling
import TakBench.Runner.Settlement
import TakBench.Runner.Tallies
import TakBench.Runner.Violations
import TakBench.Runner.Ending
import TakBench.Runner.Response
import TakBench.Runner.Jsonl
import TakBench.Cli.Settings
import TakBench.Cli.Commands
