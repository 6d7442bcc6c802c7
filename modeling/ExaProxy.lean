import ExaProxy.Data.Ledger
import ExaProxy.Redirector.Conservation
import ExaProxy.Dns.Safety
import ExaProxy.Resolver.Runs
import ExaProxy.Client.Framing
import ExaProxy.Client.Chunked
import ExaProxy.Content.Uploads
import ExaProxy.Content.Enactment
import ExaProxy.Reactor.Relay
import ExaProxy.Reactor.Decisions
import ExaProxy.Content.Owners
import ExaProxy.Reactor.Delivery
import ExaProxy.Reactor.Pressure
import ExaProxy.Http.Response
import ExaProxy.Worker.Redirector
import ExaProxy.Http.Headers
import ExaProxy.Http.Stored
import ExaProxy.Http.Validated
import ExaProxy.Http.Lines
import ExaProxy.Worker.Destinations
import ExaProxy.Worker.Lengths
import ExaProxy.Http.Bodies
import ExaProxy.Http.Heads
import ExaProxy.Worker.Heads
import ExaProxy.Icap.Parser
import ExaProxy.Tls.ServerName
import ExaProxy.Worker.Serialize
import ExaProxy.Worker.Answers
import ExaProxy.Reactor.Gate
import ExaProxy.Util.Messagebox
import ExaProxy.Client.IcapReader
import ExaProxy.Icap.Response
import ExaProxy.Worker.ChildResponse
import ExaProxy.Client.Writing
import ExaProxy.Client.Registries
import ExaProxy.Dns.Lookup
import ExaProxy.Resolver.Client
import ExaProxy.Resolver.Addresses
import ExaProxy.Resolver.Operations
import ExaProxy.Resolver.Slots
import ExaProxy.Resolver.Counts
import ExaProxy.Resolver.Budget
import ExaProxy.Client.Pipelined
import ExaProxy.Reactor.Pipeline
import ExaProxy.Dns.Messages
import ExaProxy.Dns.Aliases
import ExaProxy.Network.Interchange
import ExaProxy.Network.Server
import ExaProxy.Client.Bodies
import ExaProxy.Client.Records
import ExaProxy.Resolver.Cache
import ExaProxy.Data.Queries
import ExaProxy.Resolver.Timing
import ExaProxy.Resolver.Retries
import ExaProxy.Resolver.Journal
import ExaProxy.Redirector.Provision
import ExaProxy.Redirector.Reactor
import ExaProxy.Util.Reading
import ExaProxy.Worker.Endings
import ExaProxy.Worker.Urls
import ExaProxy.Http.Hop
import ExaProxy.Http.Targets
import ExaProxy.Data.Grouping
import ExaProxy.Dns.Requests
import ExaProxy.Http.Printed
import ExaProxy.Resolver.Questions
import ExaProxy.Content.Local
import ExaProxy.Client.Limits
import ExaProxy.Client.Local
import ExaProxy.Data.Bytes
import ExaProxy.Network.Addresses
import ExaProxy.Resolver.Reader
import ExaProxy.Util.TimeCache
import ExaProxy.Network.Texts
import ExaProxy.Configuration.Ranges
import ExaProxy.Content.Security
import ExaProxy.Data.Channel
import ExaProxy.Util.Pipes
import ExaProxy.Redirector.Dispatch
import ExaProxy.Redirector.Limits
import ExaProxy.Redirector.Control
import ExaProxy.Data.Ring
import ExaProxy.Util.Log
import ExaProxy.Util.Alarm
import ExaProxy.Supervisor.Monitor
import ExaProxy.Supervisor.Main
import ExaProxy.Supervisor.Sound
import ExaProxy.Supervisor.Runs
import ExaProxy.Supervisor.Softstop
import ExaProxy.Supervisor.Prompt
import ExaProxy.Reactor.Unserved
import ExaProxy.Network.Queues
import ExaProxy.Reactor.Capacity
