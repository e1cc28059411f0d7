import RcTunnel.Foundation.Machine
import RcTunnel.Foundation.Rows
import RcTunnel.Foundation.Table
import RcTunnel.Foundation.Frames
import RcTunnel.Foundation.Chunks
import RcTunnel.Foundation.Window
import RcTunnel.Foundation.Meter
import RcTunnel.Foundation.Versions
import RcTunnel.Foundation.Signals
import RcTunnel.Foundation.Separated
import RcTunnel.Foundation.Lines
import RcTunnel.Foundation.Indexed
import RcTunnel.Foundation.Succession
import RcTunnel.Engine.Proto
import RcTunnel.Engine.Client
import RcTunnel.Engine.Grant
import RcTunnel.Engine.Registration
import RcTunnel.Engine.Server
import RcTunnel.Engine.Steps
import RcTunnel.Engine.Isolation
import RcTunnel.Engine.Origin
import RcTunnel.Engine.Scope
import RcTunnel.Engine.Routing
import RcTunnel.Engine.Sockets
import RcTunnel.Engine.Takeover
import RcTunnel.Engine.Vhost
import RcTunnel.Engine.Pairing
import RcTunnel.Engine.Control
import RcTunnel.Engine.Removal
import RcTunnel.Engine.Update
import RcTunnel.Engine.Counting
import RcTunnel.Engine.Strings
import RcTunnel.Engine.Revocation
import RcTunnel.Engine.Datagram
import RcTunnel.Engine.Conf
import RcTunnel.Engine.Slots
import RcTunnel.Engine.SpecKey
import RcTunnel.Engine.UdpTunnel
import RcTunnel.Engine.UdpSessions
import RcTunnel.Engine.UdpRequests
import RcTunnel.Engine.UdpReplies
import RcTunnel.Engine.Splice
import RcTunnel.Engine.SpliceEnd
import RcTunnel.Panel.AgentRow
import RcTunnel.Panel.Renewal
import RcTunnel.Panel.Denylist
import RcTunnel.Panel.Provisioning
import RcTunnel.Panel.Enrollment
import RcTunnel.Panel.Reissue
import RcTunnel.Panel.Text
import RcTunnel.Panel.Database
import RcTunnel.Panel.Grants
import RcTunnel.Panel.Tenancy
import RcTunnel.Panel.Disjoint
import RcTunnel.Panel.Slug
import RcTunnel.Panel.Agreement
import RcTunnel.Panel.Hostnames
import RcTunnel.Panel.Registrable
import RcTunnel.Panel.Requests
import RcTunnel.Panel.Interleaved
import RcTunnel.Panel.Legible
import RcTunnel.Panel.Hosts
import RcTunnel.Panel.Lifetime
import RcTunnel.Panel.Registry
import RcTunnel.Panel.Accounting
import RcTunnel.Panel.TeamScope
import RcTunnel.Panel.Quota
import RcTunnel.Panel.Throttle
import RcTunnel.Panel.Tokens
import RcTunnel.Panel.Sessions
import RcTunnel.Panel.DemoAccounts
import RcTunnel.Panel.Admins
import RcTunnel.Panel.Operations
import RcTunnel.Panel.Building
import RcTunnel.Panel.Generation
import RcTunnel.Panel.Push
import RcTunnel.Panel.Screened
import RcTunnel.Panel.Export
import RcTunnel.Panel.Uptime
import RcTunnel.Panel.Flapping
import RcTunnel.Panel.Capacity
import RcTunnel.Panel.Tail
import RcTunnel.Agent.RenewKey
import RcTunnel.Agent.Certificates
import RcTunnel.Agent.Upgrade
import RcTunnel.Agent.Rollback
import RcTunnel.Agent.Supervisor
import RcTunnel.Joint.Polling
import RcTunnel.Joint.Counters
import RcTunnel.Joint.Billing
import RcTunnel.Joint.BilledInFull
import RcTunnel.Joint.ServerCert
import RcTunnel.Joint.Handshakes
import RcTunnel.Joint.Provenance
