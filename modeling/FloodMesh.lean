import FloodMesh.Address.Basic
import FloodMesh.Address.Parser
import FloodMesh.Address.Printer
import FloodMesh.Bytes
import FloodMesh.Clock.Ticker
import FloodMesh.Clock.Timed
import FloodMesh.Command.Arguments
import FloodMesh.Command.Launch
import FloodMesh.Config.File
import FloodMesh.Config.Settings
import FloodMesh.Datagram
import FloodMesh.Decimal.Binary64
import FloodMesh.Decimal.Shortest
import FloodMesh.Discovery.Contact
import FloodMesh.Discovery.Exchange
import FloodMesh.Discovery.Keepalive
import FloodMesh.Discovery.Refresh
import FloodMesh.Failure
import FloodMesh.Json.Basic
import FloodMesh.Json.Parser
import FloodMesh.Json.Printer
import FloodMesh.Json.Record
import FloodMesh.Json.Scanner
import FloodMesh.Lease.Operation
import FloodMesh.Lease.Table
import FloodMesh.Lease.Timeline
import FloodMesh.Log.Event
import FloodMesh.Log.Filter
import FloodMesh.Main
import FloodMesh.Mesh
import FloodMesh.Node
import FloodMesh.Pattern.Brackets
import FloodMesh.Pattern.Escape
import FloodMesh.Pattern.Expression
import FloodMesh.Peers
import FloodMesh.Proofs.Address
import FloodMesh.Proofs.Bytes
import FloodMesh.Proofs.Clock.Lifetime
import FloodMesh.Proofs.Discovery.Exchange
import FloodMesh.Proofs.Discovery.Refresh
import FloodMesh.Proofs.Discovery.Tenancy
import FloodMesh.Proofs.Json.Agreement
import FloodMesh.Proofs.Json.Fields
import FloodMesh.Proofs.Json.Numeral
import FloodMesh.Proofs.Json.Record
import FloodMesh.Proofs.Json.Reread
import FloodMesh.Proofs.Lease.Append
import FloodMesh.Proofs.Lease.Arena
import FloodMesh.Proofs.Lease.Custody
import FloodMesh.Proofs.Lease.Detach
import FloodMesh.Proofs.Lease.Guarded
import FloodMesh.Proofs.Lease.Integrity
import FloodMesh.Proofs.Lease.Ledger
import FloodMesh.Proofs.Lease.Refinement
import FloodMesh.Proofs.Lease.Search
import FloodMesh.Proofs.Lease.Threads
import FloodMesh.Proofs.Lease.Trail
import FloodMesh.Proofs.Lease.Upkeep
import FloodMesh.Proofs.Mesh.Budget
import FloodMesh.Proofs.Mesh.Carriage
import FloodMesh.Proofs.Mesh.Dedup
import FloodMesh.Proofs.Mesh.Drops
import FloodMesh.Proofs.Mesh.Events
import FloodMesh.Proofs.Mesh.Exhaustion
import FloodMesh.Proofs.Mesh.Reach
import FloodMesh.Proofs.Mesh.Routes
import FloodMesh.Proofs.Mesh.Saturation
import FloodMesh.Proofs.Node
import FloodMesh.Proofs.Node.Admission
import FloodMesh.Proofs.Peers
import FloodMesh.Proofs.Peers.History
import FloodMesh.Proofs.Relay
import FloodMesh.Proofs.Relay.FanOut
import FloodMesh.Proofs.Service.Confinement
import FloodMesh.Proofs.Service.Listing
import FloodMesh.Proofs.Service.Registration
import FloodMesh.Proofs.Sightings
import FloodMesh.Proofs.Sightings.Window
import FloodMesh.Proofs.Stream.Conservation
import FloodMesh.Proofs.Stream.Framing
import FloodMesh.Proofs.Stream.Incoming
import FloodMesh.Proofs.Stream.Limit
import FloodMesh.Proofs.Stream.Pipelining
import FloodMesh.Proofs.Stream.Replies
import FloodMesh.Proofs.Stream.Segmentation
import FloodMesh.Proofs.Text.Numeral
import FloodMesh.Proofs.Wire.Envelope
import FloodMesh.Proofs.Wire.Grammar
import FloodMesh.Proofs.Wire.Peer
import FloodMesh.Proofs.Wire.PeerList
import FloodMesh.Proofs.Wire.Response
import FloodMesh.Relay
import FloodMesh.Service.Basic
import FloodMesh.Service.Directory
import FloodMesh.Service.Router
import FloodMesh.Service.Server
import FloodMesh.Sightings
import FloodMesh.Stream.Connection
import FloodMesh.Stream.Session
import FloodMesh.SystemFault
import FloodMesh.Text.Alphanumeric
import FloodMesh.Text.Blank
import FloodMesh.Text.Numeral
import FloodMesh.Text.Printable
import FloodMesh.Text.Quoted
import FloodMesh.Toml.Basic
import FloodMesh.Toml.Numeral
import FloodMesh.Toml.Parser
import FloodMesh.Toml.Scanner
import FloodMesh.Wire.Digest
import FloodMesh.Wire.Envelope
import FloodMesh.Wire.Error
import FloodMesh.Wire.Message
import FloodMesh.Wire.Peer
import FloodMesh.Wire.Request
import FloodMesh.Wire.Response
