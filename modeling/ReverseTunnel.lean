import ReverseTunnel.Address
import ReverseTunnel.Admin.Page
import ReverseTunnel.Admin.Route
import ReverseTunnel.Bytes
import ReverseTunnel.Client.Backoff
import ReverseTunnel.Client.DialBack
import ReverseTunnel.Client.Loop
import ReverseTunnel.Client.Options
import ReverseTunnel.Client.Serving
import ReverseTunnel.Client.Session
import ReverseTunnel.CommandLine.Arguments
import ReverseTunnel.CommandLine.Startup
import ReverseTunnel.Config.File
import ReverseTunnel.Config.Format
import ReverseTunnel.Config.Load
import ReverseTunnel.Config.Locate
import ReverseTunnel.Config.Settings
import ReverseTunnel.Config.Shape
import ReverseTunnel.Control.Link
import ReverseTunnel.Data.Cursor
import ReverseTunnel.Data.Toml.Atom
import ReverseTunnel.Data.Toml.Document
import ReverseTunnel.Data.Toml.Quoted
import ReverseTunnel.Data.Toml.Tree
import ReverseTunnel.Data.Value
import ReverseTunnel.Data.Yaml.Document
import ReverseTunnel.Data.Yaml.Layout
import ReverseTunnel.Data.Yaml.Line
import ReverseTunnel.Data.Yaml.Node
import ReverseTunnel.Data.Yaml.Scalar
import ReverseTunnel.Data.Yaml.Token
import ReverseTunnel.Disk.Folders
import ReverseTunnel.Disk.Path
import ReverseTunnel.Listener
import ReverseTunnel.Logging
import ReverseTunnel.Logging.Filter
import ReverseTunnel.Logging.Output
import ReverseTunnel.Main
import ReverseTunnel.Metrics
import ReverseTunnel.Proofs.Address
import ReverseTunnel.Proofs.Client.Answering
import ReverseTunnel.Proofs.Client.AttemptLife
import ReverseTunnel.Proofs.Client.Attempts
import ReverseTunnel.Proofs.Client.Backoff
import ReverseTunnel.Proofs.Client.Connections
import ReverseTunnel.Proofs.Client.DialBack
import ReverseTunnel.Proofs.Client.Heartbeats
import ReverseTunnel.Proofs.Client.Knowledge
import ReverseTunnel.Proofs.Client.Lifecycle
import ReverseTunnel.Proofs.Client.Options
import ReverseTunnel.Proofs.Client.Reconnecting
import ReverseTunnel.Proofs.Client.Refusal
import ReverseTunnel.Proofs.Client.Serving
import ReverseTunnel.Proofs.Client.Standing
import ReverseTunnel.Proofs.Client.Stopping
import ReverseTunnel.Proofs.CommandLine.Matching
import ReverseTunnel.Proofs.Config.Locating
import ReverseTunnel.Proofs.Config.Settings
import ReverseTunnel.Proofs.Config.Validation
import ReverseTunnel.Proofs.Config.WritingBack
import ReverseTunnel.Proofs.Control.Carrying
import ReverseTunnel.Proofs.Control.Dispatch
import ReverseTunnel.Proofs.Control.Link
import ReverseTunnel.Proofs.Control.Outbound
import ReverseTunnel.Proofs.Control.Running
import ReverseTunnel.Proofs.Control.Service
import ReverseTunnel.Proofs.Control.Writing
import ReverseTunnel.Proofs.Conveying
import ReverseTunnel.Proofs.Course
import ReverseTunnel.Proofs.DataHost
import ReverseTunnel.Proofs.Disk.Folders
import ReverseTunnel.Proofs.Disk.Paths
import ReverseTunnel.Proofs.Finishing
import ReverseTunnel.Proofs.Keyed
import ReverseTunnel.Proofs.Outcome
import ReverseTunnel.Proofs.Proxy.Accounting
import ReverseTunnel.Proofs.Proxy.Accounts
import ReverseTunnel.Proofs.Proxy.Connections
import ReverseTunnel.Proofs.Proxy.Conveyance
import ReverseTunnel.Proofs.Proxy.Deciding
import ReverseTunnel.Proofs.Proxy.Exchange
import ReverseTunnel.Proofs.Proxy.Faithful
import ReverseTunnel.Proofs.Proxy.History
import ReverseTunnel.Proofs.Proxy.Issuing
import ReverseTunnel.Proofs.Proxy.Judging
import ReverseTunnel.Proofs.Proxy.Lingering
import ReverseTunnel.Proofs.Proxy.Lives
import ReverseTunnel.Proofs.Proxy.Move
import ReverseTunnel.Proofs.Proxy.PairingSafety
import ReverseTunnel.Proofs.Proxy.Registering
import ReverseTunnel.Proofs.Proxy.Transparency
import ReverseTunnel.Proofs.Rehearsal.Client
import ReverseTunnel.Proofs.Rehearsal.Pairing
import ReverseTunnel.Proofs.Rehearsal.Ports
import ReverseTunnel.Proofs.Rehearsal.Program
import ReverseTunnel.Proofs.Rehearsal.Script
import ReverseTunnel.Proofs.Rehearsal.Server
import ReverseTunnel.Proofs.Rehearsal.Turn
import ReverseTunnel.Proofs.Relay
import ReverseTunnel.Proofs.Seal.Envelope
import ReverseTunnel.Proofs.Server.AfterClose
import ReverseTunnel.Proofs.Server.AnnouncementOrder
import ReverseTunnel.Proofs.Server.Announcing
import ReverseTunnel.Proofs.Server.Commuting
import ReverseTunnel.Proofs.Server.Connections
import ReverseTunnel.Proofs.Server.Conversation
import ReverseTunnel.Proofs.Server.Exchange
import ReverseTunnel.Proofs.Server.Flushing
import ReverseTunnel.Proofs.Server.Grounds
import ReverseTunnel.Proofs.Server.NameContest
import ReverseTunnel.Proofs.Server.Outsiders
import ReverseTunnel.Proofs.Server.Ownership
import ReverseTunnel.Proofs.Server.Provision
import ReverseTunnel.Proofs.Server.Proxies
import ReverseTunnel.Proofs.Server.Queued
import ReverseTunnel.Proofs.Server.Refusals
import ReverseTunnel.Proofs.Server.Replies
import ReverseTunnel.Proofs.Server.Serving
import ReverseTunnel.Proofs.Server.Sweeping
import ReverseTunnel.Proofs.Server.Teardown
import ReverseTunnel.Proofs.Session.Handshake
import ReverseTunnel.Proofs.Session.IdCycle
import ReverseTunnel.Proofs.Text.Quoting
import ReverseTunnel.Proofs.Text.Trim
import ReverseTunnel.Proofs.Text.Utf8
import ReverseTunnel.Proofs.Tunnel.FarEnd
import ReverseTunnel.Proofs.Tunnel.Lines
import ReverseTunnel.Proofs.Tunnel.NearEnd
import ReverseTunnel.Proofs.Tunnel.System
import ReverseTunnel.Proofs.Tunnel.Token
import ReverseTunnel.Proofs.Tunnel.Transparency
import ReverseTunnel.Proofs.Wire.Drawing
import ReverseTunnel.Proofs.Wire.Fields
import ReverseTunnel.Proofs.Wire.Fragments
import ReverseTunnel.Proofs.Wire.Grammar
import ReverseTunnel.Proofs.Wire.Payloads
import ReverseTunnel.Proxy.Judge
import ReverseTunnel.Proxy.Table
import ReverseTunnel.Rehearsal.Cast
import ReverseTunnel.Rehearsal.ClientLoop
import ReverseTunnel.Rehearsal.ClientSession
import ReverseTunnel.Rehearsal.Pairing
import ReverseTunnel.Rehearsal.Ports
import ReverseTunnel.Rehearsal.Program
import ReverseTunnel.Rehearsal.Server
import ReverseTunnel.Rehearsal.Turn
import ReverseTunnel.Relay
import ReverseTunnel.Seal.Aes256
import ReverseTunnel.Seal.Envelope
import ReverseTunnel.Seal.Gcm
import ReverseTunnel.Seal.Sha256
import ReverseTunnel.Server.Options
import ReverseTunnel.Server.Provision
import ReverseTunnel.Server.Reaction
import ReverseTunnel.Server.Registry
import ReverseTunnel.Server.Run
import ReverseTunnel.Session.Handshake
import ReverseTunnel.Session.Id
import ReverseTunnel.Socket
import ReverseTunnel.Text.Blank
import ReverseTunnel.Text.Combining
import ReverseTunnel.Text.Json
import ReverseTunnel.Text.Quoted
import ReverseTunnel.Text.Unprintable
import ReverseTunnel.Text.Utf8
import ReverseTunnel.Wire.Field
import ReverseTunnel.Wire.Frame
import ReverseTunnel.Wire.Kind
import ReverseTunnel.Wire.Message
import ReverseTunnel.Wire.Payload
import ReverseTunnel.Wire.Stream
