import EchProxy.Framework.Lts
import EchProxy.Framework.Fifo
import EchProxy.Framework.Pipe
import EchProxy.Framework.Str
import EchProxy.Framework.Lines
import EchProxy.Framework.Result
import EchProxy.Framework.Assoc
import EchProxy.Framework.Checked
import EchProxy.Framework.Traced
import EchProxy.Framework.Reader
import EchProxy.Framework.Session
import EchProxy.Framework.Digits
import EchProxy.Framework.Cidr
import EchProxy.Framework.Search
import EchProxy.Framework.Intervals
import EchProxy.Framework.Protobuf
import EchProxy.Framework.Expiring
import EchProxy.Framework.Mutex
import EchProxy.Framework.RoundRobin
import EchProxy.Framework.Base64
import EchProxy.Base
import EchProxy.Net
import EchProxy.Net.Text
import EchProxy.Client.Config
import EchProxy.Client.Auth
import EchProxy.Client.Pool
import EchProxy.Server.Auth
import EchProxy.Server.Tokens
import EchProxy.Server.Policy
import EchProxy.Server.Ssrf
import EchProxy.Tunnel.Frame
import EchProxy.Tunnel.ReadTask
import EchProxy.Tunnel.Client
import EchProxy.Tunnel.Release
import EchProxy.Tunnel.Server
import EchProxy.Tunnel.ServerInv
import EchProxy.Tunnel.Timed
import EchProxy.Tunnel.Enforcement
import EchProxy.Server.Startup
import EchProxy.Tunnel.System
import EchProxy.Tunnel.Integrity
import EchProxy.Tunnel.EndOfFile
import EchProxy.Tunnel.Direct
import EchProxy.Tunnel.Calm
import EchProxy.Tunnel.Causes
import EchProxy.Tunnel.Progress
import EchProxy.Tunnel.Opened
import EchProxy.Tunnel.Speech
import EchProxy.Tunnel.Conformance
import EchProxy.Tunnel.Termination
import EchProxy.Tunnel.HalfClose
import EchProxy.Tunnel.ServerRelease
import EchProxy.Tunnel.Keepalive
import EchProxy.Tunnel.Recovery
import EchProxy.Tunnel.Backpressure
import EchProxy.Client.Proxy
import EchProxy.Tunnel.Encoding
import EchProxy.Ech.Response
import EchProxy.Ech.Grammar
import EchProxy.Ech.Encoding
import EchProxy.Ech.Cursor
import EchProxy.Ech.Query
import EchProxy.Ech.QueryName
import EchProxy.Ech.Connect
import EchProxy.Ech.SslConnector
import EchProxy.Client.Registry
import EchProxy.Client.Pick
import EchProxy.Ech.Cache
import EchProxy.Ech.Bootstrap
import EchProxy.Ech.Published
import EchProxy.Ech.FailClosed
import EchProxy.Route.ChinaIp
import EchProxy.Route.Coverage
import EchProxy.Route.Canonical
import EchProxy.Route.Router
import EchProxy.Ingress.Outbound
import EchProxy.Socks.Handshake
import EchProxy.Socks.Encoding
import EchProxy.Socks.Handle
import EchProxy.Socks.Bounded
import EchProxy.Http.Request
import EchProxy.Http.Rewrite
import EchProxy.Http.Wire
import EchProxy.Http.Authority
import EchProxy.Http.HostHeader
import EchProxy.Http.Handle
import EchProxy.Ingress.DirectPath
import EchProxy.Http.KeepAlive
import EchProxy.Http.Cut
import EchProxy.Http.Size
import EchProxy.Ingress.Authenticated
import EchProxy.Ingress.Credentials
import EchProxy.Ingress.Destination
import EchProxy.Client.Startup
import EchProxy.Client.StartOrder
import EchProxy.Client.Tables
import EchProxy.Socks.OwnUser
import EchProxy.Ingress.Reply
import EchProxy.Ingress.Transparent
import EchProxy.Ingress.Conversation
import EchProxy.Ingress.MessageSize
