import NetZer.Lib.Sts
import NetZer.Lib.Rust
import NetZer.Lib.Trace
import NetZer.Lib.Bytes
import NetZer.Lib.Bpf
import NetZer.Lib.Text
import NetZer.Lib.Pcap
import NetZer.Lib.Json
import NetZer.Lib.Codec
import NetZer.Lib.Literals
import NetZer.Lib.Html
import NetZer.Lib.Js
import NetZer.Lib.Bits
import NetZer.Lib.Base64
import NetZer.Lib.Sha1
import NetZer.Lib.WebSocket
import NetZer.Lib.Lossy
import NetZer.Lib.Lines
import NetZer.Lib.Http
import NetZer.Core.Headers
import NetZer.Core.Layers
import NetZer.Core.Wire
import NetZer.Core.TcpStream
import NetZer.Core.Dns
import NetZer.Core.Tls
import NetZer.Core.ClientHello
import NetZer.Core.HelloGrammar
import NetZer.Core.RecordEnd
import NetZer.Core.QueryName
import NetZer.Core.Hexdump
import NetZer.Core.HexColumns
import NetZer.Core.StreamHistory
import NetZer.Cli.Format
import NetZer.Cli.TextHelpers
import NetZer.Socket.Coverage
import NetZer.Socket.Privileges
import NetZer.Socket.Ring
import NetZer.Socket.Delivery
import NetZer.Socket.Containment
import NetZer.Cli.ProcessPacket
import NetZer.Cli.PanicFree
import NetZer.Cli.Padding
import NetZer.Cli.Families
import NetZer.Cli.Setup
import NetZer.Cli.Reporting
import NetZer.Cli.Capture
import NetZer.Cli.PcapExport
import NetZer.Cli.FrameCases
import NetZer.Cli.InStep
import NetZer.Cli.CapturedText
import NetZer.Cli.Terminal
import NetZer.Cli.JsonExport
import NetZer.Cli.Escaping
import NetZer.Cli.Datagram
import NetZer.Lib.Calls
import NetZer.Socket.Open
import NetZer.Web.Server
import NetZer.Web.Dashboard
import NetZer.Web.Markup
import NetZer.Web.Statistics
import NetZer.Web.Base64
import NetZer.Web.Sha1
import NetZer.Web.Frames
import NetZer.Web.Handshake
import NetZer.Web.Segments
import NetZer.Web.HexView
import NetZer.Web.Broadcast
import NetZer.Cli.Arrivals
import NetZer.Cli.StreamKeys
import NetZer.Cli.StatusLine
import NetZer.Lib.Fairness
import NetZer.Socket.Liveness
import NetZer.Web.Liveness
import NetZer.Web.Sessions
import NetZer.Cli.Process
import NetZer.Cli.Progress
import NetZer.Cli.RecvLoop
import NetZer.Cli.Options
import NetZer.Cli.StreamDumps
import NetZer.Lib.Pages
import NetZer.Web.Paging
import NetZer.Web.Page
import NetZer.Lib.Top
import NetZer.Web.Cards
import NetZer.Lib.HttpReply
import NetZer.Web.Responses
import NetZer.Web.Shown
