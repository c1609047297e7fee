import UdpSpeed.Lib.Framing
import UdpSpeed.Lib.EventSystem
import UdpSpeed.Lib.SerialNumber
import UdpSpeed.Lib.FreshCounter
import UdpSpeed.Lib.Simulation
import UdpSpeed.Lib.LeadsTo
import UdpSpeed.Lib.Channel
import UdpSpeed.Kcp.Segment
import UdpSpeed.Kcp.ControlBlock
import UdpSpeed.Kcp.Send
import UdpSpeed.Kcp.Receive
import UdpSpeed.Kcp.Input
import UdpSpeed.Kcp.Flush
import UdpSpeed.Kcp.Wire
import UdpSpeed.Kcp.Reassembly
import UdpSpeed.Kcp.Filing
import UdpSpeed.Kcp.Datagram
import UdpSpeed.Kcp.Backlog
import UdpSpeed.Kcp.Head
import UdpSpeed.Kcp.Transmit
import UdpSpeed.Kcp.Arrival
import UdpSpeed.Kcp.Output
import UdpSpeed.Kcp.SendBuffer
import UdpSpeed.Kcp.Messages
import UdpSpeed.Kcp.Endpoint
import UdpSpeed.Kcp.Link
import UdpSpeed.Kcp.Delivery
import UdpSpeed.Kcp.Exchange
import UdpSpeed.Kcp.Progress
import UdpSpeed.Kcp.Completion
import UdpSpeed.Kcp.Calls
import UdpSpeed.Control.Message
import UdpSpeed.Control.ControlSession
import UdpSpeed.Control.RoundTrip
import UdpSpeed.Control.Datagram
import UdpSpeed.Muduo.Tcp
import UdpSpeed.Muduo.Buffer
import UdpSpeed.Muduo.Reading
import UdpSpeed.Muduo.Connection
import UdpSpeed.Muduo.TcpServer
import UdpSpeed.Muduo.Safety
import UdpSpeed.Muduo.Lifecycle
import UdpSpeed.Muduo.TimerQueue
import UdpSpeed.Muduo.Timers
import UdpSpeed.Proxy.DataSession
import UdpSpeed.Proxy.KcpProxy
import UdpSpeed.Proxy.Table
import UdpSpeed.Proxy.Sessions
import UdpSpeed.Proxy.Effect
import UdpSpeed.Proxy.Safety
import UdpSpeed.Proxy.Callbacks
import UdpSpeed.Proxy.Destroy
import UdpSpeed.Proxy.Streams
import UdpSpeed.Proxy.Objects
import UdpSpeed.Server.ServerSession
import UdpSpeed.Server.KcpServer
import UdpSpeed.Server.Effect
import UdpSpeed.Server.Safety
import UdpSpeed.Server.Streams
import UdpSpeed.Server.Objects
import UdpSpeed.Server.Destroy
import UdpSpeed.Server.Routing
import UdpSpeed.Server.Idle
import UdpSpeed.Server.FreshIds
import UdpSpeed.Tunnel.System
import UdpSpeed.Tunnel.Ids
import UdpSpeed.Tunnel.HalfOpen
import UdpSpeed.Tunnel.Streams
import UdpSpeed.Tunnel.EndToEnd
import UdpSpeed.Tunnel.Datagrams
import UdpSpeed.Tunnel.LateInit
import UdpSpeed.Tunnel.Reads
import UdpSpeed.Tunnel.Handover
import UdpSpeed.Tunnel.Blocking
import UdpSpeed.Tunnel.ProxyTimer
import UdpSpeed.Tunnel.ServerTimer
import UdpSpeed.Tunnel.Incarnation
import UdpSpeed.Tunnel.Fleet
import UdpSpeed.Tunnel.OneSender
