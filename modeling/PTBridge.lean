import PTBridge.Transition.Run
import PTBridge.Stream.Bytes
import PTBridge.Stream.Reader
import PTBridge.Container.Channel
import PTBridge.Container.Heap
import PTBridge.Configuration
import PTBridge.Container.CloseOnce
import PTBridge.Dpi.Client.BaseURL
import PTBridge.Dpi.Client.Batching
import PTBridge.Dpi.Client.Callers
import PTBridge.Dpi.Client.CloseOrder
import PTBridge.Dpi.Client.ConnIDs
import PTBridge.Dpi.Client.DnsCache
import PTBridge.Dpi.Client.DnsExpiry
import PTBridge.Dpi.Client.EndOfFile
import PTBridge.Dpi.Client.HttpProxy
import PTBridge.Dpi.Client.MinTTL
import PTBridge.Dpi.Client.ReadRelease
import PTBridge.Dpi.Client.Redirects
import PTBridge.Dpi.Client.Resolver
import PTBridge.Dpi.Client.ResolverLimits
import PTBridge.Dpi.Client.StreamReader
import PTBridge.Dpi.Client.StreamSafety
import PTBridge.Dpi.Client.Transport
import PTBridge.Dpi.Client.TunnelConn
import PTBridge.Dpi.Client.TunnelWrite
import PTBridge.Dpi.Client.Upload
import PTBridge.Dpi.Client.Wakeup
import PTBridge.Dpi.Common
import PTBridge.Dpi.Datagrams
import PTBridge.Dpi.Download
import PTBridge.Dpi.Http
import PTBridge.Dpi.Parsing
import PTBridge.Dpi.Server
import PTBridge.Dpi.Server.Delivery
import PTBridge.Dpi.Server.Keyless
import PTBridge.Dpi.Server.Release
import PTBridge.Dpi.Server.Sharing
import PTBridge.Dpi.Server.Unregister
import PTBridge.Dpi.Server.Wellformed
import PTBridge.Dpi.Tenants
import PTBridge.Dpi.UploadStream
import PTBridge.Encoding.Base64
import PTBridge.Encoding.JsonRecord
import PTBridge.Net.HostPort
import PTBridge.Net.HttpHead
import PTBridge.Net.IP
import PTBridge.Obfs.Client
import PTBridge.Obfs.CopyLoop
import PTBridge.Obfs.Identity
import PTBridge.Obfs.Server
import PTBridge.Obfs.ServerCerts
import PTBridge.Snowflake.ClientMap
import PTBridge.Snowflake.Closing
import PTBridge.Snowflake.CopyLoop
import PTBridge.Snowflake.Deliveries
import PTBridge.Snowflake.Downlink
import PTBridge.Snowflake.Downlink.Packets
import PTBridge.Snowflake.Downstream
import PTBridge.Snowflake.Encapsulation
import PTBridge.Snowflake.Exchange
import PTBridge.Snowflake.Handshake
import PTBridge.Snowflake.MaxData
import PTBridge.Snowflake.OutgoingQueue
import PTBridge.Snowflake.Padding
import PTBridge.Snowflake.ProxyDialer
import PTBridge.Snowflake.QueuePacketConn
import PTBridge.Snowflake.ReadData
import PTBridge.Snowflake.Redial
import PTBridge.Snowflake.Sessions
import PTBridge.Snowflake.Socks5
import PTBridge.Snowflake.Target
import PTBridge.Snowflake.Turbotunnel
import PTBridge.Snowflake.Upstream
import PTBridge.Snowflake.WebSocket
import PTBridge.Snowflake.WebSocketConn
import PTBridge.Snowflake.WebSocketConn.Link
import PTBridge.Stream.Buffered
import PTBridge.Stream.Copy
import PTBridge.Stream.EmptyRead
import PTBridge.Stream.LastByte
import PTBridge.Stream.Pipe
import PTBridge.Stream.Pipe.Flow
import PTBridge.Stream.Program
import PTBridge.Stream.Writer
import PTBridge.Transition.Log
import PTBridge.Transition.Pool
import PTBridge.Urls
