import Candy.Runs
import Candy.Table
import Candy.Words
import Candy.Net
import Candy.WsMessage
import Candy.Orbit
import Candy.Server
import Candy.ServerSteps
import Candy.ServerRegistry
import Candy.ServerDhcp
import Candy.UdpMux
import Candy.UdpStack
import Candy.RouteTable
import Candy.Relay
import Candy.ClientRun
import Candy.Instance
import Candy.SessionTcp
import Candy.TcpInterest
import Candy.TcpForward
import Candy.PeerClient
import Candy.PeerRoutes
import Candy.PeerHandshake
import Candy.WsClient
import Candy.RoutePush
import Candy.Signalling
import Candy.DataPlane
import Candy.TcpDeregister
import Candy.TcpBackward
import Candy.TcpStack
import Candy.Service
import Candy.ReverseIndex
import Candy.UdpIndex
import Candy.Cidr
import Candy.StunResponse
import Candy.StunBinding
import Candy.Recency
import Candy.Tun
import Candy.WsDecode
import Candy.TunFlows
import Candy.TunFragments
import Candy.ClientQueues
import Candy.ClientOutputs
import Candy.ClientTraffic
import Candy.RouteAdverts
import Candy.RouteCosts
import Candy.SubnetCycle
import Candy.ServerForward
import Candy.CidrText
import Candy.PacketSize
import Candy.ServerChecks
import Candy.TcpBacklog
import Candy.TcpWindow
import Candy.Pieces
import Candy.SdwanRules
import Candy.ServerRelays
import Candy.ClientLogin
import Candy.Vpn
import Candy.VpnLogin
import Candy.VpnMembers
import Candy.Shares
import Candy.UdpCone
import Candy.UdpConeFlows
import Candy.UdpConeSteps
import Candy.UdpConeSources
import Candy.Gateway
import Candy.RoundTrip
import Candy.ClientRules
import Candy.VpnRules
import Candy.Legs
import Candy.RouteProvenance
import Candy.ClientFrames
import Candy.VpnFrames
import Candy.ConfigFile
import Candy.TcpDescriptor
import Candy.TcpLandings
import Candy.TcpNumbers
import Candy.TcpShared
import Candy.TcpLeft
