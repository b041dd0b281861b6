import Candy.DataPlane
import Candy.Modules
import Candy.StunResponse
import Candy.Tun

/-! A whole client, src/core/client.cc: the modules, the queues between them and what
leaves it. Every message carries where it came from, which no handler looks at: only
what is received, produced or handed on decides it. A handler that ends the client
leaves the state it has reached; the others may go on. -/
namespace Candy.ClientQueues
open WsMsg CoreMsg DataPlane Modules Runs
open PeerStun (Stun handleStunResponse)

inductive Module where
  | tun
  | peer
  | ws
  | netStack
  | stackTasks
  deriving DecidableEq, Repr

/- transit is a packet that a peer forwarded here for another client; server is what
a frame brought. -/
inductive Origin where
  | device
  | stack
  | server
  | peer
  | transit
  | own
  deriving DecidableEq, Repr

inductive Payload where
  | msg (msg : Msg)
  | netStack (data : Bytes)
  deriving DecidableEq, Repr

structure Item where
  payload : Payload
  origin : Origin
  deriving DecidableEq, Repr

/- control is a PING or PONG frame. -/
inductive Emission where
  | frame (frame : Bytes)
  | control (payload : Bytes)
  | packet (sealed : Sealed)
  | message (datagram : P2P.Datagram)
  | stunRequest
  | device (buffer : Bytes)
  deriving DecidableEq, Repr

structure Sent where
  emission : Emission
  origin : Origin
  deriving DecidableEq, Repr

abbrev Out := Output Module Item Sent

structure PeerEntry where
  peer : IP4
  lastSeen : Int
  deriving DecidableEq, Repr

/- key is the one datagrams are decrypted with, empty until there is an address. -/
structure Core where
  ws : WsClient.Client
  tun : Tun
  peer : P2P.Client
  key : Bytes
  stun : Stun
  stunNeeded : Bool
  localhost : IP4
  listenPort : BitVec 16
  vnetPeerMap : Table IP4 PeerEntry

structure Env where
  network : Network
  ipAddress : Bytes → Option IP4

def Env.ws (env : Env) : WsClient.Env := ⟨env.network.sha,env.ipAddress⟩

def put (queue : Module) (origin : Origin) (msg : Msg) : Out := .write queue ⟨.msg msg,origin⟩
def emit (origin : Origin) (emission : Emission) : Out := .out ⟨emission,origin⟩

def queueOf : Queue → Module
  | .tun => .tun
  | .peer => .peer
  | .ws => .ws

def wsOut (pingMessage : Bytes) (origin : Origin) : WsClient.Effect → Out
  | .sendFrame frame => emit origin (.frame frame)
  | .sendPing => emit origin (.control pingMessage)
  | .write queue msg => put (queueOf queue) origin msg

def tunOut (origin : Origin) : Tun.Effect → Out
  | .write buffer => emit origin (.device buffer)
  | .peer data => put .peer origin (.packet data)
  | .netStack data => .write .netStack ⟨.netStack data,origin⟩

namespace Core

/- The calls of the peer an event goes to, which Client.handle performs. -/
def asked (c : P2P.Client) (i : P2P.Input) : List P2P.Call :=
  let calls (p : P2P.Peer) (e : P2P.Peer.Event) := (p.handle c.manager i.clock e).2
  let found (ip : IP4) (e : P2P.Peer.Event) := match c.ipPeerMap.lookup ip with
    | some p => calls p e
    | none => []
  match i.event with
  | .tick ip => found ip .tick
  | .stunResponse ip => found ip .stunResponse
  | .heartbeat address heartbeat => found heartbeat.tunip (.heartbeat address heartbeat.ack)
  | .tryP2P src => match c.ipPeerMap.lookup src with
    | some p => calls p (.tryConnecct c.p2pOnly)
    | none => calls (.fresh src i.seed) (.tryConnecct false)
  | .pubInfo info =>
    if info.src = c.address ∨ info.dst ≠ c.address then []
    else calls ((c.ipPeerMap.lookup info.src).getD (.fresh info.src i.seed)) (.pubInfo info.ip info.port info.nearby)
  | _ => []

theorem askedPerformed (c : P2P.Client) (i : P2P.Input) :
    (∃ c' target, c.handle i = P2P.Client.perform c' target (asked c i)) ∨ asked c i = [] := by
  have found (ip : IP4) (e : P2P.Peer.Event) : ∃ c' target, c.handleFound ip i.clock e = P2P.Client.perform c' target
      (match c.ipPeerMap.lookup ip with | some p => (p.handle c.manager i.clock e).2 | none => []) := by
    unfold P2P.Client.handleFound
    cases c.ipPeerMap.lookup ip with
    | none => exact ⟨c,ip,rfl⟩
    | some p => exact ⟨_,ip,rfl⟩
  unfold P2P.Client.handle asked
  cases i.event with
  | tick ip => exact .inl (found ip .tick)
  | stunResponse ip => exact .inl (found ip .stunResponse)
  | heartbeat address heartbeat => exact .inl (found heartbeat.tunip (.heartbeat address heartbeat.ack))
  | tryP2P src =>
    dsimp only
    unfold P2P.Client.handleTryP2P
    cases c.ipPeerMap.lookup src with
    | none => exact .inl ⟨_,src,rfl⟩
    | some p => exact .inl ⟨_,src,rfl⟩
  | pubInfo info =>
    dsimp only
    unfold P2P.Client.handlePubInfo
    split
    · exact .inr rfl
    · exact .inl ⟨_,info.src,rfl⟩
  | sysrt => exact .inr rfl
  | delay delay => exact .inr rfl
  | route dst next rtt => exact .inr rfl

def sendPubInfo (c : Core) : P2P.Call → Option Out
  | .sendPubInfo dst nearby => some (put .ws .own (.pubInfo
    (if nearby then ⟨c.tun.ip,dst,c.localhost,c.listenPort,true⟩ else ⟨c.tun.ip,dst,c.stun.ip,c.stun.port,false⟩)))
  | _ => none

/- An event of the peers: their datagrams, and what they put into the websocket queue. -/
def peers (c : Core) (i : P2P.Input) : Option (Core × List Out) :=
  let calls := asked c.peer i
  (c.peer.handle i).map fun result =>
    ({c with peer := result.1,stunNeeded := c.stunNeeded || calls.contains .stunNeeded},
      result.2.map (fun d => emit .own (.message d)) ++ calls.filterMap c.sendPubInfo)

/- A text that is no address throws, and the message is dropped. -/
def handleTryP2P (env : Env) (c : Core) (ip : Bytes) (clock : P2P.Clock) (seed : BitVec 32) : Option (Core × List Out) :=
  match env.ipAddress ip with
  | none => some (c,[])
  | some src => c.peers ⟨.tryP2P src,clock,seed⟩

def handlePeerPacket (env : Env) (c : Core) (relay direct : Attempt) (clock : P2P.Clock) (seed : BitVec 32) (data : Bytes)
    (origin : Origin) : Option (Core × List Out) :=
  (handlePacket env.network c.peer relay direct data).bind fun result =>
    let sent := result.1.map fun s => emit origin (.packet s)
    match result.2 with
    | .sent => some (c,sent)
    | .tryP2P peer => (handleTryP2P env c peer.toString clock seed).map fun more => (more.1,sent ++ more.2)
    | .ws data => some (c,sent ++ [put .ws origin (.packet data)])

def handlePeerTunAddr (env : Env) (c : Core) (cidr : Bytes) : Option (Core × List Out) :=
  let moved (ip : IP4) : P2P.Client := {c.peer with manager := {c.peer.manager with tunIp := ip}}
  match Address.fromCidr env.ipAddress ⟨c.peer.manager.tunIp,IP4.zero⟩ cidr with
  | .ok a => some ({c with peer := moved a.host,key := env.network.key a.host},[])
  | .rejected a => some ({c with peer := moved a.host},[])
  | .outOfBounds => none

def handlePeerQueue (env : Env) (c : Core) (relay direct : Attempt) (clock : P2P.Clock) (seed : BitVec 32) (item : Item) :
    Option (Core × List Out) :=
  match item.payload with
  | .msg (.packet data) => handlePeerPacket env c relay direct clock seed data item.origin
  | .msg (.tunAddr cidr) => handlePeerTunAddr env c cidr
  | .msg (.sysRt _) => c.peers ⟨.sysrt,clock,seed⟩
  | .msg (.tryP2P ip) => handleTryP2P env c ip clock seed
  | .msg (.pubInfo info) => c.peers ⟨.pubInfo info,clock,seed⟩
  | _ => some (c,[])

/- The kinds of PeerMsgKind and the sizes of their structs. -/
def HEARTBEAT : Byte := 0
def DELAY : Byte := 2
def ROUTE : Byte := 4

def int64At (m : Bytes) (offset : Nat) : Int :=
  (byteAt m offset ++ byteAt m (offset+1) ++ byteAt m (offset+2) ++ byteAt m (offset+3) ++
    byteAt m (offset+4) ++ byteAt m (offset+5) ++ byteAt m (offset+6) ++ byteAt m (offset+7) : BitVec 64).toInt
def int32At (m : Bytes) (offset : Nat) : Int := (ip4At m offset).addr.toInt

def handleForward (c : Core) (m : Bytes) : List Out :=
  match handleForwardMessage c.peer m with
  | none => []
  | some (.tun,packet) => [put .tun .peer (.packet packet)]
  | some (queue,packet) => [put (queueOf queue) .transit (.packet packet)]

/- front() of an empty text has no result. -/
def handleMessage (c : Core) (clock : P2P.Clock) (address : P2P.SocketAddress) (m : Bytes) : Option (Core × List Out) :=
  match m with
  | [] => none
  | kind::_ =>
    if kind = HEARTBEAT then
      if m.length < 12 then some (c,[]) else c.peers ⟨.heartbeat address ⟨ip4At m 1,byteAt m 11⟩,clock,0⟩
    else if kind = PeerMsg.FORWARD then some (c,c.handleForward m)
    else if kind = DELAY then
      if m.length < 17 then some (c,[]) else c.peers ⟨.delay ⟨ip4At m 1,ip4At m 5,int64At m 9⟩,clock,0⟩
    else if kind = ROUTE then
      if m.length < 13 then some (c,[]) else c.peers ⟨.route (ip4At m 1) (ip4At m 5) (int32At m 9),clock,0⟩
    else some (c,[])

def poll (env : Env) (c : Core) (clock : P2P.Clock) (address : P2P.SocketAddress) (buffer : Bytes) : Option (Core × List Out) :=
  match decrypt env.network c.key (buffer.take 1500) with
  | none => some (c,[])
  | some plaintext => c.handleMessage clock address plaintext

def pollStun (c : Core) (buffer : Bytes) : Option (Core × List Out) :=
  match handleStunResponse (buffer.take 1500) with
  | .kept => some (c,[])
  | .stored stun => some ({c with stun := stun},[])
  | _ => none

def handleTunAddr (env : Env) (c : Core) (cidr : Bytes) : Option (Core × List Out) :=
  match Address.fromCidr env.ipAddress ⟨IP4.zero,IP4.zero⟩ cidr with
  | .ok a => some ({c with tun := {c.tun with ip := a.host},peer := {c.peer with address := a.host}},[])
  | .rejected _ => some (c,[])
  | .outOfBounds => none

def tunResult (c : Core) (origin : Origin) (result : Tun × List Tun.Effect) : Option (Core × List Out) :=
  some ({c with tun := result.1},result.2.map (tunOut origin))

def handleTunQueue (env : Env) (c : Core) (now : Int) (item : Item) : Option (Core × List Out) :=
  match item.payload with
  | .msg (.packet data) => c.tunResult item.origin (c.tun.handlePacket now data)
  | .msg (.tunAddr cidr) => handleTunAddr env c cidr
  | .msg (.sysRt data) => if data.length < 12 then none else some ({c with tun := c.tun.handleSysRt data},[])
  | _ => some (c,[])

def handleWsQueue (env : Env) (c : Core) (item : Item) : Option (Core × List Out) :=
  match item.payload with
  | .msg msg => (WsClient.handleWsQueue env.ws c.ws msg).map fun sent => (c,sent.map (wsOut [] item.origin))
  | _ => some (c,[])

def handleFrame (env : Env) (c : Core) (m pingMessage : Bytes) (now : BitVec 64) : Option (Core × List Out) :=
  if m = [] ∨ m.length > 1500 then none
  else (WsClient.handleWsMsg env.ws c.ws m now).map fun result =>
    ({c with ws := result.1},result.2.map (wsOut pingMessage .server))

theorem frameHandled {env : Env} {c c' : Core} {m pingMessage : Bytes} {now : BitVec 64} {outputs : List Out}
    (ok : c.handleFrame env m pingMessage now = some (c',outputs)) : ∃ ws effects, WsClient.Handled env.ws c.ws m now ws effects ∧
      c' = {c with ws := ws} ∧ outputs = effects.map (wsOut pingMessage .server) := by
  unfold handleFrame at ok
  split at ok
  · contradiction
  obtain ⟨⟨ws,effects⟩,made,same⟩ := Option.map_eq_some_iff.mp ok
  cases same
  exact ⟨ws,effects,WsClient.handled made,rfl,rfl⟩

def handleStackQueue (c : Core) (item : Item) : Option (Core × List Out) :=
  match item.payload with
  | .netStack data => some (c,[.write .stackTasks ⟨.netStack data,item.origin⟩])
  | _ => some (c,[])

def vnetIdle : Int := Tun.seconds 180

def feedToLwip (c : Core) (now : Int) (inner : Bytes) (vnetPeer : IP4) : Core :=
  if vnetPeer.empty then c
  else
    let map : Table IP4 PeerEntry := c.vnetPeerMap.insert (IP4Header.saddr inner) ⟨vnetPeer,now⟩
    {c with vnetPeerMap := if map.entries.length > 4096 then map.keep (fun _ e => !(now - e.lastSeen > vnetIdle)) else map}

def handleInput (c : Core) (now : Int) (packet : Bytes) : Core :=
  if packet.length < IP4Header.size then c
  else
    let vnetPeer := if IP4Header.isIPIP packet then IP4Header.saddr packet else IP4.zero
    let inner := if IP4Header.isIPIP packet then packet.drop IP4Header.size else packet
    if inner.length < IP4Header.size then c
    else if IP4Header.protocol inner ≠ 0x06 ∧ IP4Header.protocol inner ≠ 0x11 then c
    else c.feedToLwip now inner vnetPeer

def handleStackTask (c : Core) (now : Int) (item : Item) : Option (Core × List Out) :=
  match item.payload with
  | .netStack data => some (c.handleInput now data,[])
  | _ => some (c,[])

def output (c : Core) (now : Int) (inner : Bytes) : Option (Core × List Out) :=
  if inner.length < IP4Header.size then some (c,[])
  else match c.vnetPeerMap.lookup (IP4Header.daddr inner) with
    | none => some (c,[])
    | some e =>
      let c := {c with vnetPeerMap := c.vnetPeerMap.insert (IP4Header.daddr inner) {e with lastSeen := now}}
      if e.peer.empty then some (c,[])
      else some (c,[put .peer .stack (.packet (c.tun.encapsulate e.peer inner))])

end Core

/- Packets from the device and from lwIP, datagrams, frames and clocks come from
outside, in any order and number; the rest takes from a queue. -/
inductive Event where
  | device (m : Moment) (buffer : Bytes)
  | tunQueue (now : Int)
  | peerQueue (relay direct : Attempt) (clock : P2P.Clock) (seed : BitVec 32)
  | wsQueue
  | stackQueue
  | stackTask (now : Int)
  | output (now : Int) (inner : Bytes)
  | tick (ip : IP4) (clock : P2P.Clock)
  | discovery
  | stunRequest
  | stunResponse (buffer : Bytes)
  | stunPeer (ip : IP4) (clock : P2P.Clock)
  | datagram (buffer : Bytes) (address : P2P.SocketAddress) (clock : P2P.Clock)
  | frame (m pingMessage : Bytes) (now : BitVec 64)
  | ping (payload : Bytes)
  | keepAlive (pingMessage : Bytes)

def source : Event → Option Module
  | .tunQueue _ => some .tun
  | .peerQueue .. => some .peer
  | .wsQueue => some .ws
  | .stackQueue => some .netStack
  | .stackTask _ => some .stackTasks
  | _ => none

def handle (env : Env) (c : Core) : Event → Option Item → Option (Core × List Out)
  | .tunQueue now,some item => c.handleTunQueue env now item
  | .peerQueue relay direct clock seed,some item => c.handlePeerQueue env relay direct clock seed item
  | .wsQueue,some item => c.handleWsQueue env item
  | .stackQueue,some item => c.handleStackQueue item
  | .stackTask now,some item => c.handleStackTask now item
  | .device m buffer,none => c.tunResult .device (c.tun.handleTunDevice m buffer)
  | .output now inner,none => c.output now inner
  | .tick ip clock,none => c.peers ⟨.tick ip,clock,0⟩
  | .discovery,none => if c.peer.manager.stunEnabled then some (c,[put .ws .own .discovery]) else none
  | .stunRequest,none => if c.stunNeeded then some ({c with stunNeeded := false},[emit .own .stunRequest]) else none
  | .stunResponse buffer,none => c.pollStun buffer
  | .stunPeer ip clock,none => c.peers ⟨.stunResponse ip,clock,0⟩
  | .datagram buffer address clock,none => c.poll env clock address buffer
  | .frame m pingMessage now,none => c.handleFrame env m pingMessage now
  | .ping payload,none => some (c,[emit .server (.control payload)])
  | .keepAlive pingMessage,none => some (c,[emit .own (.control pingMessage)])
  | _,_ => none

def client (env : Env) : System Core Module Item Sent Event := ⟨source,handle env⟩

structure Config where
  password : Bytes
  tunCidr : Bytes
  exptTunCidr : Bytes
  vmac : Bytes
  p2pOnly : Bool
  userspaceStack : Bool
  routeCost : Int
  stunEnabled : Bool
  scopes : P2P.Scopes
  localhost : IP4
  listenPort : BitVec 16

def Config.core (cfg : Config) : Core where
  ws := ⟨cfg.password,cfg.tunCidr,cfg.p2pOnly⟩
  tun := ⟨IP4.zero,cfg.userspaceStack,[],∅,0⟩
  peer := ⟨⟨cfg.scopes,IP4.zero,cfg.stunEnabled,cfg.routeCost,false⟩,IP4.zero,cfg.p2pOnly,∅,∅⟩
  key := []
  stun := ⟨IP4.zero,0⟩
  stunNeeded := false
  localhost := cfg.localhost
  listenPort := cfg.listenPort
  vnetPeerMap := ∅

def vmacFrame (env : Env) (cfg : Config) (now : BitVec 64) : Bytes :=
  let vmac := if cfg.vmac.length ≥ 16 then cfg.vmac.take 16 else List.replicate 16 0
  VMac.updateHash env.network.sha cfg.password (Kind.VMAC :: (vmac ++ timestampBytes now ++ List.replicate 32 0))

def exptTunFrame (env : Env) (cfg : Config) (cidr : Bytes) (now : BitVec 64) : Bytes :=
  ExptTun.updateHash env.network.sha cfg.password
    (Kind.EXPTTUN :: (timestampBytes now ++ (cidr ++ List.replicate (32 - cidr.length) 0) ++ List.replicate 32 0))

/- WebSocketClient::run, once it is connected. -/
def greeting (env : Env) (cfg : Config) (pingMessage : Bytes) (now : BitVec 64) : Option (List Out) :=
  let vmac := emit .own (.frame (vmacFrame env cfg now))
  if cfg.tunCidr = [] then
    (WsClient.address env.ws cfg.exptTunCidr).map fun a => [vmac,emit .own (.frame (exptTunFrame env cfg a.toCidr now))]
  else (WsClient.sendAuthMsg env.ws cfg.core.ws now).map fun sent => vmac::sent.map (wsOut pingMessage .own)

def start (env : Env) (cfg : Config) (pingMessage : Bytes) (now : BitVec 64) : Option (State Core Module Item Sent) :=
  (greeting env cfg pingMessage now).map fun outputs => State.putAll ⟨cfg.core,fun _ => [],[]⟩ outputs

end Candy.ClientQueues
