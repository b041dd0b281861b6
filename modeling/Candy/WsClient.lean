import Candy.CoreMessage
import Candy.WsMessage

/-! The websocket side of a client, src/websocket/client.cc: queue messages become
frames and frames become queue messages. A frame is a non-empty buffer of at most
1500 bytes; reading behind its end has no result. -/
namespace Candy.WsClient
open WsMsg CoreMsg

structure Client where
  password : Bytes
  tunCidr : Bytes
  p2pOnly : Bool
  deriving DecidableEq, Repr

structure Env where
  sha : Digest
  ipAddress : Bytes → Option IP4

inductive Effect where
  | sendFrame (frame : Bytes)
  | sendPing
  | write (queue : Queue) (msg : Msg)
  deriving DecidableEq, Repr

def broadcast : IP4 := ⟨255,255,255,255⟩

/- A uint16_t after hton, as it lies in the frame, and back. -/
def portBytes (port : BitVec 16) : Bytes := [port.extractLsb' 8 8,port.extractLsb' 0 8]
def portAt (m : Bytes) (offset : Nat) : BitVec 16 := byteAt m offset ++ byteAt m (offset+1)

/- The constructor of Address: an empty or a rejected text leaves what was parsed. -/
def address (env : Env) (cidr : Bytes) : Option Address :=
  if cidr = [] then some ⟨IP4.zero,IP4.zero⟩
  else match Address.fromCidr env.ipAddress ⟨IP4.zero,IP4.zero⟩ cidr with
    | .ok a | .rejected a => some a
    | .outOfBounds => none

def connFrame (info : PubInfo) : Bytes :=
  Kind.UDP4CONN :: (ip4Bytes info.src ++ ip4Bytes info.dst ++ ip4Bytes info.ip ++ portBytes info.port)

/- type, subtype LOCALUDP4CONN, extra, and what follows. -/
def connLocalFrame (info : PubInfo) : Bytes :=
  [Kind.GENERAL,0,0,0] ++ ip4Bytes info.src ++ ip4Bytes info.dst ++ ip4Bytes info.ip ++ portBytes info.port

def discoveryFrame (src dst : IP4) : Bytes := Kind.DISCOVERY :: (ip4Bytes src ++ ip4Bytes dst)

def authFrame (env : Env) (password : Bytes) (ip : IP4) (now : BitVec 64) : Bytes :=
  Auth.updateHash env.sha password (Kind.AUTH :: (ip4Bytes ip ++ timestampBytes now ++ List.replicate 32 0))

def handlePacket (data : Bytes) : List Effect := [.sendFrame (Kind.FORWARD::data)]

def handlePubInfo (info : PubInfo) : List Effect :=
  if info.nearby then [.sendFrame (connLocalFrame info)] else [.sendFrame (connFrame info)]

def sendDiscoveryMsg (env : Env) (c : Client) (dst : IP4) : Option (List Effect) :=
  (address env c.tunCidr).map fun a => [.sendFrame (discoveryFrame a.host dst)]

def handleWsQueue (env : Env) (c : Client) : Msg → Option (List Effect)
  | .packet data => some (handlePacket data)
  | .pubInfo info => some (handlePubInfo info)
  | .discovery => sendDiscoveryMsg env c broadcast
  | _ => some []

def handleForwardMsg (c : Client) (m : Bytes) : List Effect :=
  if m.length < Forward.size then [] else
  let packet := m.drop 1
  .write .peer (.tryP2P (ip4At packet 12).toString) ::
    if c.p2pOnly then [] else [.write .tun (.packet packet)]

def sendAuthMsg (env : Env) (c : Client) (now : BitVec 64) : Option (List Effect) :=
  (address env c.tunCidr).map fun a =>
    [.sendFrame (authFrame env c.password a.host now),.write .tun (.tunAddr a.toCidr),
      .write .peer (.tunAddr a.toCidr),.sendPing]

def handleExptTunMsg (env : Env) (c : Client) (m : Bytes) (now : BitVec 64) : Option (Client × List Effect) :=
  if m.length < ExptTun.size then some (c,[])
  else do
    let exptTun ← address env (ExptTun.cidr m)
    let c := {c with tunCidr := exptTun.toCidr}
    let sent ← sendAuthMsg env c now
    some (c,sent)

def handleUdp4ConnMsg (m : Bytes) : List Effect :=
  if m.length < Conn.size then [] else
  [.write .peer (.pubInfo ⟨Conn.src m,Conn.dst m,ip4At m 9,portAt m 13,false⟩)]

def handleDiscoveryMsg (env : Env) (c : Client) (m : Bytes) : Option (List Effect) :=
  if m.length < Discovery.size then some []
  else do
    let sent ← if Discovery.dst m = broadcast then sendDiscoveryMsg env c (Discovery.src m) else some []
    some (sent ++ [.write .peer (.tryP2P (Discovery.src m).toString)])

/- rt + idx for a one-byte idx below the size field. -/
def routeEntry (m : Bytes) (idx : Nat) : Option Bytes :=
  if 4 + 12 * (idx + 1) ≤ m.length then some (field m (4 + 12 * idx) 12) else none

def handleRouteMsg (m : Bytes) : Option (List Effect) :=
  if m.length < 4 then some []
  else do
    let entries ← (List.range (byteAt m 1).toNat).mapM (routeEntry m)
    some (entries.flatMap fun data => [.write .tun (.sysRt data),.write .peer (.sysRt [])])

/- The subtype is not looked at. -/
def connLocalSize : Nat := 18

def handleGeneralMsg (m : Bytes) : List Effect :=
  if m.length < connLocalSize then [] else
  [.write .peer (.pubInfo ⟨General.src m,General.dst m,ip4At m 12,portAt m 16,true⟩)]

def handleWsMsg (env : Env) (c : Client) (m : Bytes) (now : BitVec 64) : Option (Client × List Effect) :=
  let kind := byteAt m 0
  if kind = Kind.FORWARD then some (c,handleForwardMsg c m)
  else if kind = Kind.EXPTTUN then handleExptTunMsg env c m now
  else if kind = Kind.UDP4CONN then some (c,handleUdp4ConnMsg m)
  else if kind = Kind.DISCOVERY then (handleDiscoveryMsg env c m).map fun sent => (c,sent)
  else if kind = Kind.ROUTE then (handleRouteMsg m).map fun sent => (c,sent)
  else if kind = Kind.GENERAL then some (c,handleGeneralMsg m)
  else some (c,[])

/- What a frame makes of its client. -/
inductive Handled (env : Env) (c : Client) (m : Bytes) (now : BitVec 64) : Client → List Effect → Prop where
  | nothing : Handled env c m now c []
  | forward (kind : byteAt m 0 = Kind.FORWARD) : Handled env c m now c
      (.write .peer (.tryP2P (ip4At (m.drop 1) 12).toString) :: if c.p2pOnly then [] else [.write .tun (.packet (m.drop 1))])
  | exptTun {tunCidr : Bytes} {a : Address} (kind : byteAt m 0 = Kind.EXPTTUN) (named : address env tunCidr = some a) :
      Handled env c m now {c with tunCidr := tunCidr}
        [.sendFrame (authFrame env c.password a.host now),.write .tun (.tunAddr a.toCidr),.write .peer (.tunAddr a.toCidr),.sendPing]
  | conn (info : PubInfo) : Handled env c m now c [.write .peer (.pubInfo info)]
  | discovered (src : IP4) : Handled env c m now c [.write .peer (.tryP2P src.toString)]
  | discovery {src : IP4} {a : Address} (named : address env c.tunCidr = some a) :
      Handled env c m now c [.sendFrame (discoveryFrame a.host src),.write .peer (.tryP2P src.toString)]
  | routes {entries : List Bytes} (kind : byteAt m 0 = Kind.ROUTE) :
      Handled env c m now c (entries.flatMap fun data => [.write .tun (.sysRt data),.write .peer (.sysRt [])])

theorem handled {env : Env} {c c' : Client} {m : Bytes} {now : BitVec 64} {sent : List Effect}
    (ok : handleWsMsg env c m now = some (c',sent)) : Handled env c m now c' sent := by
  unfold handleWsMsg at ok
  dsimp only at ok
  split at ok
  · rename_i forward
    cases Option.some.inj ok
    unfold handleForwardMsg
    split
    · exact .nothing
    · exact .forward forward
  split at ok
  · rename_i exptTun
    unfold handleExptTunMsg at ok
    split at ok
    · cases Option.some.inj ok
      exact .nothing
    · simp only [bind,Option.bind_eq_some_iff] at ok
      obtain ⟨offered,_,sent,auth,last⟩ := ok
      obtain ⟨a,named,same⟩ := Option.map_eq_some_iff.mp auth
      subst same
      cases Option.some.inj last
      exact .exptTun exptTun named
  split at ok
  · cases Option.some.inj ok
    unfold handleUdp4ConnMsg
    split
    · exact .nothing
    · exact .conn _
  split at ok
  · obtain ⟨sent,made,same⟩ := Option.map_eq_some_iff.mp ok
    cases same
    unfold handleDiscoveryMsg at made
    split at made
    · cases Option.some.inj made
      exact .nothing
    split at made
    · obtain ⟨answer,answered,last⟩ := Option.bind_eq_some_iff.mp made
      obtain ⟨a,named,same⟩ := Option.map_eq_some_iff.mp answered
      subst same
      cases Option.some.inj last
      exact .discovery named
    · cases Option.some.inj made
      exact .discovered _
  split at ok
  · rename_i route
    obtain ⟨sent,made,same⟩ := Option.map_eq_some_iff.mp ok
    cases same
    unfold handleRouteMsg at made
    split at made
    · cases Option.some.inj made
      exact .nothing
    · obtain ⟨entries,_,last⟩ := Option.bind_eq_some_iff.mp made
      cases Option.some.inj last
      exact .routes route
  split at ok
  · cases Option.some.inj ok
    unfold handleGeneralMsg
    split
    · exact .nothing
    · exact .conn _
  · cases Option.some.inj ok
    exact .nothing

def written (queue : Queue) : List Effect → List Msg
  | [] => []
  | .write q msg::rest => if q = queue then msg::written queue rest else written queue rest
  | _::rest => written queue rest

theorem portRead (port : BitVec 16) (front rest : Bytes) :
    portAt (front ++ portBytes port ++ rest) front.length = port := by
  have first : byteAt (front ++ portBytes port ++ rest) front.length = port.extractLsb' 8 8 := by
    simp [byteAt,portBytes]
  have second : byteAt (front ++ portBytes port ++ rest) (front.length+1) = port.extractLsb' 0 8 := by
    simp [byteAt,portBytes]
  rw [portAt,first,second]
  ext i hi
  simp only [BitVec.getElem_append,BitVec.getElem_extractLsb']
  grind

end Candy.WsClient
