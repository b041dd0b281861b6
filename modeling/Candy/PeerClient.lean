import Candy.CoreMessage
import Candy.PeerMachine
import Candy.Relay

/-! The peers of one client and its relay table, src/peer/manager.cc. The loops of
PeerManager::tick and handleStunResponse are one event a peer. A datagram is named
by the peer whose key it is encrypted with; what is written to the websocket queue
and the STUN request leave the client and are not followed here. -/
namespace Candy.P2P
open Runs CoreMsg

inductive Datagram where
  | heartbeat (target : IP4) (heartbeat : Heartbeat)
  | delay (target : IP4) (delay : Delay)
  | route (route : Candy.Peer.Route)
  deriving DecidableEq, Repr

structure Client where
  manager : Manager
  address : IP4
  p2pOnly : Bool
  ipPeerMap : Table IP4 Peer
  rtTableMap : Candy.Peer.RtTable

namespace Client

def Connected (c : Client) (ip : IP4) : Prop := ∃ p, c.ipPeerMap.lookup ip = some p ∧ p.state = .CONNECTED

def connectedPeers (c : Client) : List IP4 :=
  (c.ipPeerMap.entries.filter (fun e => e.2.isConnected.isSome)).map (fun e => e.1)

def updateRtTable (c : Client) (entry : Candy.Peer.PeerRouteEntry) : Option (Client × List Datagram) := do
  let (table,calls) ← Candy.Peer.updateRtTable c.rtTableMap entry
  let routes ← Relay.announce c.manager.tunIp c.manager.routeCost c.connectedPeers calls
  some ({c with rtTableMap := table},routes.map .route)

def call (c : Client) (target : IP4) : Call → Option (Client × List Datagram)
  | .sendHeartbeat heartbeat _ => some (c,[.heartbeat target heartbeat])
  | .sendDelay delay _ => some (c,[.delay target delay])
  | .sendPubInfo _ _ => some (c,[])
  | .stunNeeded => some (c,[])
  | .updateRtTable entry => c.updateRtTable entry

def perform (c : Client) (target : IP4) : List Call → Option (Client × List Datagram)
  | [] => some (c,[])
  | first::rest => do
    let (c,sent) ← c.call target first
    let (c,more) ← c.perform target rest
    some (c,sent ++ more)

def handlePeer (c : Client) (ip : IP4) (p : Peer) (clock : Clock) (e : Peer.Event) : Option (Client × List Datagram) :=
  let out := p.handle c.manager clock e
  {c with ipPeerMap := c.ipPeerMap.insert ip out.1}.perform ip out.2

def handleFound (c : Client) (ip : IP4) (clock : Clock) (e : Peer.Event) : Option (Client × List Datagram) :=
  match c.ipPeerMap.lookup ip with
  | some p => c.handlePeer ip p clock e
  | none => some (c,[])

/- seed is the tick counter an emplaced peer starts with. -/
def handleTryP2P (c : Client) (src : IP4) (clock : Clock) (seed : BitVec 32) : Option (Client × List Datagram) :=
  match c.ipPeerMap.lookup src with
  | some p => c.handlePeer src p clock (.tryConnecct c.p2pOnly)
  | none => c.handlePeer src (Peer.fresh src seed) clock (.tryConnecct false)

def handlePubInfo (c : Client) (info : PubInfo) (clock : Clock) (seed : BitVec 32) : Option (Client × List Datagram) :=
  if info.src = c.address ∨ info.dst ≠ c.address then some (c,[]) else
  let p := (c.ipPeerMap.lookup info.src).getD (Peer.fresh info.src seed)
  c.handlePeer info.src p clock (.pubInfo info.ip info.port info.nearby)

/- The difference of two int64_t, kept in an int32_t. -/
def rttOf (clock : Clock) (delay : Delay) : Int := Int.bmod (clock.boot - delay.timestamp) 4294967296

def handleDelayMessage (c : Client) (delay : Delay) (clock : Clock) : Option (Client × List Datagram) :=
  if delay.dst = c.manager.tunIp then
    match c.ipPeerMap.lookup delay.src with
    | some p => some (c,if p.isConnected.isSome then [.delay delay.src delay] else [])
    | none => some (c,[])
  else if delay.src = c.manager.tunIp then
    match c.ipPeerMap.lookup delay.dst with
    | some p =>
      {c with ipPeerMap := c.ipPeerMap.insert delay.dst {p with rtt := rttOf clock delay}}.updateRtTable
        ⟨delay.dst,delay.dst,rttOf clock delay⟩
    | none => some (c,[])
  else some (c,[])

def handleRouteMessage (c : Client) (dst next : IP4) (rtt : Int) : Option (Client × List Datagram) :=
  if c.manager.routeCost = 0 then some (c,[])
  else if dst ≠ c.manager.tunIp then c.updateRtTable ⟨dst,next,rtt⟩ else some (c,[])

end Client

inductive Event where
  | tick (ip : IP4)
  | stunResponse (ip : IP4)
  | tryP2P (src : IP4)
  | pubInfo (info : PubInfo)
  | sysrt
  | heartbeat (address : SocketAddress) (heartbeat : Heartbeat)
  | delay (delay : Delay)
  | route (dst next : IP4) (rtt : Int)
  deriving DecidableEq, Repr

structure Input where
  event : Event
  clock : Clock
  seed : BitVec 32
  deriving DecidableEq, Repr

def Client.handle (c : Client) (i : Input) : Option (Client × List Datagram) :=
  match i.event with
  | .tick ip => c.handleFound ip i.clock .tick
  | .stunResponse ip => c.handleFound ip i.clock .stunResponse
  | .tryP2P src => c.handleTryP2P src i.clock i.seed
  | .pubInfo info => c.handlePubInfo info i.clock i.seed
  | .sysrt => some ({c with manager := {c.manager with localP2PDisabled := true}},[])
  | .heartbeat address heartbeat => c.handleFound heartbeat.tunip i.clock (.heartbeat address heartbeat.ack)
  | .delay delay => if c.manager.clientRelayEnabled then c.handleDelayMessage delay i.clock else some (c,[])
  | .route dst next rtt => if c.manager.clientRelayEnabled then c.handleRouteMessage dst next rtt else some (c,[])

def Client.step (c : Client) (i : Input) (c' : Client) : Prop := ∃ sent, c.handle i = some (c',sent)

namespace Client

theorem updateClient {c c' : Client} {entry : Candy.Peer.PeerRouteEntry} {sent : List Datagram}
    (ok : c.updateRtTable entry = some (c',sent)) :
    c' = {c with rtTableMap := c'.rtTableMap} ∧
      (∃ calls, Candy.Peer.updateRtTable c.rtTableMap entry = some (c'.rtTableMap,calls)) ∧
      ∀ key h, Datagram.heartbeat key h ∉ sent := by
  simp only [updateRtTable,bind,Option.bind_eq_some_iff] at ok
  obtain ⟨⟨table,calls⟩,updated,routes,_,last⟩ := ok
  cases Option.some.inj last
  refine ⟨rfl,⟨calls,updated⟩,fun key h member => ?_⟩
  obtain ⟨_,_,other⟩ := List.mem_map.mp member
  contradiction

theorem performSpec {c c' : Client} {target : IP4} {calls : List Call} {sent : List Datagram}
    (ok : c.perform target calls = some (c',sent)) :
    c' = {c with rtTableMap := c'.rtTableMap} ∧
    (∀ key h, Datagram.heartbeat key h ∈ sent → key = target ∧ ∃ address, Call.sendHeartbeat h address ∈ calls) ∧
    ((∀ entry, Call.updateRtTable entry ∉ calls) → c' = c) := by
  induction calls generalizing c c' sent with
  | nil => cases ok; simp
  | cons first rest ih =>
    simp only [perform,bind,Option.bind_eq_some_iff] at ok
    obtain ⟨⟨c₁,one⟩,called,⟨c₂,more⟩,performed,last⟩ := ok
    cases Option.some.inj last
    obtain ⟨kept,beats,quiet⟩ := ih performed
    have head : c₁ = {c with rtTableMap := c₁.rtTableMap} ∧
        (∀ key h, Datagram.heartbeat key h ∈ one → key = target ∧ ∃ address, first = .sendHeartbeat h address) ∧
        ((∀ entry, first ≠ .updateRtTable entry) → c₁ = c) := by
      cases first with
      | sendHeartbeat heartbeat address => cases called; simp
      | sendDelay => cases called; simp
      | sendPubInfo => cases called; simp
      | stunNeeded => cases called; simp
      | updateRtTable entry =>
        obtain ⟨same,_,none⟩ := updateClient called
        exact ⟨same,fun key h member => absurd member (none key h),fun other => absurd rfl (other entry)⟩
    obtain ⟨kept₁,beats₁,quiet₁⟩ := head
    refine ⟨?_,fun key h member => ?_,fun none => ?_⟩
    · rw [kept,kept₁]
    · rcases List.mem_append.mp member with member | member
      · obtain ⟨same,address,rfl⟩ := beats₁ key h member
        exact ⟨same,address,List.mem_cons_self ..⟩
      · obtain ⟨same,address,called⟩ := beats key h member
        exact ⟨same,address,List.mem_cons_of_mem _ called⟩
    · rw [quiet fun entry called => none entry (List.mem_cons_of_mem _ called),
        quiet₁ fun entry same => none entry (same ▸ List.mem_cons_self ..)]

structure PeerStepped (c : Client) (ip : IP4) (p : Peer) (e : Peer.Event) (q : Peer) (c' : Client)
    (sent : List Datagram) : Prop where
  kept : c' = {c with ipPeerMap := c.ipPeerMap.insert ip q,rtTableMap := c'.rtTableMap}
  moved : ∃ calls, Peer.Moved p c.manager e q calls
  beats : ∀ key h, Datagram.heartbeat key h ∈ sent → key = ip ∧ h = ⟨c.manager.tunIp,p.ack⟩
  routes : c'.rtTableMap = c.rtTableMap ∧
      (p.state = .CONNECTED → q.state = .CONNECTED ∨ c.manager.clientRelayEnabled = false) ∨
    c'.rtTableMap = c.rtTableMap.keep (fun _ e => !(e.next == p.addr))

theorem peerStepped {c c' : Client} {ip : IP4} {p : Peer} {clock : Clock} {e : Peer.Event} {sent : List Datagram}
    (ok : c.handlePeer ip p clock e = some (c',sent)) :
    PeerStepped c ip p e (p.handle c.manager clock e).1 c' sent := by
  have moved := Peer.movedHandle p c.manager clock e
  obtain ⟨kept,beats,quiet⟩ := performSpec ok
  refine ⟨kept,⟨_,moved⟩,fun key h member => ?_,?_⟩
  · obtain ⟨same,address,called⟩ := beats key h member
    exact ⟨same,moved.beats h address called⟩
  · rcases moved.routes with ⟨stays,none⟩ | ⟨_,_,calls⟩
    · exact .inl ⟨by rw [quiet none],fun connected => .inl (stays connected)⟩
    · cases relay : c.manager.clientRelayEnabled with
      | false =>
        have none : ∀ entry, Call.updateRtTable entry ∉ (p.handle c.manager clock e).2 := by
          simp [calls,relay]
        exact .inl ⟨by rw [quiet none],fun _ => .inr rfl⟩
      | true =>
        unfold handlePeer at ok
        simp only [calls,relay,if_true,perform,call,bind,Option.bind_eq_some_iff] at ok
        obtain ⟨⟨c₁,one⟩,updated,⟨c₂,more⟩,performed,last⟩ := ok
        cases performed
        cases Option.some.inj last
        obtain ⟨_,⟨calls,updated⟩,_⟩ := updateClient updated
        rw [Candy.Peer.withdrawEq] at updated
        exact .inr (congrArg Prod.fst (Option.some.inj updated)).symm

def offered (c : Client) (i : Input) : Option Candy.Peer.PeerRouteEntry :=
  match i.event with
  | .delay delay =>
    if delay.dst ≠ c.manager.tunIp ∧ delay.src = c.manager.tunIp ∧ (c.ipPeerMap.lookup delay.dst).isSome then
      some ⟨delay.dst,delay.dst,rttOf i.clock delay⟩ else none
  | .route dst next rtt => if dst ≠ c.manager.tunIp then some ⟨dst,next,rtt⟩ else none
  | _ => none

def untimed (p : Peer) : Peer := {p with rtt := 0}

def Retimed (before after : Table IP4 Peer) : Prop :=
  ∀ ip, (after.lookup ip).map untimed = (before.lookup ip).map untimed

theorem retimedInsert {peers : Table IP4 Peer} {ip : IP4} {p : Peer} (found : peers.lookup ip = some p) (rtt : Int) :
    Retimed peers (peers.insert ip {p with rtt := rtt}) := by
  intro k
  rw [Table.lookupInsert]
  split
  · rename_i same; rw [same,found]; rfl
  · rfl

theorem retimedFound {before after : Table IP4 Peer} (same : Retimed before after) {ip : IP4} {q : Peer}
    (found : after.lookup ip = some q) : ∃ p, before.lookup ip = some p ∧ untimed p = untimed q := by
  have eq := same ip
  rw [found] at eq
  exact Option.map_eq_some_iff.mp eq.symm

/- What one event does to a client: a peer takes a step, nothing of the peers and
the table changes, or an entry is brought to the table. -/
inductive Stepped (c : Client) (i : Input) : Client → List Datagram → Prop where
  | peer {ip p e q c' sent}
      (known : c.ipPeerMap.lookup ip = some p ∨ c.ipPeerMap.lookup ip = none ∧ ∃ seed, p = Peer.fresh ip seed)
      (heard : ∀ address ack, e = .heartbeat address ack →
        c.ipPeerMap.lookup ip = some p ∧ i.event = .heartbeat address ⟨ip,ack⟩)
      (nothing : c.offered i = none) (stepped : PeerStepped c ip p e q c' sent) : Stepped c i c' sent
  | quiet {manager sent} (tunIp : manager.tunIp = c.manager.tunIp) (routeCost : manager.routeCost = c.manager.routeCost)
      (nothing : c.manager.clientRelayEnabled → c.offered i = none)
      (silent : ∀ key h, Datagram.heartbeat key h ∉ sent) : Stepped c i {c with manager := manager} sent
  | offered {entry peers c' sent} (brought : c.offered i = some entry) (same : Retimed c.ipPeerMap peers)
      (updated : {c with ipPeerMap := peers}.updateRtTable entry = some (c',sent)) : Stepped c i c' sent

theorem foundStepped {c c' : Client} {i : Input} {ip : IP4} {e : Peer.Event} {sent : List Datagram}
    (heard : ∀ address ack, e = .heartbeat address ack → i.event = .heartbeat address ⟨ip,ack⟩)
    (nothing : c.offered i = none) (ok : c.handleFound ip i.clock e = some (c',sent)) : Stepped c i c' sent := by
  unfold handleFound at ok
  split at ok
  · rename_i p found
    exact .peer (.inl found) (fun address ack same => ⟨found,heard address ack same⟩) nothing (peerStepped ok)
  · cases ok; exact .quiet rfl rfl (fun _ => nothing) (by simp)

theorem delayStepped {c c' : Client} {i : Input} {delay : Delay} {sent : List Datagram} (here : i.event = .delay delay)
    (ok : c.handleDelayMessage delay i.clock = some (c',sent)) : Stepped c i c' sent := by
  unfold handleDelayMessage at ok
  split at ok
  · rename_i answered
    have nothing : c.offered i = none := by simp [offered,here,answered]
    split at ok
    · cases ok; exact .quiet rfl rfl (fun _ => nothing) (by simp)
    · cases ok; exact .quiet rfl rfl (fun _ => nothing) (by simp)
  · rename_i other
    split at ok
    · rename_i own
      split at ok
      · rename_i p found
        exact .offered (by simp [offered,here,other,own,found]) (retimedInsert found _) ok
      · rename_i absent
        cases ok
        exact .quiet rfl rfl (fun _ => by simp [offered,here,absent]) (by simp)
    · rename_i foreign
      cases ok
      exact .quiet rfl rfl (fun _ => by simp [offered,here,foreign]) (by simp)

theorem routeStepped {c c' : Client} {i : Input} {dst next : IP4} {rtt : Int} {sent : List Datagram}
    (here : i.event = .route dst next rtt) (ok : c.handleRouteMessage dst next rtt = some (c',sent)) :
    Stepped c i c' sent := by
  unfold handleRouteMessage at ok
  split at ok
  · rename_i free
    cases ok
    exact .quiet rfl rfl (fun relay => by simp [Manager.clientRelayEnabled,free] at relay) (by simp)
  · split at ok
    · rename_i other
      exact .offered (by simp [offered,here,other]) (fun _ => rfl) ok
    · rename_i own
      cases ok
      exact .quiet rfl rfl (fun _ => by simp [offered,here,not_not.mp own]) (by simp)

theorem handleStepped {c c' : Client} {i : Input} {sent : List Datagram} (ok : c.handle i = some (c',sent)) :
    Stepped c i c' sent := by
  unfold handle at ok
  cases here : i.event with
  | tick ip => rw [here] at ok; exact foundStepped (by simp) (by simp [offered,here]) ok
  | stunResponse ip => rw [here] at ok; exact foundStepped (by simp) (by simp [offered,here]) ok
  | heartbeat address heartbeat =>
    rw [here] at ok
    refine foundStepped (fun address' ack same => ?_) (by simp [offered,here]) ok
    cases same; exact here
  | tryP2P src =>
    have nothing : c.offered i = none := by simp [offered,here]
    rw [here] at ok
    unfold handleTryP2P at ok
    dsimp only at ok
    split at ok
    · rename_i found; exact .peer (.inl found) (by simp) nothing (peerStepped ok)
    · rename_i absent; exact .peer (.inr ⟨absent,_,rfl⟩) (by simp) nothing (peerStepped ok)
  | pubInfo info =>
    have nothing : c.offered i = none := by simp [offered,here]
    rw [here] at ok
    unfold handlePubInfo at ok
    dsimp only at ok
    split at ok
    · cases ok; exact .quiet rfl rfl (fun _ => nothing) (by simp)
    · refine .peer ?_ (by simp) nothing (peerStepped ok)
      cases found : c.ipPeerMap.lookup info.src with
      | some p => exact .inl rfl
      | none => exact .inr ⟨rfl,_,rfl⟩
  | sysrt => rw [here] at ok; cases ok; exact .quiet rfl rfl (fun _ => by simp [offered,here]) (by simp)
  | delay delay =>
    rw [here] at ok
    dsimp only at ok
    split at ok
    · exact delayStepped here ok
    · rename_i disabled; cases ok; exact .quiet rfl rfl (fun relay => absurd relay disabled) (by simp)
  | route dst next rtt =>
    rw [here] at ok
    dsimp only at ok
    split at ok
    · exact routeStepped here ok
    · rename_i disabled; cases ok; exact .quiet rfl rfl (fun relay => absurd relay disabled) (by simp)

theorem unlooked {c c' : Client} {i : Input} {sent : List Datagram} {entry : Candy.Peer.PeerRouteEntry}
    (off : c.manager.clientRelayEnabled = false) (brought : c.offered i = some entry) (ok : c.handle i = some (c',sent)) :
    c' = c := by
  unfold handle at ok
  cases here : i.event with
  | delay delay | route dst next rtt =>
    simp only [here,off,Bool.false_eq_true,if_false] at ok
    cases ok
    rfl
  | _ => simp [offered,here] at brought

end Client
end Candy.P2P
