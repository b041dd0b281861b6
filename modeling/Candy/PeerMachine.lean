import Candy.RouteTable

/-! One peer as its client sees it, src/peer/peer.cc. What a handler asks of the
manager is the list of its calls, in order; a datagram that is not encrypted or
not sent counts as lost in the network. Every handler is one step, and reads the
clocks as often as it likes: a clock may stand still or jump. -/
namespace Candy.P2P

abbrev Time := Int

def seconds (n : Int) : Time := n * 1000000000

inductive PeerState where
  | INIT
  | PREPARING
  | SYNCHRONIZING
  | CONNECTING
  | CONNECTED
  | WAITING
  | FAILED
  deriving DecidableEq, Repr

def RETRY_MIN : Int := 30
def RETRY_MAX : Int := 3600

inductive IPAddress where
  | v4 (ip : IP4)
  | v6 (ip : BitVec 128)
  deriving DecidableEq, Repr

structure SocketAddress where
  host : IPAddress
  port : BitVec 16
  deriving DecidableEq, Repr

/- What Poco says about an IPv4 address. -/
structure Scopes where
  isSiteLocal : IP4 → Bool
  isLinkLocal : IP4 → Bool
  isSiteLocalMC : IP4 → Bool

def isLocalNetwork (scopes : Scopes) (addr : SocketAddress) : Bool :=
  match addr.host with
  | .v4 ip => scopes.isSiteLocal ip || scopes.isLinkLocal ip || scopes.isSiteLocalMC ip
  | .v6 _ => false

/- The part of PeerManager a peer reads. -/
structure Manager where
  scopes : Scopes
  tunIp : IP4
  stunEnabled : Bool
  routeCost : Int
  localP2PDisabled : Bool

def Manager.clientRelayEnabled (m : Manager) : Bool := m.routeCost > 0

/- system_clock at checkActivityWithin and at updateState, bootTime in milliseconds. -/
structure Clock where
  checked : Time
  stamped : Time
  boot : Int
  deriving DecidableEq, Repr

/- ip and port of a heartbeat are written after it is encrypted, nobody reads them. -/
structure Heartbeat where
  tunip : IP4
  ack : Byte
  deriving DecidableEq, Repr

structure Delay where
  src : IP4
  dst : IP4
  timestamp : Int
  deriving DecidableEq, Repr

inductive Call where
  | sendHeartbeat (heartbeat : Heartbeat) (address : SocketAddress)
  | sendDelay (delay : Delay) (address : SocketAddress)
  | sendPubInfo (dst : IP4) (nearby : Bool)
  | stunNeeded
  | updateRtTable (entry : Peer.PeerRouteEntry)
  deriving DecidableEq, Repr

/- nearby is the source's local. -/
structure Peer where
  addr : IP4
  state : PeerState
  ack : Byte
  retry : Int
  lastActiveTime : Time
  wide : Option SocketAddress
  nearby : Option SocketAddress
  real : Option SocketAddress
  rtt : Int
  tickCount : BitVec 32
  deriving DecidableEq, Repr

namespace Peer

def fresh (addr : IP4) (tickCount : BitVec 32) : Peer :=
  ⟨addr,.INIT,0,RETRY_MIN,0,none,none,none,Peer.RTT_LIMIT,tickCount⟩

def isConnected (p : Peer) : Option Int := if p.state = .CONNECTED then some p.rtt else none

def checkActivityWithin (p : Peer) (now duration : Time) : Bool := now - p.lastActiveTime < duration

def resetState (p : Peer) : Peer :=
  {p with wide := none, nearby := none, real := none, ack := 0, rtt := Peer.RTT_LIMIT}

/- The states that are entered with nothing known of the other side. -/
def Idle (state : PeerState) : Prop := state = .INIT ∨ state = .WAITING ∨ state = .FAILED

instance (state : PeerState) : Decidable (Idle state) := inferInstanceAs (Decidable (_ ∨ _ ∨ _))

def updateState (p : Peer) (now : Time) (state : PeerState) : Peer × Bool :=
  let p := {p with lastActiveTime := now}
  if p.state = state then (p,false) else
  let p := if Idle state then p.resetState else p
  let p := if p.state = .WAITING ∧ state = .INIT then {p with retry := min (p.retry * 2) RETRY_MAX}
    else if state = .INIT ∨ state = .FAILED then {p with retry := RETRY_MIN} else p
  ({p with state := state},true)

def tryConnecct (p : Peer) (clock : Clock) (retryFailed : Bool) : Peer :=
  if p.state = .INIT ∨ (retryFailed ∧ p.state = .FAILED) then (p.updateState clock.stamped .PREPARING).1 else p

def handlePubInfo (p : Peer) (clock : Clock) (ip : IP4) (port : BitVec 16) (nearby : Bool) : Peer × List Call :=
  if nearby then ({p with nearby := some ⟨.v4 ip,port⟩},[]) else
  let p := {p with wide := some ⟨.v4 ip,port⟩}
  match p.state with
  | .CONNECTED => (p,[])
  | .SYNCHRONIZING => ((p.updateState clock.stamped .CONNECTING).1,[])
  | .CONNECTING => (p,[])
  | _ => ((p.updateState clock.stamped .PREPARING).1,[.sendPubInfo p.addr true])

def handleStunResponse (p : Peer) (clock : Clock) : Peer × List Call :=
  if p.state ≠ .PREPARING then (p,[]) else
  let state := if p.wide = none then PeerState.SYNCHRONIZING else .CONNECTING
  ((p.updateState clock.stamped state).1,[.sendPubInfo p.addr false])

def sendHeartbeatMessage (p : Peer) (m : Manager) : List Call :=
  let heartbeat : Heartbeat := ⟨m.tunIp,p.ack⟩
  let send (address : Option SocketAddress) := address.toList.map (Call.sendHeartbeat heartbeat)
  (if p.state = .CONNECTED then send p.real else []) ++
  (if p.state = .CONNECTING then send p.wide else []) ++
  (if p.state = .PREPARING ∨ p.state = .SYNCHRONIZING ∨ p.state = .CONNECTING then send p.nearby else [])

def sendDelayMessage (p : Peer) (m : Manager) (clock : Clock) : List Call :=
  p.real.toList.map (Call.sendDelay ⟨m.tunIp,p.addr,clock.boot⟩)

/- The switch of Peer::tick, before the counter is stepped. -/
def tickState (p : Peer) (m : Manager) (clock : Clock) : Peer × List Call :=
  let active (n : Int) := p.checkActivityWithin clock.checked (seconds n)
  match p.state with
  | .INIT => (p,[])
  | .PREPARING =>
    if m.stunEnabled && active 10 then (p,[.stunNeeded]) else ((p.updateState clock.stamped .FAILED).1,[])
  | .SYNCHRONIZING =>
    if active 10 then (p,p.sendHeartbeatMessage m) else ((p.updateState clock.stamped .FAILED).1,[])
  | .CONNECTING =>
    if active 10 then (p,p.sendHeartbeatMessage m) else ((p.updateState clock.stamped .WAITING).1,[])
  | .CONNECTED =>
    if active 3 then
      (p,p.sendHeartbeatMessage m ++
        if m.clientRelayEnabled && p.tickCount % 60 == 0 then p.sendDelayMessage m clock else [])
    else ((p.updateState clock.stamped .INIT).1,
      if m.clientRelayEnabled then [.updateRtTable ⟨p.addr,p.addr,Peer.RTT_LIMIT⟩] else [])
  | .WAITING => if active p.retry then (p,[]) else ((p.updateState clock.stamped .INIT).1,[])
  | .FAILED => (p,[])

def tick (p : Peer) (m : Manager) (clock : Clock) : Peer × List Call :=
  let out := p.tickState m clock
  ({out.1 with tickCount := out.1.tickCount + 1},out.2)

/- The state check of handleHeartbeatMessage. -/
def accepts (p : Peer) : Prop := ¬ Idle p.state

instance (p : Peer) : Decidable p.accepts := inferInstanceAs (Decidable (¬ _))

/- Where a heartbeat came from; none if it is refused for its address. -/
def heardFrom (p : Peer) (m : Manager) (address : SocketAddress) : Option Peer :=
  if !isLocalNetwork m.scopes address then some {p with wide := some address}
  else if !m.localP2PDisabled then some {p with nearby := some address} else none

def chooseReal (p : Peer) (m : Manager) (address : SocketAddress) : Peer :=
  match p.real with
  | none => {p with real := some address}
  | some real =>
    if isLocalNetwork m.scopes address || !isLocalNetwork m.scopes real then {p with real := some address} else p

def acknowledge (p : Peer) : Peer := if p.ack = 0 then {p with ack := 1} else p

def handleHeartbeatMessage (p : Peer) (m : Manager) (clock : Clock) (address : SocketAddress)
    (heartbeatAck : Byte) : Peer × List Call :=
  if ¬ p.accepts then (p,[]) else
  match p.heardFrom m address with
  | none => (p,[])
  | some p =>
    let p := (p.chooseReal m address).acknowledge
    if heartbeatAck ≠ 0 then
      let out := p.updateState clock.stamped .CONNECTED
      (out.1,if out.2 then out.1.sendDelayMessage m clock else [])
    else (p,[])

end Peer

inductive Peer.Event where
  | tick
  | tryConnecct (retryFailed : Bool)
  | stunResponse
  | pubInfo (ip : IP4) (port : BitVec 16) (nearby : Bool)
  | heartbeat (address : SocketAddress) (ack : Byte)
  deriving DecidableEq, Repr

def Peer.handle (p : Peer) (m : Manager) (clock : Clock) : Peer.Event → Peer × List Call
  | .tick => p.tick m clock
  | .tryConnecct retryFailed => (p.tryConnecct clock retryFailed,[])
  | .stunResponse => p.handleStunResponse clock
  | .pubInfo ip port nearby => p.handlePubInfo clock ip port nearby
  | .heartbeat address ack => p.handleHeartbeatMessage m clock address ack

namespace Peer

theorem updateEnter {p : Peer} {now : Time} {state : PeerState} (entering : ¬ Idle state) :
    p.updateState now state = ({p with lastActiveTime := now, state := state},decide (p.state ≠ state)) := by
  obtain ⟨notInit,notWaiting,notFailed⟩ := by simpa only [Idle,not_or] using entering
  unfold updateState
  by_cases same : p.state = state
  · subst same; simp
  · simp [same,entering,notInit,notFailed]

def retryAfter (p : Peer) (state : PeerState) : Int :=
  if p.state = .WAITING ∧ state = .INIT then min (p.retry * 2) RETRY_MAX
  else if state = .INIT ∨ state = .FAILED then RETRY_MIN else p.retry

theorem updateReset {p : Peer} {now : Time} {state : PeerState} (idle : Idle state) (other : p.state ≠ state) :
    (p.updateState now state).1 =
      {p.resetState with lastActiveTime := now, retry := p.retryAfter state, state := state} := by
  unfold updateState retryAfter
  simp only [if_neg other,if_pos idle,resetState]
  split
  · rfl
  · split <;> rfl

structure Bounded (p : Peer) : Prop where
  flag : p.ack = 0 ∨ p.ack = 1
  retryMin : RETRY_MIN ≤ p.retry
  retryMax : p.retry ≤ RETRY_MAX

structure Sound (p : Peer) : Prop extends Bounded p where
  connected : p.state = .CONNECTED → p.real.isSome ∧ p.ack = 1
  connecting : p.state = .CONNECTING → p.wide.isSome
  idle : Idle p.state → p.wide = none ∧ p.real = none ∧ p.ack = 0

theorem soundFresh (addr : IP4) (tickCount : BitVec 32) : (fresh addr tickCount).Sound where
  flag := .inl rfl
  retryMin := le_refl _
  retryMax := by simp [fresh,RETRY_MIN,RETRY_MAX]
  connected := by simp [fresh]
  connecting := by simp [fresh]
  idle := fun _ => ⟨rfl,rfl,rfl⟩

theorem soundEnter {p : Peer} (bounded : p.Bounded) (now : Time) {state : PeerState} (entering : ¬ Idle state)
    (connected : state = .CONNECTED → p.real.isSome ∧ p.ack = 1) (connecting : state = .CONNECTING → p.wide.isSome) :
    (p.updateState now state).1.Sound := by
  rw [updateEnter entering]
  exact ⟨⟨bounded.flag,bounded.retryMin,bounded.retryMax⟩,connected,connecting,fun idle => absurd idle entering⟩

theorem soundReset {p : Peer} (bounded : p.Bounded) (now : Time) {state : PeerState} (idle : Idle state)
    (other : p.state ≠ state) : (p.updateState now state).1.Sound := by
  obtain ⟨_,low,high⟩ := bounded
  have bounds : RETRY_MIN ≤ p.retryAfter state ∧ p.retryAfter state ≤ RETRY_MAX := by
    unfold retryAfter RETRY_MIN RETRY_MAX at *
    split
    · omega
    · split <;> omega
  rw [updateReset idle other]
  refine ⟨⟨.inl rfl,bounds.1,bounds.2⟩,fun entered => ?_,fun entered => ?_,fun _ => ⟨rfl,rfl,rfl⟩⟩
  · cases (entered : state = .CONNECTED); simp [Idle] at idle
  · cases (entered : state = .CONNECTING); simp [Idle] at idle

theorem soundTry {p : Peer} (sound : p.Sound) (clock : Clock) (retryFailed : Bool) :
    (p.tryConnecct clock retryFailed).Sound := by
  unfold tryConnecct
  split
  · exact soundEnter sound.toBounded _ (by decide) (by simp) (by simp)
  · exact sound

theorem soundPubInfo {p : Peer} (sound : p.Sound) (clock : Clock) (ip : IP4) (port : BitVec 16) (nearby : Bool) :
    (p.handlePubInfo clock ip port nearby).1.Sound := by
  have bounded := sound.toBounded
  unfold handlePubInfo
  split
  · exact ⟨⟨bounded.1,bounded.2,bounded.3⟩,sound.connected,sound.connecting,sound.idle⟩
  · set q := {p with wide := some ⟨.v4 ip,port⟩} with known
    have moved : q.Bounded := ⟨bounded.1,bounded.2,bounded.3⟩
    have wide : q.wide.isSome := rfl
    have staying (h : ¬ Idle q.state) : q.Sound :=
      ⟨moved,sound.connected,fun _ => wide,fun idle => absurd idle h⟩
    dsimp only
    split
    · rename_i connected; exact staying (by simp [connected,Idle])
    · exact soundEnter moved _ (by decide) (by simp) (fun _ => wide)
    · rename_i connecting; exact staying (by simp [connecting,Idle])
    · exact soundEnter moved _ (by decide) (by simp) (by simp)

theorem soundStun {p : Peer} (sound : p.Sound) (clock : Clock) : (p.handleStunResponse clock).1.Sound := by
  unfold handleStunResponse
  split
  · exact sound
  · split
    · exact soundEnter sound.toBounded _ (by decide) (by simp) (by simp)
    · rename_i known
      exact soundEnter sound.toBounded _ (by decide) (by simp) (fun _ => Option.isSome_iff_ne_none.mpr known)

theorem soundTick {p : Peer} (sound : p.Sound) (m : Manager) (clock : Clock) : (p.tick m clock).1.Sound := by
  have stepped : (p.tickState m clock).1.Sound := by
    have bounded := sound.toBounded
    unfold tickState
    cases here : p.state with
    | INIT => exact sound
    | FAILED => exact sound
    | PREPARING => dsimp only; split <;> [exact sound; exact soundReset bounded _ (by decide) (by simp [here])]
    | SYNCHRONIZING => dsimp only; split <;> [exact sound; exact soundReset bounded _ (by decide) (by simp [here])]
    | CONNECTING => dsimp only; split <;> [exact sound; exact soundReset bounded _ (by decide) (by simp [here])]
    | CONNECTED => dsimp only; split <;> [exact sound; exact soundReset bounded _ (by decide) (by simp [here])]
    | WAITING => dsimp only; split <;> [exact sound; exact soundReset bounded _ (by decide) (by simp [here])]
  exact ⟨⟨stepped.flag,stepped.retryMin,stepped.retryMax⟩,stepped.connected,stepped.connecting,stepped.idle⟩

structure Heard (p q : Peer) : Prop where
  state : q.state = p.state
  real : q.real.isSome
  ack : q.ack = 1
  wide : p.wide.isSome → q.wide.isSome
  retry : q.retry = p.retry

theorem heardSpec {p q : Peer} {m : Manager} {address : SocketAddress} (flag : p.ack = 0 ∨ p.ack = 1)
    (heard : p.heardFrom m address = some q) : Heard p (q.chooseReal m address).acknowledge := by
  have noted : q.state = p.state ∧ q.ack = p.ack ∧ (p.wide.isSome → q.wide.isSome) ∧ q.retry = p.retry := by
    unfold heardFrom at heard
    split at heard
    · cases heard; exact ⟨rfl,rfl,fun _ => rfl,rfl⟩
    · split at heard <;> [cases heard; contradiction]
      exact ⟨rfl,rfl,id,rfl⟩
  obtain ⟨state,ack,wide,retry⟩ := noted
  have chosen : ∃ real, q.chooseReal m address = {q with real := some real} := by
    unfold chooseReal
    split
    · exact ⟨_,rfl⟩
    · rename_i old known
      split
      · exact ⟨_,rfl⟩
      · exact ⟨old,by rw [← known]⟩
  obtain ⟨real,chosen⟩ := chosen
  rw [chosen]
  unfold acknowledge
  split
  · exact ⟨state,rfl,rfl,wide,retry⟩
  · rename_i marked
    exact ⟨state,rfl,(flag.resolve_left (ack ▸ marked)) ▸ ack,wide,retry⟩

theorem soundHeartbeat {p : Peer} (sound : p.Sound) (m : Manager) (clock : Clock) (address : SocketAddress)
    (heartbeatAck : Byte) : (p.handleHeartbeatMessage m clock address heartbeatAck).1.Sound := by
  unfold handleHeartbeatMessage
  split
  · exact sound
  · rename_i accepted
    split
    · exact sound
    · rename_i q heard
      have noted := heardSpec sound.flag heard
      have bounded : ((q.chooseReal m address).acknowledge).Bounded :=
        ⟨.inr noted.ack,noted.retry ▸ sound.retryMin,noted.retry ▸ sound.retryMax⟩
      split
      · exact soundEnter bounded _ (by decide) (fun _ => ⟨noted.real,noted.ack⟩) (by simp)
      · exact ⟨bounded,fun _ => ⟨noted.real,noted.ack⟩,
          fun connecting => noted.wide (sound.connecting (noted.state ▸ connecting)),
          fun idle => absurd (noted.state ▸ idle) (not_not.mp accepted)⟩

theorem soundHandle {p : Peer} (sound : p.Sound) (m : Manager) (clock : Clock) (e : Event) :
    (p.handle m clock e).1.Sound := by
  cases e with
  | tick => exact soundTick sound m clock
  | tryConnecct retryFailed => exact soundTry sound clock retryFailed
  | stunResponse => exact soundStun sound clock
  | pubInfo ip port nearby => exact soundPubInfo sound clock ip port nearby
  | heartbeat address ack => exact soundHeartbeat sound m clock address ack

/- Where an ack, a connection and a heartbeat can come from, and what becomes of a
connection: it stays, or is given up with a withdrawal of the routes through it. -/
structure Moved (p : Peer) (m : Manager) (e : Event) (q : Peer) (calls : List Call) : Prop where
  addr : q.addr = p.addr
  ack : q.ack ≠ 0 → p.ack ≠ 0 ∨ p.accepts ∧ ∃ address ack, e = .heartbeat address ack
  connected : q.state = .CONNECTED → p.state = .CONNECTED ∨ p.accepts ∧ ∃ address ack, e = .heartbeat address ack ∧ ack ≠ 0
  beats : ∀ h address, Call.sendHeartbeat h address ∈ calls → h = ⟨m.tunIp,p.ack⟩
  routes : (p.state = .CONNECTED → q.state = .CONNECTED) ∧ (∀ entry, Call.updateRtTable entry ∉ calls) ∨
    p.state = .CONNECTED ∧ q.state = .INIT ∧
      calls = if m.clientRelayEnabled then [.updateRtTable ⟨p.addr,p.addr,Peer.RTT_LIMIT⟩] else []

theorem updateSpec (p : Peer) (now : Time) (state : PeerState) :
    (p.updateState now state).1.addr = p.addr ∧ (p.updateState now state).1.state = state ∧
    ((p.updateState now state).1.ack ≠ 0 → p.ack ≠ 0) := by
  by_cases idle : Idle state
  · by_cases same : p.state = state
    · subst same; simp [updateState]
    · rw [updateReset idle same]; exact ⟨rfl,rfl,fun marked => absurd rfl marked⟩
  · rw [updateEnter idle]; exact ⟨rfl,rfl,id⟩

theorem movedTo {p q : Peer} {m : Manager} {e : Event} {calls : List Call} (now : Time) {state : PeerState}
    (addr : q.addr = p.addr) (ack : q.ack = p.ack) (from' : p.state ≠ .CONNECTED) (to' : state ≠ .CONNECTED)
    (quiet : ∀ c ∈ calls, ∃ dst nearby, c = .sendPubInfo dst nearby) :
    Moved p m e (q.updateState now state).1 calls := by
  obtain ⟨same,entered,marked⟩ := updateSpec q now state
  refine ⟨same.trans addr,fun h => .inl (ack ▸ marked h),fun h => absurd (entered ▸ h) to',fun h address sent => ?_,
    .inl ⟨fun h => absurd h from',fun entry called => ?_⟩⟩
  · obtain ⟨_,_,other⟩ := quiet _ sent; contradiction
  · obtain ⟨_,_,other⟩ := quiet _ called; contradiction

theorem movedStill {p q : Peer} {m : Manager} {e : Event} {calls : List Call} (addr : q.addr = p.addr)
    (ack : q.ack = p.ack) (state : q.state = p.state)
    (beats : ∀ h address, Call.sendHeartbeat h address ∈ calls → h = ⟨m.tunIp,p.ack⟩)
    (quiet : ∀ entry, Call.updateRtTable entry ∉ calls) : Moved p m e q calls :=
  ⟨addr,fun h => .inl (ack ▸ h),fun h => .inl (state ▸ h),beats,.inl ⟨fun h => state.trans h,quiet⟩⟩

theorem beatSpec (p : Peer) (m : Manager) :
    ∀ c ∈ p.sendHeartbeatMessage m, ∃ address, c = .sendHeartbeat ⟨m.tunIp,p.ack⟩ address := by
  intro c sent
  unfold sendHeartbeatMessage at sent
  have one (from' : Option SocketAddress) (P : Prop) [Decidable P]
      (sent : c ∈ if P then from'.toList.map (Call.sendHeartbeat ⟨m.tunIp,p.ack⟩) else []) :
      ∃ address, c = .sendHeartbeat ⟨m.tunIp,p.ack⟩ address := by
    split at sent
    · obtain ⟨address,_,rfl⟩ := List.mem_map.mp sent; exact ⟨address,rfl⟩
    · contradiction
  rcases List.mem_append.mp sent with sent | sent
  · rcases List.mem_append.mp sent with sent | sent
    · exact one _ _ sent
    · exact one _ _ sent
  · exact one _ _ sent

theorem delaySpec (p : Peer) (m : Manager) (clock : Clock) :
    ∀ c ∈ p.sendDelayMessage m clock, ∃ d address, c = .sendDelay d address := by
  intro c sent
  obtain ⟨address,_,rfl⟩ := List.mem_map.mp sent
  exact ⟨_,address,rfl⟩

theorem movedTick (p : Peer) (m : Manager) (clock : Clock) :
    Moved p m .tick (p.tick m clock).1 (p.tick m clock).2 := by
  have beats (h : Heartbeat) (address : SocketAddress)
      (sent : Call.sendHeartbeat h address ∈ p.sendHeartbeatMessage m) : h = ⟨m.tunIp,p.ack⟩ := by
    obtain ⟨_,same⟩ := beatSpec p m _ sent
    cases same; rfl
  have quiet (entry) : Call.updateRtTable entry ∉ p.sendHeartbeatMessage m := by
    intro called
    obtain ⟨_,other⟩ := beatSpec p m _ called
    contradiction
  have stepped : Moved p m .tick (p.tickState m clock).1 (p.tickState m clock).2 := by
    unfold tickState
    cases here : p.state with
    | INIT => exact movedStill rfl rfl rfl (by simp) (by simp)
    | FAILED => exact movedStill rfl rfl rfl (by simp) (by simp)
    | PREPARING =>
      dsimp only
      split
      · exact movedStill rfl rfl rfl (by simp) (by simp)
      · exact movedTo _ rfl rfl (by simp [here]) (by decide) (by simp)
    | SYNCHRONIZING =>
      dsimp only
      split
      · exact movedStill rfl rfl rfl beats quiet
      · exact movedTo _ rfl rfl (by simp [here]) (by decide) (by simp)
    | CONNECTING =>
      dsimp only
      split
      · exact movedStill rfl rfl rfl beats quiet
      · exact movedTo _ rfl rfl (by simp [here]) (by decide) (by simp)
    | WAITING =>
      dsimp only
      split
      · exact movedStill rfl rfl rfl (by simp) (by simp)
      · exact movedTo _ rfl rfl (by simp [here]) (by decide) (by simp)
    | CONNECTED =>
      dsimp only
      split
      · refine movedStill rfl rfl rfl (fun h address sent => ?_) fun entry called => ?_
        · rcases List.mem_append.mp sent with sent | sent
          · exact beats h address sent
          · split at sent <;> [skip; contradiction]
            obtain ⟨_,_,other⟩ := delaySpec p m clock _ sent
            contradiction
        · rcases List.mem_append.mp called with called | called
          · exact quiet entry called
          · split at called <;> [skip; contradiction]
            obtain ⟨_,_,other⟩ := delaySpec p m clock _ called
            contradiction
      · obtain ⟨addr,entered,marked⟩ := updateSpec p clock.stamped .INIT
        refine ⟨addr,fun h => .inl (marked h),fun h => .inl here,fun h address sent => ?_,.inr ⟨here,entered,rfl⟩⟩
        dsimp only at sent
        split at sent <;> simp at sent
  exact ⟨stepped.addr,stepped.ack,stepped.connected,stepped.beats,stepped.routes⟩

theorem movedHeartbeat (p : Peer) (m : Manager) (clock : Clock) (address : SocketAddress) (ack : Byte) :
    Moved p m (.heartbeat address ack) (p.handleHeartbeatMessage m clock address ack).1
      (p.handleHeartbeatMessage m clock address ack).2 := by
  unfold handleHeartbeatMessage
  split
  · exact movedStill rfl rfl rfl (by simp) (by simp)
  · rename_i accepted
    have accepted := not_not.mp accepted
    split
    · exact movedStill rfl rfl rfl (by simp) (by simp)
    · rename_i q heard
      obtain ⟨addr,state⟩ : ((q.chooseReal m address).acknowledge).addr = p.addr ∧
          ((q.chooseReal m address).acknowledge).state = p.state := by
        unfold heardFrom at heard
        have noted : q.addr = p.addr ∧ q.state = p.state := by
          split at heard
          · cases heard; exact ⟨rfl,rfl⟩
          · split at heard <;> [cases heard; contradiction]
            exact ⟨rfl,rfl⟩
        unfold acknowledge chooseReal
        split <;> split <;> (try split) <;> exact noted
      split
      · rename_i marked
        obtain ⟨same,entered,_⟩ := updateSpec (q.chooseReal m address).acknowledge clock.stamped .CONNECTED
        refine ⟨same.trans addr,fun _ => .inr ⟨accepted,address,ack,rfl⟩,
          fun _ => .inr ⟨accepted,address,ack,rfl,marked⟩,fun h to' sent => ?_,
          .inl ⟨fun _ => entered,fun entry called => ?_⟩⟩
        · dsimp only at sent
          split at sent <;> [skip; contradiction]
          obtain ⟨_,_,other⟩ := delaySpec _ m clock _ sent
          contradiction
        · dsimp only at called
          split at called <;> [skip; contradiction]
          obtain ⟨_,_,other⟩ := delaySpec _ m clock _ called
          contradiction
      · exact ⟨addr,fun _ => .inr ⟨accepted,address,ack,rfl⟩,fun h => .inl (state ▸ h),by simp,
          .inl ⟨fun h => state.trans h,by simp⟩⟩

theorem movedHandle (p : Peer) (m : Manager) (clock : Clock) (e : Event) :
    Moved p m e (p.handle m clock e).1 (p.handle m clock e).2 := by
  cases e with
  | tick => exact movedTick p m clock
  | heartbeat address ack => exact movedHeartbeat p m clock address ack
  | tryConnecct retryFailed =>
    unfold handle tryConnecct
    dsimp only
    split
    · rename_i here
      have unconnected : p.state ≠ .CONNECTED := by rcases here with h | ⟨_,h⟩ <;> simp [h]
      exact movedTo _ rfl rfl unconnected (by decide) (by simp)
    · exact movedStill rfl rfl rfl (by simp) (by simp)
  | stunResponse =>
    unfold handle handleStunResponse
    dsimp only
    split
    · exact movedStill rfl rfl rfl (by simp) (by simp)
    · rename_i here
      have unconnected : p.state ≠ .CONNECTED := by simp [not_not.mp here]
      split
      · exact movedTo _ rfl rfl unconnected (by decide) (by simp)
      · exact movedTo _ rfl rfl unconnected (by decide) (by simp)
  | pubInfo ip port nearby =>
    unfold handle handlePubInfo
    dsimp only
    split
    · exact movedStill rfl rfl rfl (by simp) (by simp)
    · split
      · exact movedStill rfl rfl rfl (by simp) (by simp)
      · rename_i here; exact movedTo _ rfl rfl (by simp [here]) (by decide) (by simp)
      · exact movedStill rfl rfl rfl (by simp) (by simp)
      · rename_i unconnected _ _; exact movedTo _ rfl rfl unconnected (by decide) (by simp)

/- A peer over its whole life; the manager may answer differently each time. -/
def run (p : Peer) : List (Manager × Clock × Event) → Peer
  | [] => p
  | (m,clock,e)::rest => ((p.handle m clock e).1).run rest

theorem soundRun {p : Peer} (sound : p.Sound) (events : List (Manager × Clock × Event)) : (p.run events).Sound := by
  induction events generalizing p with
  | nil => exact sound
  | cons e rest ih => exact ih (soundHandle sound e.1 e.2.1 e.2.2)

theorem peerStates (addr : IP4) (tickCount : BitVec 32) (events : List (Manager × Clock × Event)) :
    let p := (fresh addr tickCount).run events
    (p.state = .CONNECTED → p.real.isSome ∧ p.ack = 1) ∧ (p.state = .CONNECTING → p.wide.isSome) ∧
    (p.state = .INIT ∨ p.state = .WAITING ∨ p.state = .FAILED → p.wide = none ∧ p.real = none ∧ p.ack = 0) ∧
    RETRY_MIN ≤ p.retry ∧ p.retry ≤ RETRY_MAX := by
  have sound := soundRun (soundFresh addr tickCount) events
  exact ⟨sound.connected,sound.connecting,sound.idle,sound.retryMin,sound.retryMax⟩

end Peer
end Candy.P2P
