import Candy.CidrText
import Candy.ClientOutputs

/-! The address of a client: from where it learns it, what it tells its modules and
the server, and which packets enter its Tun module for it. An EXPTTUN frame and a
queued address are the only things that move it. -/
namespace Candy.ClientQueues
open WsMsg CoreMsg DataPlane Modules

def Tells (env : Env) (ip : IP4) (cidr : Bytes) : Prop :=
  ∀ a, ∃ mask, Address.fromCidr env.ipAddress a cidr = .ok ⟨ip,mask⟩

structure Located (ip : IP4) (c : Core) : Prop where
  tun : c.tun.ip = IP4.zero ∨ c.tun.ip = ip
  address : c.peer.address = IP4.zero ∨ c.peer.address = ip
  tunIp : c.peer.manager.tunIp = IP4.zero ∨ c.peer.manager.tunIp = ip
  key : c.key = [] ∨ c.peer.manager.tunIp = ip

structure Unlocated (c : Core) : Prop where
  tun : c.tun.ip = IP4.zero
  address : c.peer.address = IP4.zero
  tunIp : c.peer.manager.tunIp = IP4.zero
  key : c.key = []

/- The newest is at the head of sent. -/
def framesOf (sent : List Sent) : List Bytes := sent.reverse.filterMap fun x => match x.emission with
  | .frame frame => some frame
  | _ => none

def Admits (env : Env) (ip : IP4) (group : IP4 → Prop) : Out → Prop
  | .write queue item => (∀ cidr, item.payload = .msg (.tunAddr cidr) → Tells env ip cidr) ∧
      ∀ data, queue = .tun → item.payload = .msg (.packet data) → ip4At data 16 = ip ∨ group (ip4At data 16)
  | .out _ => True

def Untold : Out → Prop
  | .write queue item => (∀ cidr, item.payload ≠ .msg (.tunAddr cidr)) ∧
      ∀ data, queue = .tun → item.payload ≠ .msg (.packet data)
  | .out _ => True

def Entered (c : Core) (e : Event) (data : Bytes) : Prop :=
  (∃ m pingMessage now, e = .frame m pingMessage now ∧ byteAt m 0 = Kind.FORWARD ∧ ip4At data 16 = Forward.daddr m) ∨
    c.key ≠ [] ∧ ip4At data 16 = c.peer.manager.tunIp

def LoginFrame (frame : Bytes) : Prop := byteAt frame 0 = Kind.AUTH ∨ byteAt frame 0 = Kind.EXPTTUN
instance (frame : Bytes) : Decidable (LoginFrame frame) := inferInstanceAs (Decidable (_ ∨ _))

def Aside (c : Core) (e : Event) : Out → Prop
  | .write queue item => (∀ cidr, item.payload ≠ .msg (.tunAddr cidr)) ∧
      ∀ data, queue = .tun → item.payload = .msg (.packet data) → Entered c e data
  | .out sent => ∀ frame, sent.emission = .frame frame → ¬ LoginFrame frame

structure Stays (c c' : Core) : Prop where
  ws : c'.ws = c.ws
  tun : c'.tun.ip = c.tun.ip
  address : c'.peer.address = c.peer.address
  tunIp : c'.peer.manager.tunIp = c.peer.manager.tunIp
  key : c'.key = c.key

structure Learns (ip : IP4) (c c' : Core) : Prop where
  tun : c'.tun.ip = c.tun.ip ∨ c'.tun.ip = ip
  address : c'.peer.address = c.peer.address ∨ c'.peer.address = ip
  peer : c'.key = c.key ∧ c'.peer.manager.tunIp = c.peer.manager.tunIp ∨ c'.peer.manager.tunIp = ip

inductive Turns (env : Env) (c : Core) (e : Event) (taken : Option Item) : Core → List Out → Prop where
  | aside {c' outputs} (stays : Stays c c') (each : ∀ o ∈ outputs, Aside c e o) : Turns env c e taken c' outputs
  | told {c' cidr origin} (head : taken = some ⟨.msg (.tunAddr cidr),origin⟩) (ws : c'.ws = c.ws)
      (learns : ∀ ip, Tells env ip cidr → Learns ip c c') : Turns env c e taken c' []
  | answered {m pingMessage now tunCidr a} (event : e = .frame m pingMessage now) (kind : byteAt m 0 = Kind.EXPTTUN)
      (named : WsClient.address env.ws tunCidr = some a) : Turns env c e taken {c with ws := {c.ws with tunCidr := tunCidr}}
        [emit .server (.frame (WsClient.authFrame env.ws c.ws.password a.host now)),put .tun .server (.tunAddr a.toCidr),
          put .peer .server (.tunAddr a.toCidr),emit .server (.control pingMessage)]

def Turning (env : Env) (c : Core) (e : Event) (taken : Option Item) (result : Option (Core × List Out)) : Prop :=
  ∀ c' outputs, result = some (c',outputs) → Turns env c e taken c' outputs

section
variable {c : Core} {e : Event} {taken : Option Item} {env : Env}

theorem Stays.refl (c : Core) : Stays c c := ⟨rfl,rfl,rfl,rfl,rfl⟩

theorem Turning.nothing : Turning env c e taken none := by
  intro c' outputs ok
  contradiction

theorem Turning.quiet {c' : Core} (stays : Stays c c') : Turning env c e taken (some (c',[])) := by
  intro c'' outputs ok
  cases ok
  exact .aside stays (by simp)

theorem Turning.puts {outputs : List Out} (each : ∀ o ∈ outputs, Aside c e o) : Turning env c e taken (some (c,outputs)) := by
  intro c' outputs' ok
  cases ok
  exact .aside (.refl c) each

theorem asideTold {queue : Module} {origin : Origin} {msg : Msg} (address : ∀ cidr, msg ≠ .tunAddr cidr)
    (packet : ∀ data, msg ≠ .packet data) : Aside c e (put queue origin msg) :=
  ⟨fun cidr same => address cidr (Payload.msg.inj same),fun data _ same => absurd (Payload.msg.inj same) (packet data)⟩

theorem asidePacket {queue : Module} {origin : Origin} {data : Bytes} (other : queue ≠ .tun) :
    Aside c e (put queue origin (.packet data)) :=
  ⟨fun _ same => (by cases same),fun _ here => absurd here other⟩

theorem asideStack {queue : Module} {origin : Origin} {data : Bytes} : Aside c e (.write queue ⟨.netStack data,origin⟩) :=
  ⟨fun _ same => (by cases same),fun _ _ same => (by cases same)⟩

theorem asideFrame {origin : Origin} {frame : Bytes} (other : ¬ LoginFrame frame) : Aside c e (emit origin (.frame frame)) := by
  intro m same
  cases same
  exact other

theorem asideOut {origin : Origin} {emission : Emission} (other : ∀ frame, emission ≠ .frame frame) : Aside c e (emit origin emission) :=
  fun frame same => absurd same (other frame)

theorem clientStays {p p' : P2P.Client} {i : P2P.Input} {sent : List P2P.Datagram} (ok : p.handle i = some (p',sent)) :
    p'.address = p.address ∧ p'.manager.tunIp = p.manager.tunIp := by
  cases P2P.Client.handleStepped ok with
  | peer known heard nothing stepped => rw [stepped.kept]; exact ⟨rfl,rfl⟩
  | quiet tunIp routeCost nothing silent => exact ⟨rfl,tunIp⟩
  | offered brought same updated => rw [(P2P.Client.updateClient updated).1]; exact ⟨rfl,rfl⟩

theorem peersAside {c' : Core} {outputs : List Out} {i : P2P.Input} (ok : c.peers i = some (c',outputs)) :
    Stays c c' ∧ ∀ o ∈ outputs, Aside c e o := by
  obtain ⟨⟨peer,sent⟩,handled,same⟩ := Option.map_eq_some_iff.mp ok
  cases same
  obtain ⟨address,tunIp⟩ := clientStays handled
  refine ⟨⟨rfl,rfl,address,tunIp,rfl⟩,fun o member => ?_⟩
  rcases List.mem_append.mp member with message | info
  · obtain ⟨d,_,same⟩ := List.mem_map.mp message
    exact same ▸ asideOut (by simp)
  · obtain ⟨call,_,info⟩ := List.mem_filterMap.mp info
    cases call with
    | sendPubInfo dst nearby => cases info; exact asideTold (by simp) (by simp)
    | _ => contradiction

theorem tryP2PAside {c' : Core} {outputs : List Out} {ip : Bytes} {clock : P2P.Clock} {seed : BitVec 32}
    (ok : c.handleTryP2P env ip clock seed = some (c',outputs)) : Stays c c' ∧ ∀ o ∈ outputs, Aside c e o := by
  unfold Core.handleTryP2P at ok
  split at ok
  · cases ok; exact ⟨.refl c,by simp⟩
  · exact peersAside ok

theorem peersTurn (i : P2P.Input) : Turning env c e taken (c.peers i) := by
  intro c' outputs ok
  obtain ⟨stays,each⟩ := peersAside ok
  exact .aside stays each

theorem tryP2PTurns (ip : Bytes) (clock : P2P.Clock) (seed : BitVec 32) :
    Turning env c e taken (c.handleTryP2P env ip clock seed) := by
  intro c' outputs ok
  obtain ⟨stays,each⟩ := tryP2PAside ok
  exact .aside stays each

theorem peerPacketTurns {relay direct : Attempt} {clock : P2P.Clock} {seed : BitVec 32} {data : Bytes} {origin : Origin} :
    Turning env c e taken (c.handlePeerPacket env relay direct clock seed data origin) := by
  intro c' outputs ok
  obtain ⟨⟨sent,rest⟩,_,ok⟩ := Option.bind_eq_some_iff.mp ok
  have sealed : ∀ o ∈ sent.map fun m => emit origin (.packet m), Aside c e o := by
    intro o member
    obtain ⟨m,_,same⟩ := List.mem_map.mp member
    exact same ▸ asideOut (by simp)
  cases rest with
  | sent => cases ok; exact .aside (.refl c) sealed
  | tryP2P peer =>
    obtain ⟨⟨c₁,more⟩,tried,same⟩ := Option.map_eq_some_iff.mp ok
    cases same
    obtain ⟨stays,each⟩ := tryP2PAside tried
    exact .aside stays fun o member => (List.mem_append.mp member).elim (sealed o) (each o)
  | ws data =>
    cases ok
    refine .aside (.refl c) fun o member => ?_
    rcases List.mem_append.mp member with member | member
    · exact sealed o member
    · cases List.mem_singleton.mp member
      exact asidePacket (by simp)

theorem peerTunAddrTurns {cidr : Bytes} {origin : Origin} (head : taken = some ⟨.msg (.tunAddr cidr),origin⟩) :
    Turning env c e taken (c.handlePeerTunAddr env cidr) := by
  intro c' outputs ok
  unfold Core.handlePeerTunAddr at ok
  dsimp only at ok
  split at ok
  · rename_i a parsed
    cases ok
    refine .told head rfl fun ip tells => ?_
    obtain ⟨mask,same⟩ := tells ⟨c.peer.manager.tunIp,IP4.zero⟩
    cases parsed.symm.trans same
    exact ⟨.inl rfl,.inl rfl,.inr rfl⟩
  · rename_i a parsed
    cases ok
    refine .told head rfl fun ip tells => ?_
    obtain ⟨mask,same⟩ := tells ⟨c.peer.manager.tunIp,IP4.zero⟩
    cases parsed.symm.trans same
  · contradiction

theorem tunAddrTurns {cidr : Bytes} {origin : Origin} (head : taken = some ⟨.msg (.tunAddr cidr),origin⟩) :
    Turning env c e taken (c.handleTunAddr env cidr) := by
  intro c' outputs ok
  unfold Core.handleTunAddr at ok
  split at ok
  · rename_i a parsed
    cases ok
    refine .told head rfl fun ip tells => ?_
    obtain ⟨mask,same⟩ := tells ⟨IP4.zero,IP4.zero⟩
    cases parsed.symm.trans same
    exact ⟨.inr rfl,.inr rfl,.inl ⟨rfl,rfl⟩⟩
  · cases ok; exact .aside (.refl c) (by simp)
  · contradiction

theorem peerQueueTurns {relay direct : Attempt} {clock : P2P.Clock} {seed : BitVec 32} (item : Item) (head : taken = some item) :
    Turning env c e taken (c.handlePeerQueue env relay direct clock seed item) := by
  obtain ⟨payload,origin⟩ := item
  cases payload with
  | netStack data => exact .quiet (.refl c)
  | msg msg => cases msg with
    | packet data => exact peerPacketTurns
    | tunAddr cidr => exact peerTunAddrTurns head
    | sysRt data => exact peersTurn ⟨.sysrt,clock,seed⟩
    | tryP2P ip => exact tryP2PTurns ip clock seed
    | pubInfo info => exact peersTurn ⟨.pubInfo info,clock,seed⟩
    | discovery => exact .quiet (.refl c)

/- Only a client with a key reads a datagram at all. -/
theorem forwardTurns (m : Bytes) (opened : c.key ≠ []) : Turning env c e taken (some (c,c.handleForward m)) := by
  refine .puts fun o member => ?_
  unfold Core.handleForward at member
  cases handed : handleForwardMessage c.peer m with
  | none => rw [handed] at member; contradiction
  | some out =>
    obtain ⟨queue,packet⟩ := out
    rw [handed] at member
    unfold handleForwardMessage at handed
    split at handed
    · contradiction
    dsimp only at handed
    split at handed
    · rename_i mine
      cases handed
      cases List.mem_singleton.mp member
      refine ⟨fun _ same => (by cases same),fun data _ same => ?_⟩
      cases same
      exact .inr ⟨opened,mine⟩
    · cases handed
      cases List.mem_singleton.mp member
      exact asidePacket (by simp [queueOf])

theorem messageTurns (clock : P2P.Clock) (address : P2P.SocketAddress) (m : Bytes) (opened : c.key ≠ []) :
    Turning env c e taken (c.handleMessage clock address m) := by
  cases m with
  | nil => exact .nothing
  | cons kind rest =>
    have quiet : Turning env c e taken (some (c,[])) := .quiet (.refl c)
    unfold Core.handleMessage
    dsimp only
    split
    · split
      · exact quiet
      · exact peersTurn _
    split
    · exact forwardTurns _ opened
    split
    · split
      · exact quiet
      · exact peersTurn _
    split
    · split
      · exact quiet
      · exact peersTurn _
    · exact quiet

theorem pollTurns (clock : P2P.Clock) (address : P2P.SocketAddress) (buffer : Bytes) :
    Turning env c e taken (c.poll env clock address buffer) := by
  unfold Core.poll
  split
  · exact .quiet (.refl c)
  · rename_i plaintext read
    refine messageTurns clock address plaintext fun empty => ?_
    rw [empty] at read
    contradiction

theorem pollStunTurns (buffer : Bytes) : Turning env c e taken (c.pollStun buffer) := by
  unfold Core.pollStun
  split
  · exact .quiet (.refl c)
  · exact .quiet ⟨rfl,rfl,rfl,rfl,rfl⟩
  · exact .nothing

theorem tunEffectAside (origin : Origin) (effect : Tun.Effect) : Aside c e (tunOut origin effect) := by
  cases effect with
  | write buffer => exact asideOut (by simp)
  | peer data => exact asidePacket (by simp)
  | netStack data => exact asideStack

theorem tunResultTurns {origin : Origin} {result : Tun × List Tun.Effect} (ip : result.1.ip = c.tun.ip) :
    Turning env c e taken (c.tunResult origin result) := by
  intro c' outputs ok
  cases ok
  refine .aside ⟨rfl,ip,rfl,rfl,rfl⟩ fun o member => ?_
  obtain ⟨effect,_,same⟩ := List.mem_map.mp member
  exact same ▸ tunEffectAside origin effect

theorem tunQueueTurns (now : Int) (item : Item) (head : taken = some item) : Turning env c e taken (c.handleTunQueue env now item) := by
  obtain ⟨payload,origin⟩ := item
  have quiet : Turning env c e taken (some (c,[])) := .quiet (.refl c)
  cases payload with
  | netStack data => exact quiet
  | msg msg => cases msg with
    | packet data => exact tunResultTurns (c.tun.packetIp now data)
    | tunAddr cidr => exact tunAddrTurns head
    | sysRt data =>
      unfold Core.handleTunQueue
      dsimp only
      split
      · exact .nothing
      · exact .quiet ⟨rfl,c.tun.sysRtIp data,rfl,rfl,rfl⟩
    | tryP2P ip => exact quiet
    | pubInfo info => exact quiet
    | discovery => exact quiet

theorem wsQueueTurns (item : Item) : Turning env c e taken (c.handleWsQueue env item) := by
  obtain ⟨payload,origin⟩ := item
  cases payload with
  | netStack data => exact .quiet (.refl c)
  | msg msg =>
    intro c' outputs ok
    obtain ⟨sent,handled,same⟩ := Option.map_eq_some_iff.mp ok
    cases same
    refine .aside (.refl c) fun o member => ?_
    obtain ⟨effect,inside,same⟩ := List.mem_map.mp member
    subst same
    cases msg with
    | packet data =>
      cases handled
      cases List.mem_singleton.mp inside
      exact asideFrame (by simp [LoginFrame,byteAt,Kind.FORWARD,Kind.AUTH,Kind.EXPTTUN])
    | pubInfo info =>
      cases handled
      unfold WsClient.handlePubInfo at inside
      split at inside
      · cases List.mem_singleton.mp inside
        exact asideFrame (by simp [LoginFrame,byteAt,WsClient.connLocalFrame,Kind.GENERAL,Kind.AUTH,Kind.EXPTTUN])
      · cases List.mem_singleton.mp inside
        exact asideFrame (by simp [LoginFrame,byteAt,WsClient.connFrame,Kind.UDP4CONN,Kind.AUTH,Kind.EXPTTUN])
    | discovery =>
      obtain ⟨a,_,same⟩ := Option.map_eq_some_iff.mp handled
      subst same
      cases List.mem_singleton.mp inside
      exact asideFrame (by simp [LoginFrame,byteAt,WsClient.discoveryFrame,Kind.DISCOVERY,Kind.AUTH,Kind.EXPTTUN])
    | _ => cases handled; contradiction

theorem frameTurns (m pingMessage : Bytes) (now : BitVec 64) (event : e = .frame m pingMessage now) :
    Turning env c e taken (c.handleFrame env m pingMessage now) := by
  intro c' outputs ok
  obtain ⟨ws,effects,handled,rfl,rfl⟩ := Core.frameHandled ok
  have puts (same : ws = c.ws) (each : ∀ effect ∈ effects, Aside c e (wsOut pingMessage .server effect)) :
      Turns env c e taken {c with ws := ws} (effects.map (wsOut pingMessage .server)) := by
    subst same
    refine .aside (.refl c) fun o member => ?_
    obtain ⟨effect,inside,same⟩ := List.mem_map.mp member
    exact same ▸ each effect inside
  cases handled with
  | nothing => exact puts rfl (by simp)
  | forward forward =>
    refine puts rfl fun effect inside => ?_
    rcases List.mem_cons.mp inside with rfl | inside
    · exact asideTold (by simp) (by simp)
    · split at inside
      · contradiction
      · cases List.mem_singleton.mp inside
        refine ⟨fun _ same => (by cases same),fun data _ same => .inl ?_⟩
        cases same
        have daddr : ip4At (m.drop 1) 16 = Forward.daddr m := by simp [ip4At,byteAt,Forward.daddr]
        exact ⟨_,_,_,event,forward,daddr⟩
  | exptTun exptTun named => exact .answered event exptTun named
  | conn info =>
    refine puts rfl fun effect inside => ?_
    cases List.mem_singleton.mp inside
    exact asideTold (by simp) (by simp)
  | discovered src =>
    refine puts rfl fun effect inside => ?_
    cases List.mem_singleton.mp inside
    exact asideTold (by simp) (by simp)
  | discovery =>
    refine puts rfl fun effect inside => ?_
    simp only [List.mem_cons,List.not_mem_nil,or_false] at inside
    rcases inside with rfl | rfl
    · exact asideFrame (by simp [LoginFrame,byteAt,WsClient.discoveryFrame,Kind.DISCOVERY,Kind.AUTH,Kind.EXPTTUN])
    · exact asideTold (by simp) (by simp)
  | routes =>
    refine puts rfl fun effect inside => ?_
    obtain ⟨data,_,here⟩ := List.mem_flatMap.mp inside
    simp only [List.mem_cons,List.not_mem_nil,or_false] at here
    rcases here with rfl | rfl
    · exact asideTold (by simp) (by simp)
    · exact asideTold (by simp) (by simp)

theorem outputTurns (now : Int) (inner : Bytes) : Turning env c e taken (c.output now inner) := by
  intro c' outputs ok
  unfold Core.output at ok
  split at ok
  · cases ok; exact .aside (.refl c) (by simp)
  split at ok
  · cases ok; exact .aside (.refl c) (by simp)
  dsimp only at ok
  split at ok
  · cases ok; exact .aside ⟨rfl,rfl,rfl,rfl,rfl⟩ (by simp)
  · cases ok
    refine .aside ⟨rfl,rfl,rfl,rfl,rfl⟩ fun o member => ?_
    cases List.mem_singleton.mp member
    exact asidePacket (by simp)

theorem inputStays (now : Int) (packet : Bytes) : Stays c (c.handleInput now packet) := by
  have feed (inner : Bytes) (vnetPeer : IP4) : Stays c (c.feedToLwip now inner vnetPeer) := by
    unfold Core.feedToLwip
    split
    · exact .refl c
    · exact ⟨rfl,rfl,rfl,rfl,rfl⟩
  have accept (inner : Bytes) (vnetPeer : IP4) : Stays c (if inner.length < IP4Header.size then c
      else if IP4Header.protocol inner ≠ 0x06 ∧ IP4Header.protocol inner ≠ 0x11 then c else c.feedToLwip now inner vnetPeer) := by
    split
    · exact .refl c
    split
    · exact .refl c
    · exact feed inner vnetPeer
  unfold Core.handleInput
  split
  · exact .refl c
  · exact accept _ _

theorem handleTurns (c : Core) (e : Event) (taken : Option Item) : Turning env c e taken (handle env c e taken) := by
  cases taken with
  | some item =>
    cases e with
    | tunQueue now => exact tunQueueTurns now item rfl
    | peerQueue relay direct clock seed => exact peerQueueTurns item rfl
    | wsQueue => exact wsQueueTurns item
    | stackQueue =>
      obtain ⟨payload,origin⟩ := item
      cases payload with
      | msg msg => exact .quiet (.refl c)
      | netStack data => exact .puts fun o member => List.mem_singleton.mp member ▸ asideStack
    | stackTask now =>
      obtain ⟨payload,origin⟩ := item
      cases payload with
      | msg msg => exact .quiet (.refl c)
      | netStack data => exact .quiet (inputStays now data)
    | _ => exact .nothing
  | none =>
    cases e with
    | device m buffer => exact tunResultTurns (c.tun.deviceIp m buffer)
    | output now inner => exact outputTurns now inner
    | tick ip clock => exact peersTurn _
    | discovery =>
      unfold handle
      dsimp only
      split
      · exact .puts fun o member => List.mem_singleton.mp member ▸ asideTold (by simp) (by simp)
      · exact .nothing
    | stunRequest =>
      unfold handle
      dsimp only
      split
      · intro c' outputs ok
        cases ok
        exact .aside ⟨rfl,rfl,rfl,rfl,rfl⟩ fun o member => List.mem_singleton.mp member ▸ asideOut (by simp)
      · exact .nothing
    | stunResponse buffer => exact pollStunTurns buffer
    | stunPeer ip clock => exact peersTurn _
    | datagram buffer address clock => exact pollTurns clock address buffer
    | frame m pingMessage now => exact frameTurns m pingMessage now rfl
    | ping payload => exact .puts fun o member => List.mem_singleton.mp member ▸ asideOut (by simp)
    | keepAlive pingMessage => exact .puts fun o member => List.mem_singleton.mp member ▸ asideOut (by simp)
    | _ => exact .nothing

theorem framesPut {s : State Core Module Item Sent} {outputs : List Out} :
    framesOf (s.putAll outputs).sent = framesOf s.sent ++ framesOf (outs outputs).reverse := by
  rw [putAllSent,framesOf,framesOf,framesOf,← List.filterMap_append,← List.reverse_append]

theorem framesAside {outputs : List Out} (each : ∀ o ∈ outputs, Aside c e o) : ∀ frame ∈ framesOf (outs outputs).reverse, ¬ LoginFrame frame := by
  intro frame member
  rw [framesOf,List.reverse_reverse,List.mem_filterMap] at member
  obtain ⟨sent,inside,same⟩ := member
  obtain ⟨output,put,out⟩ := List.mem_filterMap.mp inside
  cases output with
  | write queue item => contradiction
  | out x =>
    cases Option.some.inj out
    split at same
    · rename_i framed
      cases same
      exact each _ put frame framed
    · contradiction

variable {ip : IP4} {group : IP4 → Prop} {s t : State Core Module Item Sent}

theorem namedTells (dotted : ∀ q : IP4, env.ipAddress q.toString = some q) (a : Address) : Tells env a.host a.toCidr := by
  intro b
  have bound := Address.prefixBound a.mask
  obtain ⟨digits,value,_⟩ := decimalSpec ⟨a.mask.toPrefix,by omega⟩
  have filled : IP4.decimal a.mask.toPrefix ≠ [] := by simp [IP4.decimal,ascii]
  have named : Address.Named a.toCidr a.host a.mask.toPrefix := by
    refine ⟨IP4.decimal a.mask.toPrefix,?_,filled,digits,value,bound⟩
    rw [Address.toCidr,List.append_assoc]
    rfl
  obtain ⟨mask,parsed,_⟩ := Address.fromNamed dotted named
  exact ⟨mask,parsed⟩

theorem turnsStep (stepped : (client env).step s e t) : ∃ taken core outputs, Taken s (source e) taken ∧
    Turns env s.core e taken core outputs ∧ t.core = core ∧ framesOf t.sent = framesOf s.sent ++ framesOf (outs outputs).reverse := by
  obtain ⟨taken,queues,core,outputs,head,_,handled,rfl⟩ := stepSpec stepped
  exact ⟨taken,core,outputs,head,handleTurns s.core e taken core outputs handled,putAllCore,framesPut⟩

theorem queuedHead {queue : Option Module} {item : Item} (head : Taken s queue (some item)) : ∃ q, queue = some q := by
  cases queue with
  | none => contradiction
  | some q => exact ⟨q,rfl⟩

theorem asideAdmits {o : Out} (located : Located ip c) (aside : Aside c e o)
    (forwards : ∀ m pingMessage now, e = .frame m pingMessage now → byteAt m 0 = Kind.FORWARD →
      Forward.daddr m = ip ∨ group (Forward.daddr m)) : Admits env ip group o := by
  cases o with
  | out sent => trivial
  | write queue item =>
    obtain ⟨untold,entered⟩ := aside
    refine ⟨fun cidr same => absurd same (untold cidr),fun data here same => ?_⟩
    rcases entered data here same with ⟨m,pingMessage,now,event,forward,daddr⟩ | ⟨opened,daddr⟩
    · rw [daddr]; exact forwards m pingMessage now event forward
    · exact .inl (daddr.trans (located.key.resolve_left opened))

theorem Located.stays {c' : Core} (located : Located ip c) (stays : Stays c c') : Located ip c' := by
  refine ⟨?_,?_,?_,?_⟩
  · rw [stays.tun]; exact located.tun
  · rw [stays.address]; exact located.address
  · rw [stays.tunIp]; exact located.tunIp
  · rw [stays.key,stays.tunIp]; exact located.key

theorem Located.learns {c' : Core} (located : Located ip c) (learns : Learns ip c c') : Located ip c' := by
  refine ⟨?_,?_,?_,?_⟩
  · rcases learns.tun with same | here
    · rw [same]; exact located.tun
    · exact .inr here
  · rcases learns.address with same | here
    · rw [same]; exact located.address
    · exact .inr here
  · rcases learns.peer with ⟨_,same⟩ | here
    · rw [same]; exact located.tunIp
    · exact .inr here
  · rcases learns.peer with ⟨key,same⟩ | here
    · rw [key,same]; exact located.key
    · exact .inr here

structure Remains (env : Env) (ip : IP4) (group : IP4 → Prop) (s t : State Core Module Item Sent) : Prop where
  located : Allowed (Located ip) (Admits env ip group) t
  ws : t.core.ws = s.core.ws
  frames : ∃ more, framesOf t.sent = framesOf s.sent ++ more ∧ ∀ frame ∈ more, ¬ LoginFrame frame

theorem remainsStep (allowed : Allowed (Located ip) (Admits env ip group) s) (stepped : (client env).step s e t)
    (unasked : ∀ m pingMessage now, e = .frame m pingMessage now → byteAt m 0 ≠ Kind.EXPTTUN)
    (forwards : ∀ m pingMessage now, e = .frame m pingMessage now → byteAt m 0 = Kind.FORWARD →
      Forward.daddr m = ip ∨ group (Forward.daddr m)) : Remains env ip group s t := by
  have located := allowed.step stepped fun taken core outputs head given handled => by
    cases handleTurns s.core e taken core outputs handled with
    | aside stays each => exact ⟨allowed.core.stays stays,fun o member => asideAdmits allowed.core (each o member) forwards⟩
    | told here ws learns =>
      subst here
      obtain ⟨queue,source⟩ := queuedHead head
      exact ⟨allowed.core.learns (learns ip ((given queue _ source rfl).1 _ rfl)),by simp⟩
    | answered event kind => exact absurd kind (unasked _ _ _ event)
  obtain ⟨taken,core,outputs,_,turns,same,frames⟩ := turnsStep stepped
  cases turns with
  | aside stays each => exact ⟨located,by rw [same,stays.ws],_,frames,framesAside each⟩
  | told here ws learns => exact ⟨located,by rw [same,ws],_,frames,by simp [outs,framesOf]⟩
  | answered event kind => exact absurd kind (unasked _ _ _ event)

inductive Waits (env : Env) (group : IP4 → Prop) (s : State Core Module Item Sent) (e : Event) (t : State Core Module Item Sent) : Prop where
  | still (allowed : Allowed Unlocated Untold t) (ws : t.core.ws = s.core.ws)
      (frames : ∃ more, framesOf t.sent = framesOf s.sent ++ more ∧ ∀ frame ∈ more, ¬ LoginFrame frame) : Waits env group s e t
  | answered {m pingMessage now tunCidr a} (event : e = .frame m pingMessage now) (kind : byteAt m 0 = Kind.EXPTTUN)
      (ws : t.core.ws = {s.core.ws with tunCidr := tunCidr}) (named : WsClient.address env.ws tunCidr = some a)
      (located : Allowed (Located a.host) (Admits env a.host group) t)
      (frames : framesOf t.sent = framesOf s.sent ++ [WsClient.authFrame env.ws s.core.ws.password a.host now]) : Waits env group s e t

theorem Unlocated.located (unlocated : Unlocated c) : Located ip c :=
  ⟨.inl unlocated.tun,.inl unlocated.address,.inl unlocated.tunIp,.inl unlocated.key⟩

theorem untoldAdmits {o : Out} (untold : Untold o) : Admits env ip group o := by
  cases o with
  | out sent => trivial
  | write queue item => exact ⟨fun cidr same => absurd same (untold.1 cidr),fun data here same => absurd same (untold.2 data here)⟩

theorem toldAdmits {queue : Module} {origin : Origin} {cidr : Bytes} (tells : Tells env ip cidr) :
    Admits env ip group (put queue origin (.tunAddr cidr)) :=
  ⟨fun _ same => (by cases same; exact tells),fun _ _ same => (by cases same)⟩

theorem asideUntold {o : Out} (unlocated : Unlocated c) (aside : Aside c e o)
    (unforwarded : ∀ m pingMessage now, e = .frame m pingMessage now → byteAt m 0 ≠ Kind.FORWARD) : Untold o := by
  cases o with
  | out sent => trivial
  | write queue item =>
    obtain ⟨untold,entered⟩ := aside
    refine ⟨untold,fun data here same => ?_⟩
    rcases entered data here same with ⟨m,pingMessage,now,event,forward,_⟩ | ⟨opened,_⟩
    · exact unforwarded m pingMessage now event forward
    · exact opened unlocated.key

theorem waitsStep (dotted : ∀ q : IP4, env.ipAddress q.toString = some q) (allowed : Allowed Unlocated Untold s)
    (stepped : (client env).step s e t) (unforwarded : ∀ m pingMessage now, e = .frame m pingMessage now → byteAt m 0 ≠ Kind.FORWARD) :
    Waits env group s e t := by
  obtain ⟨taken,queues,core,outputs,head,fewer,handled,rfl⟩ := stepSpec stepped
  have untaken (cidr : Bytes) (origin : Origin) : taken ≠ some ⟨.msg (.tunAddr cidr),origin⟩ := by
    rintro rfl
    obtain ⟨queue,from_⟩ := queuedHead head
    rw [from_] at head
    obtain ⟨first,rest,queued,same⟩ := head
    cases same
    exact (allowed.queued queue _ (queued ▸ List.mem_cons_self ..)).1 cidr rfl
  have taking {inv : Core → Prop} (here : inv core) : Allowed inv Untold ⟨core,queues,s.sent⟩ :=
    ⟨here,fun queue m member => allowed.queued queue m (fewer queue m member),allowed.sent⟩
  cases handleTurns s.core e taken core outputs handled with
  | aside stays each =>
    have unlocated : Unlocated core := by
      refine ⟨?_,?_,?_,?_⟩
      · rw [stays.tun]; exact allowed.core.tun
      · rw [stays.address]; exact allowed.core.address
      · rw [stays.tunIp]; exact allowed.core.tunIp
      · rw [stays.key]; exact allowed.core.key
    have next := (taking unlocated).putAll fun o member => asideUntold allowed.core (each o member) unforwarded
    exact .still next (by rw [putAllCore,stays.ws]) ⟨_,framesPut,framesAside each⟩
  | told here => exact absurd here (untaken _ _)
  | @answered m pingMessage now tunCidr a event kind named =>
    have located : Located a.host {s.core with ws := {s.core.ws with tunCidr := tunCidr}} :=
      ⟨.inl allowed.core.tun,.inl allowed.core.address,.inl allowed.core.tunIp,.inl allowed.core.key⟩
    have tells := namedTells dotted a
    have before : Allowed (Located a.host) (Admits env a.host group) (⟨_,queues,s.sent⟩ : State Core Module Item Sent) :=
      (taking located).mono (fun here => here) fun _ => untoldAdmits
    have each : ∀ o ∈ [emit .server (.frame (WsClient.authFrame env.ws s.core.ws.password a.host now)),
        put .tun .server (.tunAddr a.toCidr),put .peer .server (.tunAddr a.toCidr),emit .server (.control pingMessage)],
        Admits env a.host group o := by
      intro o member
      simp only [List.mem_cons,List.not_mem_nil,or_false] at member
      rcases member with rfl | rfl | rfl | rfl
      · trivial
      · exact toldAdmits tells
      · exact toldAdmits tells
      · trivial
    exact .answered event kind (by rw [putAllCore]) named (before.putAll each) framesPut

inductive Starts (env : Env) (group : IP4 → Prop) (cfg : Config) (s : State Core Module Item Sent) : Prop where
  | named {a vmac auth} (ws : s.core.ws = cfg.core.ws) (named : WsClient.address env.ws cfg.tunCidr = some a)
      (located : Allowed (Located a.host) (Admits env a.host group) s) (frames : framesOf s.sent = [vmac,auth])
      (other : ¬ LoginFrame vmac) (kind : byteAt auth 0 = Kind.AUTH) (ip : Auth.ip auth = a.host) : Starts env group cfg s
  | asking {vmac request} (ws : s.core.ws = cfg.core.ws) (unnamed : cfg.tunCidr = [])
      (unlocated : Allowed Unlocated Untold s) (frames : framesOf s.sent = [vmac,request])
      (other : ¬ LoginFrame vmac) (kind : byteAt request 0 = Kind.EXPTTUN) : Starts env group cfg s

theorem vmacOther (cfg : Config) (now : BitVec 64) : ¬ LoginFrame (vmacFrame env cfg now) := by
  have long : VMac.hash ≤ (Kind.VMAC :: ((if cfg.vmac.length ≥ 16 then cfg.vmac.take 16 else List.replicate 16 0) ++
      timestampBytes now ++ List.replicate 32 0)).length := by
    simp only [VMac,List.length_cons,List.length_append,List.length_replicate]
    omega
  have kind : byteAt (vmacFrame env cfg now) 0 = Kind.VMAC := by
    rw [vmacFrame,updatedFirst (by decide) long]
    rfl
  rw [LoginFrame,kind]
  decide

theorem requestKind (cfg : Config) (cidr : Bytes) (now : BitVec 64) : byteAt (exptTunFrame env cfg cidr now) 0 = Kind.EXPTTUN := by
  have long : ExptTun.hash ≤ (Kind.EXPTTUN :: (timestampBytes now ++ (cidr ++ List.replicate (32 - cidr.length) 0) ++
      List.replicate 32 0)).length := by
    simp only [ExptTun,timestampBytes,List.length_cons,List.length_append,List.length_map,List.length_replicate]
    omega
  rw [exptTunFrame,updatedFirst (by decide) long]
  rfl

theorem authIp (env : WsClient.Env) (password : Bytes) (ip : IP4) (now : BitVec 64) :
    Auth.ip (WsClient.authFrame env password ip now) = ip := by
  have long : Auth.hash ≤ (Kind.AUTH :: (ip4Bytes ip ++ timestampBytes now ++ List.replicate 32 0)).length := by
    simp [Auth,ip4Bytes,timestampBytes]
  have kept (i : Nat) (before : i < Auth.hash) : byteAt (WsClient.authFrame env password ip now) i =
      byteAt (Kind.AUTH :: (ip4Bytes ip ++ timestampBytes now ++ List.replicate 32 0)) i := Server.byteBeforeField before long
  simp only [Auth.ip,ip4At,kept 1 (by decide),kept (1+1) (by decide),kept (1+2) (by decide),kept (1+3) (by decide)]
  rfl

theorem startStarts (dotted : ∀ q : IP4, env.ipAddress q.toString = some q) {cfg : Config} {pingMessage : Bytes} {now : BitVec 64}
    (begun : start env cfg pingMessage now = some s) : Starts env group cfg s := by
  obtain ⟨outputs,greeted,rfl⟩ := Option.map_eq_some_iff.mp begun
  have other : ¬ LoginFrame (vmacFrame env cfg now) := vmacOther cfg now
  unfold greeting at greeted
  dsimp only at greeted
  split at greeted
  · rename_i unnamed
    obtain ⟨a,_,same⟩ := Option.map_eq_some_iff.mp greeted
    subst same
    have empty : Allowed Unlocated Untold (⟨cfg.core,fun _ => [],[]⟩ : State Core Module Item Sent) :=
      ⟨⟨rfl,rfl,rfl,rfl⟩,by simp,by simp⟩
    refine .asking (by rw [putAllCore]) unnamed (empty.putAll fun o member => ?_) framesPut other (requestKind cfg a.toCidr now)
    simp only [List.mem_cons,List.not_mem_nil,or_false] at member
    rcases member with rfl | rfl
    · trivial
    · trivial
  · obtain ⟨sent,auth,same⟩ := Option.map_eq_some_iff.mp greeted
    obtain ⟨a,named,made⟩ := Option.map_eq_some_iff.mp auth
    subst made
    subst same
    have empty : Allowed (Located a.host) (Admits env a.host group) (⟨cfg.core,fun _ => [],[]⟩ : State Core Module Item Sent) :=
      ⟨⟨.inl rfl,.inl rfl,.inl rfl,.inl rfl⟩,by simp,by simp⟩
    have tells := namedTells dotted a
    refine .named (by rw [putAllCore]) named (empty.putAll fun o member => ?_) framesPut other (authFirst env.ws _ a.host now)
      (authIp env.ws _ a.host now)
    simp only [List.map_cons,List.map_nil,List.mem_cons,List.not_mem_nil,or_false] at member
    rcases member with rfl | rfl | rfl | rfl | rfl
    · trivial
    · trivial
    · exact toldAdmits tells
    · exact toldAdmits tells
    · trivial

end
end Candy.ClientQueues
