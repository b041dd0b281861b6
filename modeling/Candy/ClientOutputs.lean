import Candy.ClientQueues

/-! What the handlers of a client can put out and what they leave as it is, said once
for every event: which messages into which queue, which datagrams and frames, and of
what they are made. -/
namespace Candy.ClientQueues
open WsMsg CoreMsg DataPlane Modules

def Direct (c : P2P.Client) (a : Attempt) (dst : IP4) : Prop := ∃ p, c.ipPeerMap.lookup dst = some p ∧
  p.isConnected.isSome ∧ p.real.isSome ∧ a.iv.isSome ∧ a.sent = true

def Emission.Aside : Emission → Prop
  | .control _ | .message _ | .stunRequest | .device _ => True
  | _ => False

inductive Puts (c : Core) (e : Event) (taken : Option Item) : Out → Prop where
  | told {queue msg origin} (other : ∀ data, msg ≠ .packet data) : Puts c e taken (put queue origin msg)
  | stacked {queue data origin} : Puts c e taken (.write queue ⟨.netStack data,origin⟩)
  | entered {origin data} : Puts c e taken (put .peer origin (.packet data))
  | delivered {data} : Puts c e taken (put .tun .peer (.packet data))
  | served {data} (anyway : c.ws.p2pOnly = false) : Puts c e taken (put .tun .server (.packet data))
  | fallen {data origin} (anyway : c.peer.p2pOnly = false) : Puts c e taken (put .ws origin (.packet data))
  | sealed {m data origin relay direct clock seed} (event : e = .peerQueue relay direct clock seed)
      (head : taken = some ⟨.msg (.packet data),origin⟩)
      (reached : c.peer.rtTableMap = ∅ → Direct c.peer direct (ip4At data 16)) : Puts c e taken (emit origin (.packet m))
  | uplinked {data origin} (event : e = .wsQueue) (head : taken = some ⟨.msg (.packet data),origin⟩) :
      Puts c e taken (emit origin (.frame (Kind.FORWARD::data)))
  | framed {frame origin} (other : byteAt frame 0 ≠ Kind.FORWARD) : Puts c e taken (emit origin (.frame frame))
  | aside {emission origin} (plain : emission.Aside) : Puts c e taken (emit origin emission)

structure Kept (c c' : Core) : Prop where
  ws : c'.ws.p2pOnly = c.ws.p2pOnly
  peer : c'.peer.p2pOnly = c.peer.p2pOnly
  routeCost : c'.peer.manager.routeCost = c.peer.manager.routeCost
  unrelayed : c.peer.manager.routeCost = 0 → c.peer.rtTableMap = ∅ → c'.peer.rtTableMap = ∅

theorem Kept.refl (c : Core) : Kept c c := ⟨rfl,rfl,rfl,fun _ empty => empty⟩

def Does (c : Core) (e : Event) (taken : Option Item) (result : Option (Core × List Out)) : Prop :=
  ∀ c' outputs, result = some (c',outputs) → Kept c c' ∧ ∀ o ∈ outputs, Puts c e taken o

section
variable {c : Core} {e : Event} {taken : Option Item} {env : Env}

theorem Does.nothing : Does c e taken none := by
  intro c' outputs ok
  contradiction

theorem Does.quiet {c' : Core} (kept : Kept c c') : Does c e taken (some (c',[])) := by
  intro c'' outputs ok
  cases ok
  exact ⟨kept,by simp⟩

theorem Does.puts {outputs : List Out} (each : ∀ o ∈ outputs, Puts c e taken o) : Does c e taken (some (c,outputs)) := by
  intro c' outputs' ok
  cases ok
  exact ⟨.refl c,each⟩

theorem clientKept {p p' : P2P.Client} {i : P2P.Input} {sent : List P2P.Datagram} (ok : p.handle i = some (p',sent)) :
    p'.p2pOnly = p.p2pOnly ∧ p'.manager.routeCost = p.manager.routeCost := by
  cases P2P.Client.handleStepped ok with
  | peer known heard nothing stepped => rw [stepped.kept]; exact ⟨rfl,rfl⟩
  | quiet tunIp routeCost nothing silent => exact ⟨rfl,routeCost⟩
  | offered brought same updated => rw [(P2P.Client.updateClient updated).1]; exact ⟨rfl,rfl⟩

theorem clientUnrelayed {p p' : P2P.Client} {i : P2P.Input} {sent : List P2P.Datagram} (off : p.manager.routeCost = 0)
    (empty : p.rtTableMap = ∅) (ok : p.handle i = some (p',sent)) : p'.rtTableMap = ∅ := by
  have disabled : p.manager.clientRelayEnabled = false := by simp [P2P.Manager.clientRelayEnabled,off]
  cases P2P.Client.handleStepped ok with
  | peer known heard nothing stepped =>
    rcases stepped.routes with ⟨same,_⟩ | same
    · rw [same,empty]
    · rw [same,empty]; rfl
  | quiet => exact empty
  | offered brought => rw [P2P.Client.unlooked disabled brought ok,empty]

theorem peersDo (i : P2P.Input) : Does c e taken (c.peers i) := by
  intro c' outputs ok
  obtain ⟨⟨peer,sent⟩,handled,same⟩ := Option.map_eq_some_iff.mp ok
  cases same
  refine ⟨⟨rfl,(clientKept handled).1,(clientKept handled).2,fun off empty => clientUnrelayed off empty handled⟩,fun o member => ?_⟩
  rcases List.mem_append.mp member with message | info
  · obtain ⟨d,_,same⟩ := List.mem_map.mp message
    exact same ▸ .aside trivial
  · obtain ⟨call,_,info⟩ := List.mem_filterMap.mp info
    cases call with
    | sendPubInfo dst nearby => cases info; exact .told (by simp)
    | _ => contradiction

theorem tryP2PDoes (ip : Bytes) (clock : P2P.Clock) (seed : BitVec 32) : Does c e taken (c.handleTryP2P env ip clock seed) := by
  unfold Core.handleTryP2P
  split
  · exact .quiet (.refl c)
  · exact peersDo _

theorem directSeals {n : Network} {p : P2P.Client} {a : Attempt} {dst : IP4} {data : Bytes} {done : Bool} {sent : List Sealed}
    (ok : sendPacketDirect n p a dst data = some (done,sent)) : ∀ m ∈ sent, Direct p a dst := by
  unfold sendPacketDirect at ok
  split at ok
  · rename_i peer found
    split at ok
    · rename_i connected
      intro m member
      obtain ⟨real,left,iv,whole,_⟩ := encryptedSpec ok member
      exact ⟨peer,found,connected,real,by rw [whole]; rfl,left⟩
    · cases ok; simp
  · cases ok; simp

theorem packetSeals {n : Network} {p : P2P.Client} {relay direct : Attempt} {data : Bytes} {sent : List Sealed} {rest : Rest}
    (ok : handlePacket n p relay direct data = some (sent,rest)) :
    (∀ m ∈ sent, p.rtTableMap = ∅ → Direct p direct (ip4At data 16)) ∧ (∀ onward, rest = .ws onward → p.p2pOnly = false ∧ onward = data) := by
  unfold handlePacket at ok
  split at ok <;> [contradiction; skip]
  obtain ⟨⟨done,through⟩,sending,ok⟩ := Option.bind_eq_some_iff.mp ok
  have sealed : ∀ m ∈ through, p.rtTableMap = ∅ → Direct p direct (ip4At data 16) := by
    intro m member empty
    simp only [sendPacket,sendPacketRelay,empty,AList.lookup_empty,bind,Option.bind_some] at sending
    obtain ⟨⟨direct,more⟩,straight,last⟩ := Option.bind_eq_some_iff.mp sending
    cases last
    exact directSeals straight m member
  dsimp only at ok
  split at ok
  · cases ok
    exact ⟨sealed,by simp⟩
  · split at ok
    · cases ok
      exact ⟨sealed,by simp⟩
    · rename_i anyway
      cases ok
      refine ⟨sealed,fun onward same => ?_⟩
      cases same
      exact ⟨by simpa using anyway,rfl⟩

theorem peerPacketDoes {relay direct : Attempt} {clock : P2P.Clock} {seed : BitVec 32} {data : Bytes} {origin : Origin}
    (event : e = .peerQueue relay direct clock seed) (head : taken = some ⟨.msg (.packet data),origin⟩) :
    Does c e taken (c.handlePeerPacket env relay direct clock seed data origin) := by
  intro c' outputs ok
  obtain ⟨⟨sent,rest⟩,handled,ok⟩ := Option.bind_eq_some_iff.mp ok
  obtain ⟨seals,onward⟩ := packetSeals handled
  have sealed : ∀ o ∈ sent.map fun m => emit origin (.packet m), Puts c e taken o := by
    intro o member
    obtain ⟨m,inside,same⟩ := List.mem_map.mp member
    exact same ▸ .sealed event head (seals m inside)
  cases rest with
  | sent => cases ok; exact ⟨.refl c,sealed⟩
  | tryP2P peer =>
    obtain ⟨⟨c₁,more⟩,tried,same⟩ := Option.map_eq_some_iff.mp ok
    cases same
    obtain ⟨kept,each⟩ := tryP2PDoes peer.toString clock seed c₁ more tried
    exact ⟨kept,fun o member => (List.mem_append.mp member).elim (sealed o) (each o)⟩
  | ws data =>
    cases ok
    refine ⟨.refl c,fun o member => ?_⟩
    rcases List.mem_append.mp member with member | member
    · exact sealed o member
    · cases List.mem_singleton.mp member
      exact .fallen (onward data rfl).1

theorem peerTunAddrDoes (cidr : Bytes) : Does c e taken (c.handlePeerTunAddr env cidr) := by
  unfold Core.handlePeerTunAddr
  split
  · exact .quiet ⟨rfl,rfl,rfl,fun _ empty => empty⟩
  · exact .quiet ⟨rfl,rfl,rfl,fun _ empty => empty⟩
  · exact .nothing

theorem peerQueueDoes {relay direct : Attempt} {clock : P2P.Clock} {seed : BitVec 32} (item : Item)
    (event : e = .peerQueue relay direct clock seed) (head : taken = some item) :
    Does c e taken (c.handlePeerQueue env relay direct clock seed item) := by
  obtain ⟨payload,origin⟩ := item
  cases payload with
  | netStack data => exact .quiet (.refl c)
  | msg msg => cases msg with
    | packet data => exact peerPacketDoes event head
    | tunAddr cidr => exact peerTunAddrDoes cidr
    | sysRt data => exact peersDo ⟨.sysrt,clock,seed⟩
    | tryP2P ip => exact tryP2PDoes ip clock seed
    | pubInfo info => exact peersDo ⟨.pubInfo info,clock,seed⟩
    | discovery => exact .quiet (.refl c)

theorem forwardDoes (m : Bytes) : Does c e taken (some (c,c.handleForward m)) := by
  refine .puts fun o member => ?_
  unfold Core.handleForward at member
  cases handed : handleForwardMessage c.peer m with
  | none => rw [handed] at member; contradiction
  | some out =>
    obtain ⟨queue,packet⟩ := out
    rw [handed] at member
    cases queue with
    | tun => cases List.mem_singleton.mp member; exact .delivered
    | peer => cases List.mem_singleton.mp member; exact .entered
    | ws =>
      unfold handleForwardMessage at handed
      split at handed
      · contradiction
      dsimp only at handed
      split at handed <;> cases handed

theorem messageDoes (clock : P2P.Clock) (address : P2P.SocketAddress) (m : Bytes) : Does c e taken (c.handleMessage clock address m) := by
  cases m with
  | nil => exact .nothing
  | cons kind rest =>
    have quiet : Does c e taken (some (c,[])) := .quiet (.refl c)
    unfold Core.handleMessage
    dsimp only
    split
    · split
      · exact quiet
      · exact peersDo _
    split
    · exact forwardDoes _
    split
    · split
      · exact quiet
      · exact peersDo _
    split
    · split
      · exact quiet
      · exact peersDo _
    · exact quiet

theorem pollDoes (clock : P2P.Clock) (address : P2P.SocketAddress) (buffer : Bytes) : Does c e taken (c.poll env clock address buffer) := by
  unfold Core.poll
  split
  · exact .quiet (.refl c)
  · exact messageDoes clock address _

theorem pollStunDoes (buffer : Bytes) : Does c e taken (c.pollStun buffer) := by
  unfold Core.pollStun
  split
  · exact .quiet (.refl c)
  · exact .quiet ⟨rfl,rfl,rfl,fun _ empty => empty⟩
  · exact .nothing

theorem tunAddrDoes (cidr : Bytes) : Does c e taken (c.handleTunAddr env cidr) := by
  unfold Core.handleTunAddr
  split
  · exact .quiet ⟨rfl,rfl,rfl,fun _ empty => empty⟩
  · exact .quiet (.refl c)
  · exact .nothing

theorem tunResultDoes {origin : Origin} {result : Tun × List Tun.Effect} : Does c e taken (c.tunResult origin result) := by
  intro c' outputs ok
  cases ok
  refine ⟨⟨rfl,rfl,rfl,fun _ empty => empty⟩,fun o member => ?_⟩
  obtain ⟨effect,_,same⟩ := List.mem_map.mp member
  subst same
  cases effect with
  | write buffer => exact .aside trivial
  | peer data => exact .entered
  | netStack data => exact .stacked

theorem tunQueueDoes (now : Int) (item : Item) : Does c e taken (c.handleTunQueue env now item) := by
  obtain ⟨payload,origin⟩ := item
  have quiet : Does c e taken (some (c,[])) := .quiet (.refl c)
  cases payload with
  | netStack data => exact quiet
  | msg msg => cases msg with
    | packet data => exact tunResultDoes
    | tunAddr cidr => exact tunAddrDoes cidr
    | sysRt data =>
      unfold Core.handleTunQueue
      dsimp only
      split
      · exact .nothing
      · exact .quiet ⟨rfl,rfl,rfl,fun _ empty => empty⟩
    | tryP2P ip => exact quiet
    | pubInfo info => exact quiet
    | discovery => exact quiet

theorem updatedFirst {l : Signed} {sha : Digest} {password m : Bytes} (behind : 0 < l.hash) (inside : l.hash ≤ m.length) :
    byteAt (l.updateHash sha password m) 0 = byteAt m 0 := Server.byteBeforeField behind inside

theorem authFirst (env : WsClient.Env) (password : Bytes) (ip : IP4) (now : BitVec 64) :
    byteAt (WsClient.authFrame env password ip now) 0 = Kind.AUTH := by
  unfold WsClient.authFrame
  rw [updatedFirst (by decide) (by simp [Auth,ip4Bytes,timestampBytes])]
  rfl

theorem wsQueueDoes (item : Item) (event : e = .wsQueue) (head : taken = some item) : Does c e taken (c.handleWsQueue env item) := by
  obtain ⟨payload,origin⟩ := item
  cases payload with
  | netStack data => exact .quiet (.refl c)
  | msg msg =>
    intro c' outputs ok
    obtain ⟨sent,handled,same⟩ := Option.map_eq_some_iff.mp ok
    cases same
    refine ⟨.refl c,fun o member => ?_⟩
    obtain ⟨effect,inside,same⟩ := List.mem_map.mp member
    subst same
    cases msg with
    | packet data =>
      cases handled
      cases List.mem_singleton.mp inside
      exact .uplinked event head
    | pubInfo info =>
      cases handled
      unfold WsClient.handlePubInfo at inside
      split at inside
      · cases List.mem_singleton.mp inside; exact .framed (show Kind.GENERAL ≠ Kind.FORWARD by decide)
      · cases List.mem_singleton.mp inside; exact .framed (show Kind.UDP4CONN ≠ Kind.FORWARD by decide)
    | discovery =>
      obtain ⟨a,_,same⟩ := Option.map_eq_some_iff.mp handled
      subst same
      cases List.mem_singleton.mp inside
      exact .framed (show Kind.DISCOVERY ≠ Kind.FORWARD by decide)
    | _ => cases handled; contradiction

theorem frameDoes (m pingMessage : Bytes) (now : BitVec 64) : Does c e taken (c.handleFrame env m pingMessage now) := by
  intro c' outputs ok
  obtain ⟨ws,effects,handled,rfl,rfl⟩ := Core.frameHandled ok
  have puts (each : ∀ effect ∈ effects, Puts c e taken (wsOut pingMessage .server effect)) :
      ∀ o ∈ effects.map (wsOut pingMessage .server), Puts c e taken o := by
    intro o member
    obtain ⟨effect,inside,same⟩ := List.mem_map.mp member
    exact same ▸ each effect inside
  have same : ws.p2pOnly = c.ws.p2pOnly → Kept c {c with ws := ws} := fun ws => ⟨ws,rfl,rfl,fun _ empty => empty⟩
  cases handled with
  | nothing => exact ⟨same rfl,by simp⟩
  | forward =>
    refine ⟨same rfl,puts fun effect inside => ?_⟩
    rcases List.mem_cons.mp inside with rfl | inside
    · exact .told (by simp)
    · split at inside
      · contradiction
      · rename_i anyway
        cases List.mem_singleton.mp inside
        exact .served (by simpa using anyway)
  | exptTun =>
    refine ⟨same rfl,puts fun effect inside => ?_⟩
    simp only [List.mem_cons,List.not_mem_nil,or_false] at inside
    rcases inside with rfl | rfl | rfl | rfl
    · exact .framed (by rw [authFirst]; decide)
    · exact .told (by simp)
    · exact .told (by simp)
    · exact .aside trivial
  | conn info =>
    refine ⟨same rfl,puts fun effect inside => ?_⟩
    cases List.mem_singleton.mp inside
    exact .told (by simp)
  | discovered src =>
    refine ⟨same rfl,puts fun effect inside => ?_⟩
    cases List.mem_singleton.mp inside
    exact .told (by simp)
  | discovery =>
    refine ⟨same rfl,puts fun effect inside => ?_⟩
    simp only [List.mem_cons,List.not_mem_nil,or_false] at inside
    rcases inside with rfl | rfl
    · exact .framed (show Kind.DISCOVERY ≠ Kind.FORWARD by decide)
    · exact .told (by simp)
  | routes =>
    refine ⟨same rfl,puts fun effect inside => ?_⟩
    obtain ⟨data,_,here⟩ := List.mem_flatMap.mp inside
    simp only [List.mem_cons,List.not_mem_nil,or_false] at here
    rcases here with rfl | rfl
    · exact .told (by simp)
    · exact .told (by simp)

theorem outputDoes (now : Int) (inner : Bytes) : Does c e taken (c.output now inner) := by
  intro c' outputs ok
  unfold Core.output at ok
  split at ok
  · cases ok; exact ⟨.refl c,by simp⟩
  split at ok
  · cases ok; exact ⟨.refl c,by simp⟩
  dsimp only at ok
  split at ok
  · cases ok; exact ⟨⟨rfl,rfl,rfl,fun _ empty => empty⟩,by simp⟩
  · cases ok
    refine ⟨⟨rfl,rfl,rfl,fun _ empty => empty⟩,fun o member => ?_⟩
    cases List.mem_singleton.mp member
    exact .entered

theorem inputKept (now : Int) (packet : Bytes) : Kept c (c.handleInput now packet) := by
  have feed (inner : Bytes) (vnetPeer : IP4) : Kept c (c.feedToLwip now inner vnetPeer) := by
    unfold Core.feedToLwip
    split
    · exact .refl c
    · exact ⟨rfl,rfl,rfl,fun _ empty => empty⟩
  have accept (inner : Bytes) (vnetPeer : IP4) : Kept c (if inner.length < IP4Header.size then c
      else if IP4Header.protocol inner ≠ 0x06 ∧ IP4Header.protocol inner ≠ 0x11 then c else c.feedToLwip now inner vnetPeer) := by
    split
    · exact .refl c
    split
    · exact .refl c
    · exact feed inner vnetPeer
  unfold Core.handleInput
  split
  · exact .refl c
  · exact accept _ _

theorem handleDoes (c : Core) (e : Event) (taken : Option Item) : Does c e taken (handle env c e taken) := by
  cases taken with
  | some item =>
    cases e with
    | tunQueue now => exact tunQueueDoes now item
    | peerQueue relay direct clock seed => exact peerQueueDoes item rfl rfl
    | wsQueue => exact wsQueueDoes item rfl rfl
    | stackQueue =>
      obtain ⟨payload,origin⟩ := item
      cases payload with
      | msg msg => exact .quiet (.refl c)
      | netStack data => exact .puts fun o member => List.mem_singleton.mp member ▸ .stacked
    | stackTask now =>
      obtain ⟨payload,origin⟩ := item
      cases payload with
      | msg msg => exact .quiet (.refl c)
      | netStack data => exact .quiet (inputKept now data)
    | _ => exact .nothing
  | none =>
    cases e with
    | device m buffer => exact tunResultDoes
    | output now inner => exact outputDoes now inner
    | tick ip clock => exact peersDo _
    | discovery =>
      unfold handle
      dsimp only
      split
      · exact .puts fun o member => List.mem_singleton.mp member ▸ .told (by simp)
      · exact .nothing
    | stunRequest =>
      unfold handle
      dsimp only
      split
      · intro c' outputs ok
        cases ok
        exact ⟨⟨rfl,rfl,rfl,fun _ empty => empty⟩,fun o member => List.mem_singleton.mp member ▸ .aside trivial⟩
      · exact .nothing
    | stunResponse buffer => exact pollStunDoes buffer
    | stunPeer ip clock => exact peersDo _
    | datagram buffer address clock => exact pollDoes clock address buffer
    | frame m pingMessage now => exact frameDoes m pingMessage now
    | ping payload => exact .puts fun o member => List.mem_singleton.mp member ▸ .aside trivial
    | keepAlive pingMessage => exact .puts fun o member => List.mem_singleton.mp member ▸ .aside trivial
    | _ => exact .nothing

inductive Greets : Out → Prop where
  | framed {frame} (other : byteAt frame 0 ≠ Kind.FORWARD) : Greets (emit .own (.frame frame))
  | told {queue cidr} : Greets (put queue .own (.tunAddr cidr))
  | pinged {payload} : Greets (emit .own (.control payload))

theorem greetingGreets {cfg : Config} {pingMessage : Bytes} {now : BitVec 64} {outputs : List Out}
    (begun : greeting env cfg pingMessage now = some outputs) : ∀ o ∈ outputs, Greets o := by
  have vmac : Greets (emit .own (.frame (vmacFrame env cfg now))) := by
    refine .framed ?_
    have long : VMac.hash ≤ (Kind.VMAC :: ((if cfg.vmac.length ≥ 16 then cfg.vmac.take 16 else List.replicate 16 0) ++
        timestampBytes now ++ List.replicate 32 0)).length := by
      simp only [VMac,List.length_cons,List.length_append,List.length_replicate]
      omega
    rw [vmacFrame,updatedFirst (by decide) long]
    exact show Kind.VMAC ≠ Kind.FORWARD by decide
  unfold greeting at begun
  dsimp only at begun
  split at begun
  · obtain ⟨a,_,same⟩ := Option.map_eq_some_iff.mp begun
    have exptTun : Greets (emit .own (.frame (exptTunFrame env cfg a.toCidr now))) := by
      refine .framed ?_
      have long : ExptTun.hash ≤ (Kind.EXPTTUN :: (timestampBytes now ++ (a.toCidr ++ List.replicate (32 - a.toCidr.length) 0) ++
          List.replicate 32 0)).length := by
        simp only [ExptTun,timestampBytes,List.length_cons,List.length_append,List.length_map,List.length_replicate]
        omega
      rw [exptTunFrame,updatedFirst (by decide) long]
      exact show Kind.EXPTTUN ≠ Kind.FORWARD by decide
    subst same
    intro o member
    simp only [List.mem_cons,List.not_mem_nil,or_false] at member
    rcases member with rfl | rfl
    · exact vmac
    · exact exptTun
  · obtain ⟨sent,auth,same⟩ := Option.map_eq_some_iff.mp begun
    obtain ⟨a,_,made⟩ := Option.map_eq_some_iff.mp auth
    subst made
    subst same
    intro o member
    simp only [List.map_cons,List.map_nil,List.mem_cons,List.not_mem_nil,or_false] at member
    rcases member with rfl | rfl | rfl | rfl | rfl
    · exact vmac
    · exact .framed (by rw [authFirst]; decide)
    · exact .told
    · exact .told
    · exact .pinged

end
end Candy.ClientQueues
