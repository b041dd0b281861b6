import Candy.ClientOutputs

/-! Which packets a client hands on, over every run of it: in p2p-only mode nothing
through the server in either direction, as src/candy.cfg has it, and without relaying
what a peer forwards here for another client exactly when the run meets a condition. -/
namespace Candy.ClientQueues
open WsMsg CoreMsg DataPlane Modules Runs

structure Peerwise (o : Out) : Prop where
  ws : ∀ origin data, o ≠ put .ws origin (.packet data)
  tun : ∀ data, o ≠ put .tun .server (.packet data)
  frames : ∀ origin frame, o = emit origin (.frame frame) → byteAt frame 0 ≠ Kind.FORWARD

def P2POnly (c : Core) : Prop := c.ws.p2pOnly = true ∧ c.peer.p2pOnly = true

/- A packet that was forwarded here for another client leaves again. -/
def Relayed (x : Sent) : Prop := x.origin = .transit ∧
  ((∃ m, x.emission = .packet m) ∨ ∃ data, x.emission = .frame (Kind.FORWARD::data))

def Retained (s : State Core Module Item Sent) : Prop := ∀ x ∈ s.sent, ¬ Relayed x

def Unrelayed (c : Core) : Prop := c.peer.manager.routeCost = 0 ∧ c.peer.rtTableMap = ∅
def Retains (o : Out) : Prop := ∀ x, o = .out x → ¬ Relayed x

def transit (data : Bytes) : Item := ⟨.msg (.packet data),.transit⟩

/- No such packet is at the head of the peer queue when a datagram can go to the peer
it is for, nor at the head of the websocket queue, when that queue is served. -/
structure Passive (s : State Core Module Item Sent) (e : Event) : Prop where
  peer : ∀ relay direct clock seed data rest, e = .peerQueue relay direct clock seed → s.queues .peer = transit data::rest →
    ¬ Direct s.core.peer direct (ip4At data 16)
  ws : ∀ data rest, e = .wsQueue → s.queues .ws ≠ transit data::rest

section
variable {env : Env} {cfg : Config} {s t : State Core Module Item Sent} {e : Event}

theorem toldPeerwise {queue : Module} {origin : Origin} {msg : Msg} (other : ∀ data, msg ≠ .packet data) : Peerwise (put queue origin msg) where
  ws origin' data same := by cases same; exact other data rfl
  tun data same := by cases same; exact other data rfl
  frames _ _ same := by cases same

theorem framedPeerwise {frame : Bytes} {origin : Origin} (other : byteAt frame 0 ≠ Kind.FORWARD) : Peerwise (emit origin (.frame frame)) where
  ws _ _ same := by cases same
  tun _ same := by cases same
  frames _ _ same := by cases same; exact other

theorem peerwisePuts {c : Core} {taken : Option Item} {o : Out} (only : P2POnly c) (puts : Puts c e taken o)
    (given : ∀ queue item, source e = some queue → taken = some item → Peerwise (.write queue item)) : Peerwise o := by
  cases puts with
  | told other => exact toldPeerwise other
  | framed other => exact framedPeerwise other
  | served anyway => rw [only.1] at anyway; contradiction
  | fallen anyway => rw [only.2] at anyway; contradiction
  | uplinked event head =>
    subst event
    exact absurd rfl ((given .ws _ rfl head).ws _ _)
  | stacked => exact ⟨nofun,nofun,nofun⟩
  | entered => exact ⟨nofun,nofun,nofun⟩
  | delivered => exact ⟨nofun,nofun,nofun⟩
  | sealed => exact ⟨nofun,nofun,nofun⟩
  | aside plain =>
    refine ⟨nofun,nofun,fun origin frame same => ?_⟩
    cases same
    contradiction

theorem peerwiseGreets {o : Out} (greets : Greets o) : Peerwise o := by
  cases greets with
  | framed other => exact framedPeerwise other
  | told => exact toldPeerwise (by simp)
  | pinged => exact ⟨nofun,nofun,nofun⟩

theorem startAllowed {inv : Core → Prop} {ok : Out → Prop} {pingMessage : Bytes} {now : BitVec 64}
    (begun : start env cfg pingMessage now = some s) (core : inv cfg.core) (greets : ∀ o, Greets o → ok o) : Allowed inv ok s := by
  obtain ⟨outputs,greeting,rfl⟩ := Option.map_eq_some_iff.mp begun
  have empty : Allowed inv ok (⟨cfg.core,fun _ => [],[]⟩ : State Core Module Item Sent) := ⟨core,by simp,by simp⟩
  exact empty.putAll fun o member => greets o (greetingGreets greeting o member)

theorem serverUnused {pingMessage : Bytes} {now : BitVec 64} {events : List Event} (p2pOnly : cfg.p2pOnly = true)
    (begun : start env cfg pingMessage now = some s) (run : Run (client env).step s events t) :
    (∀ x ∈ t.sent, ∀ frame, x.emission = .frame frame → byteAt frame 0 ≠ Kind.FORWARD) ∧
    ∀ item ∈ t.queues .tun, ∀ data, item.payload = .msg (.packet data) → item.origin ≠ .server := by
  have allowed : Allowed P2POnly Peerwise t := by
    refine run.invariant (startAllowed begun ⟨p2pOnly,p2pOnly⟩ fun _ => peerwiseGreets) fun s e t allowed step => ?_
    refine allowed.step step fun taken core outputs _ given handled => ?_
    obtain ⟨kept,puts⟩ := handleDoes s.core e taken core outputs handled
    refine ⟨⟨kept.ws.trans allowed.core.1,kept.peer.trans allowed.core.2⟩,fun o member => ?_⟩
    exact peerwisePuts allowed.core (puts o member) given
  refine ⟨fun x member frame here => ?_,fun item member data here server => ?_⟩
  · obtain ⟨emission,origin⟩ := x
    cases here
    exact (allowed.sent _ member).frames origin frame rfl
  · obtain ⟨payload,origin⟩ := item
    cases here
    cases server
    exact (allowed.queued .tun _ member).tun data rfl

theorem retainsPuts {taken : Option Item} {o : Out} (unrelayed : Unrelayed s.core) (passive : Passive s e)
    (head : Taken s (source e) taken) (puts : Puts s.core e taken o) : Retains o := by
  rintro ⟨emission,origin⟩ same ⟨transit,relayed⟩
  cases transit
  cases puts with
  | sealed event here reached =>
    subst event
    obtain ⟨first,rest,queued,first'⟩ := head
    cases first'.symm.trans here
    cases same
    exact passive.peer _ _ _ _ _ rest rfl queued (reached unrelayed.2)
  | uplinked event here =>
    subst event
    obtain ⟨first,rest,queued,first'⟩ := head
    cases first'.symm.trans here
    cases same
    exact passive.ws _ rest rfl queued
  | framed other =>
    cases same
    rcases relayed with ⟨m,same⟩ | ⟨data,same⟩
    · cases same
    · cases same
      exact other rfl
  | aside plain =>
    cases same
    rcases relayed with ⟨m,same⟩ | ⟨data,same⟩
    · cases same; contradiction
    · cases same; contradiction
  | _ => cases same

theorem retainsGreets {o : Out} (greets : Greets o) : Retains o := by
  intro x same relayed
  have own : x.origin = .own := by cases greets <;> cases same <;> rfl
  rw [relayed.1] at own
  contradiction

theorem directSent {n : Network} {p : P2P.Client} {relay direct : Attempt} {data : Bytes} {sent : List Sealed} {rest : Rest}
    (empty : p.rtTableMap = ∅) (reached : Direct p direct (ip4At data 16))
    (ok : handlePacket n p relay direct data = some (sent,rest)) : ∃ m, m ∈ sent := by
  obtain ⟨peer,found,connected,real,iv,whole⟩ := reached
  obtain ⟨address,real⟩ := Option.isSome_iff_exists.mp real
  obtain ⟨iv,encrypted⟩ := Option.isSome_iff_exists.mp iv
  unfold handlePacket at ok
  split at ok <;> [contradiction; skip]
  obtain ⟨⟨done,through⟩,sending,ok⟩ := Option.bind_eq_some_iff.mp ok
  simp only [sendPacket,sendPacketRelay,empty,AList.lookup_empty,bind,Option.bind_some] at sending
  obtain ⟨⟨straight,more⟩,directly,last⟩ := Option.bind_eq_some_iff.mp sending
  cases last
  have some : ∃ m, m ∈ more := by
    simp only [sendPacketDirect,found,connected,if_true,sendEncrypted,encrypted,bind] at directly
    obtain ⟨result,sealing,directly⟩ := Option.bind_eq_some_iff.mp directly
    unfold encrypt at sealing
    dsimp only at sealing
    split at sealing
    · contradiction
    · cases sealing
      simp only [real,whole,if_true] at directly
      cases directly
      exact ⟨_,List.mem_singleton.mpr rfl⟩
  dsimp only at ok
  split at ok
  · cases ok; exact some
  · split at ok
    · cases ok; exact some
    · cases ok; exact some

theorem packetRelayed {c : Core} {relay direct : Attempt} {clock : P2P.Clock} {seed : BitVec 32} {data : Bytes} {core : Core}
    {outputs : List Out} (unrelayed : Unrelayed c) (reached : Direct c.peer direct (ip4At data 16))
    (ok : c.handlePeerPacket env relay direct clock seed data .transit = some (core,outputs)) :
    ∃ m, emit .transit (.packet m) ∈ outputs := by
  obtain ⟨⟨sent,rest⟩,handled,ok⟩ := Option.bind_eq_some_iff.mp ok
  obtain ⟨m,inside⟩ := directSent unrelayed.2 reached handled
  have here : emit .transit (.packet m) ∈ sent.map fun s => emit .transit (.packet s) := List.mem_map_of_mem inside
  refine ⟨m,?_⟩
  cases rest with
  | sent => cases ok; exact here
  | tryP2P peer =>
    obtain ⟨more,_,same⟩ := Option.map_eq_some_iff.mp ok
    cases same
    exact List.mem_append_left _ here
  | ws data => cases ok; exact List.mem_append_left _ here

theorem passiveStep (unrelayed : Unrelayed s.core) (step : (client env).step s e t) (retained : Retained t) : Passive s e := by
  obtain ⟨taken,queues,core,outputs,head,_,handled,rfl⟩ := stepSpec step
  have leaves {x : Sent} (out : .out x ∈ outputs) : ¬ Relayed x := retained x (sentPutAll.mpr (.inl out))
  constructor
  · rintro relay direct clock seed data rest rfl queued reached
    obtain ⟨first,more,queued',rfl⟩ := head
    cases queued.symm.trans queued'
    obtain ⟨m,sent⟩ := packetRelayed unrelayed reached handled
    exact leaves sent ⟨rfl,.inl ⟨m,rfl⟩⟩
  · rintro data rest rfl queued
    obtain ⟨first,more,queued',rfl⟩ := head
    cases queued.symm.trans queued'
    cases handled
    exact leaves (List.mem_singleton.mpr rfl) ⟨rfl,.inr ⟨data,rfl⟩⟩

theorem relayExact {pingMessage : Bytes} {now : BitVec 64} {events : List Event} (off : cfg.routeCost = 0)
    (begun : start env cfg pingMessage now = some s) :
    Run (Guarded (client env).step Passive) s events t ↔ Run (Keeping (client env).step Retained) s events t := by
  have initial : Allowed Unrelayed Retains s := startAllowed begun ⟨off,rfl⟩ fun _ => retainsGreets
  refine guardExact initial (fun s allowed x member => allowed.sent x member x rfl) ?_ ?_
  · intro s e t allowed passive step
    refine allowed.step step fun taken core outputs head _ handled => ?_
    obtain ⟨kept,puts⟩ := handleDoes s.core e taken core outputs handled
    refine ⟨⟨kept.routeCost.trans allowed.core.1,kept.unrelayed allowed.core.1 allowed.core.2⟩,fun o member => ?_⟩
    exact retainsPuts allowed.core passive head (puts o member)
  · intro s e t allowed active step retained
    exact active (passiveStep allowed.core step retained)

end

/- Client 3 with its address from the configuration, no relaying and no peers yet. -/
def own : IP4 := host 3
def ownText : Bytes := [49,48,46,48,46,48,46,51]
def otherText : Bytes := [49,48,46,48,46,48,46,50]

def env : Env := ⟨network,fun text => if text = ownText then some own else if text = otherText then some (host 2) else none⟩

def config (p2pOnly : Bool) : Config where
  password := []
  tunCidr := ownText ++ [47,50,52]
  exptTunCidr := []
  vmac := []
  p2pOnly := p2pOnly
  userspaceStack := false
  routeCost := 0
  stunEnabled := false
  scopes := ⟨fun _ => false,fun _ => false,fun _ => false⟩
  localhost := IP4.zero
  listenPort := 0

/- The packet of client 1 for client 2, forwarded here. -/
def handed : Bytes := sampleIv.bytes ++ [221,145,77,189,107,67,189,124,245,210,50,128,162,215,140,217] ++
  [161,104,242,96,27,211,113,101,111,71,245,206,27,235,29,25,43,53,201,112,225]

def idle : P2P.Clock := ⟨0,0,0⟩
def received : List Event :=
  [.peerQueue once once idle 0,.datagram handed ⟨.v4 ⟨8,8,8,1⟩,4000⟩ idle,.peerQueue once once idle 0]

def reached (p2pOnly : Bool) (events : List Event) : Option (State Core Module Item Sent) :=
  (start env (config p2pOnly) [] 0).bind fun s => execute (client env).handled s events

theorem reachedRun {p2pOnly : Bool} {events : List Event} {t : State Core Module Item Sent} (ok : reached p2pOnly events = some t) :
    ∃ s, start env (config p2pOnly) [] 0 = some s ∧ Run (client env).step s events t := by
  obtain ⟨s,begun,executed⟩ := Option.bind_eq_some_iff.mp ok
  exact ⟨s,begun,executeRun (fun _ _ _ taken => taken) executed⟩

theorem droppedPeerwise : ∃ t, reached true (received ++ [.frame (Kind.FORWARD::sample) [] 0]) = some t ∧
    (∀ x ∈ t.sent, ∀ frame, x.emission = .frame frame → byteAt frame 0 ≠ Kind.FORWARD) ∧
    ∀ item ∈ t.queues .tun, ∀ data, item.payload = .msg (.packet data) → item.origin ≠ .server := by
  have ends : (reached true (received ++ [.frame (Kind.FORWARD::sample) [] 0])).isSome := by decide +kernel
  obtain ⟨t,ok⟩ := Option.isSome_iff_exists.mp ends
  obtain ⟨s,begun,run⟩ := reachedRun ok
  exact ⟨t,ok,serverUnused rfl begun run⟩

/- A run before there is any peer and without serving the websocket queue. -/
def unreached (s : State Core Module Item Sent) : Event → Bool
  | .peerQueue .. => s.core.peer.ipPeerMap.entries.isEmpty
  | .wsQueue => false
  | _ => true

theorem unreachedPassive {s : State Core Module Item Sent} {e : Event} (unreached : unreached s e = true) : Passive s e := by
  constructor
  · rintro relay direct clock seed data rest rfl _ ⟨p,found,_⟩
    have empty : s.core.peer.ipPeerMap.entries = [] := List.isEmpty_iff.mp unreached
    have member := Table.lookupSome.mp found
    rw [empty] at member
    contradiction
  · rintro data rest rfl
    contradiction

theorem droppedRetained : ∃ s t, start env (config true) [] 0 = some s ∧ Run (Keeping (client env).step Retained) s received t := by
  have ends : ((start env (config true) [] 0).bind fun s =>
      execute (fun s e => if unreached s e = true then (client env).handled s e else none) s received).isSome := by decide +kernel
  obtain ⟨t,ok⟩ := Option.isSome_iff_exists.mp ends
  obtain ⟨s,begun,executed⟩ := Option.bind_eq_some_iff.mp ok
  have guarded : Run (Guarded (client env).step Passive) s received t :=
    executeGuarded (fun _ _ _ taken => taken) (fun _ _ => unreachedPassive) executed
  exact ⟨s,t,begun,(relayExact rfl begun).mp guarded⟩

theorem relayedAnyway : (config false).routeCost = 0 ∧ ∃ s t, start env (config false) [] 0 = some s ∧
    Run (client env).step s (received ++ [.wsQueue]) t ∧ ¬ Retained t := by
  have last : (reached false (received ++ [.wsQueue])).bind (fun t => t.sent.head?) =
      some ⟨.frame (Kind.FORWARD::sample),.transit⟩ := by decide +kernel
  obtain ⟨t,ok,newest⟩ := Option.bind_eq_some_iff.mp last
  obtain ⟨s,begun,run⟩ := reachedRun ok
  refine ⟨rfl,s,t,begun,run,fun retained => ?_⟩
  exact retained _ (List.mem_of_mem_head? newest) ⟨rfl,.inr ⟨sample,rfl⟩⟩

end Candy.ClientQueues
