import Candy.ClientLogin
import Candy.ServerChecks
import Candy.Signalling

/-! What a client says to its server: every frame it ever sends has the size of its
format, a hash made with its own password, and as its source the address that the client
has, or none as long as the module that is asked for it has none. -/
namespace Candy.ClientQueues
open WsMsg CoreMsg DataPlane Modules
open Signalling (sourceOf frameOf frameSent)
open Server (signedOf)

/- The sizes that the server asks of the formats without a hash. -/
def plainSize (frame : Bytes) : Nat :=
  if byteAt frame 0 = Kind.FORWARD then Forward.size
  else if byteAt frame 0 = Kind.UDP4CONN then Conn.size
  else if byteAt frame 0 = Kind.DISCOVERY then Discovery.size
  else if byteAt frame 0 = Kind.GENERAL then General.size
  else 0

structure Presentable (env : Env) (password : Bytes) (ip : IP4) (frame : Bytes) : Prop where
  size : plainSize frame ≤ frame.length
  signed : ∀ l, signedOf frame = some l → l.size ≤ frame.length ∧ (l.check env.network.sha password frame).1 = true
  source : ∀ src, sourceOf frame = some src → src = ip ∨ src = IP4.zero

def Speakable (env : Env) (password : Bytes) (ip : IP4) : Out → Prop
  | .write .ws item => (∀ data, item.payload = .msg (.packet data) → 20 ≤ data.length) ∧
      ∀ info, item.payload = .msg (.pubInfo info) → info.src = ip ∨ info.src = IP4.zero
  | .write _ _ => True
  | .out sent => ∀ frame, sent.emission = .frame frame → Presentable env password ip frame

def Mute : Out → Prop
  | .write .ws _ => False
  | .write _ _ => True
  | .out sent => ∀ frame, sent.emission ≠ .frame frame

inductive Utters (env : Env) (c : Core) (e : Event) (taken : Option Item) : Out → Prop where
  | mute {o} (mute : Mute o) : Utters env c e taken o
  | info {info} (own : info.src = c.tun.ip) : Utters env c e taken (put .ws .own (.pubInfo info))
  | asked : Utters env c e taken (put .ws .own .discovery)
  | fallen {data origin} (long : 20 ≤ data.length) : Utters env c e taken (put .ws origin (.packet data))
  | forward {data origin} (event : e = .wsQueue) (head : taken = some ⟨.msg (.packet data),origin⟩) : Utters env c e taken (emit origin (.frame (Kind.FORWARD::data)))
  | published {info origin} (event : e = .wsQueue) (head : taken = some ⟨.msg (.pubInfo info),origin⟩) : Utters env c e taken (emit origin (.frame (frameOf info)))
  | discovery {a dst origin} (named : WsClient.address env.ws c.ws.tunCidr = some a) :
      Utters env c e taken (emit origin (.frame (WsClient.discoveryFrame a.host dst)))
  | login {ip now origin} : Utters env c e taken (emit origin (.frame (WsClient.authFrame env.ws c.ws.password ip now)))

def Uttering (env : Env) (c : Core) (e : Event) (taken : Option Item) (result : Option (Core × List Out)) : Prop :=
  ∀ c' outputs, result = some (c',outputs) → ∀ o ∈ outputs, Utters env c e taken o

section
variable {c : Core} {env : Env} {e : Event} {taken : Option Item}

theorem Uttering.nothing : Uttering env c e taken none := by
  intro c' outputs ok
  contradiction

theorem Uttering.some {c' : Core} {outputs : List Out} (each : ∀ o ∈ outputs, Utters env c e taken o) : Uttering env c e taken (some (c',outputs)) := by
  intro c'' outputs' ok
  cases ok
  exact each

theorem Uttering.quiet {c' : Core} : Uttering env c e taken (Option.some (c',[])) := .some (by simp)

theorem Uttering.one {c' : Core} {o : Out} (utters : Utters env c e taken o) : Uttering env c e taken (Option.some (c',[o])) := by
  refine .some fun x member => ?_
  exact List.mem_singleton.mp member ▸ utters

theorem mutes {α : Type} {f : α → Out} {l : List α} (each : ∀ x, Mute (f x)) : ∀ o ∈ l.map f, Utters env c e taken o := by
  intro o member
  obtain ⟨x,_,rfl⟩ := List.mem_map.mp member
  exact .mute (each x)

theorem muteEmit {origin : Origin} {emission : Emission} (other : ∀ frame, emission ≠ .frame frame) : Mute (emit origin emission) := other

theorem peersUtter (i : P2P.Input) : Uttering env c e taken (c.peers i) := by
  intro c' outputs ok
  obtain ⟨⟨peer,sent⟩,_,same⟩ := Option.map_eq_some_iff.mp ok
  cases same
  intro o member
  rcases List.mem_append.mp member with message | info
  · exact mutes (fun _ => muteEmit (by simp)) o message
  · obtain ⟨call,_,info⟩ := List.mem_filterMap.mp info
    cases call with
    | sendPubInfo dst nearby =>
      cases info
      refine .info ?_
      cases nearby <;> rfl
    | _ => contradiction

theorem tryP2PUtters (ip : Bytes) (clock : P2P.Clock) (seed : BitVec 32) : Uttering env c e taken (c.handleTryP2P env ip clock seed) := by
  unfold Core.handleTryP2P
  split
  · exact .quiet
  · exact peersUtter _

theorem packetLong {n : Network} {p : P2P.Client} {relay direct : Attempt} {data onward : Bytes} {sent : List Sealed}
    (ok : handlePacket n p relay direct data = some (sent,.ws onward)) : 20 ≤ onward.length := by
  have same := (packetSeals ok).2 onward rfl
  unfold handlePacket at ok
  split at ok
  · contradiction
  · rw [same.2]
    omega

theorem peerQueueUtters (relay direct : Attempt) (clock : P2P.Clock) (seed : BitVec 32) (item : Item) :
    Uttering env c e taken (c.handlePeerQueue env relay direct clock seed item) := by
  unfold Core.handlePeerQueue
  split
  · intro c' outputs ok
    obtain ⟨⟨sent,rest⟩,handled,ok⟩ := Option.bind_eq_some_iff.mp ok
    have sealed : ∀ o ∈ sent.map fun m => emit item.origin (.packet m), Utters env c e taken o := mutes fun _ => muteEmit (by simp)
    cases rest with
    | sent => cases ok; exact sealed
    | ws data =>
      cases ok
      intro o member
      rcases List.mem_append.mp member with packet | onward
      · exact sealed o packet
      · cases List.mem_singleton.mp onward
        exact .fallen (packetLong handled)
    | tryP2P peer =>
      obtain ⟨⟨c₁,more⟩,tried,same⟩ := Option.map_eq_some_iff.mp ok
      cases same
      intro o member
      exact (List.mem_append.mp member).elim (sealed o) (tryP2PUtters _ _ _ c₁ more tried o)
  · unfold Core.handlePeerTunAddr
    dsimp only
    split
    · exact .quiet
    · exact .quiet
    · exact .nothing
  · exact peersUtter _
  · exact tryP2PUtters _ _ _
  · exact peersUtter _
  · exact .quiet

theorem forwardMute (m : Bytes) : ∀ o ∈ c.handleForward m, Mute o := by
  unfold Core.handleForward
  cases handed : handleForwardMessage c.peer m with
  | none => simp
  | some out =>
    obtain ⟨queue,packet⟩ := out
    unfold handleForwardMessage at handed
    split at handed
    · contradiction
    dsimp only at handed
    split at handed
    · cases handed
      intro o member
      cases List.mem_singleton.mp member
      trivial
    · cases handed
      intro o member
      cases List.mem_singleton.mp member
      trivial

theorem datagramUtters (clock : P2P.Clock) (address : P2P.SocketAddress) (buffer : Bytes) :
    Uttering env c e taken (c.poll env clock address buffer) := by
  unfold Core.poll
  split
  · exact .quiet
  unfold Core.handleMessage
  split
  · exact .nothing
  split
  · split <;> [exact .quiet; exact peersUtter _]
  split
  · exact .some fun o member => .mute (forwardMute _ o member)
  split
  · split <;> [exact .quiet; exact peersUtter _]
  split
  · split <;> [exact .quiet; exact peersUtter _]
  · exact .quiet

theorem tunResultUtters {origin : Origin} {result : Tun × List Tun.Effect} : Uttering env c e taken (c.tunResult origin result) := by
  refine .some (mutes fun effect => ?_)
  cases effect with
  | write buffer => exact muteEmit (by simp)
  | peer data => trivial
  | netStack data => trivial

theorem tunQueueUtters (now : Int) (item : Item) : Uttering env c e taken (c.handleTunQueue env now item) := by
  unfold Core.handleTunQueue
  split
  · exact tunResultUtters
  · unfold Core.handleTunAddr
    split
    · exact .quiet
    · exact .quiet
    · exact .nothing
  · split
    · exact .nothing
    · exact .quiet
  · exact .quiet

theorem wsQueueUtters (item : Item) (event : e = .wsQueue) : Uttering env c e (some item) (c.handleWsQueue env item) := by
  obtain ⟨payload,origin⟩ := item
  cases payload with
  | netStack data => exact .quiet
  | msg msg =>
    intro c' outputs ok
    obtain ⟨sent,handled,same⟩ := Option.map_eq_some_iff.mp ok
    cases same
    intro o member
    obtain ⟨effect,inside,rfl⟩ := List.mem_map.mp member
    cases msg with
    | packet data =>
      cases handled
      cases List.mem_singleton.mp inside
      exact .forward event rfl
    | pubInfo info =>
      cases handled
      rw [frameSent] at inside
      cases List.mem_singleton.mp inside
      exact .published event rfl
    | discovery =>
      obtain ⟨a,named,same⟩ := Option.map_eq_some_iff.mp handled
      subst same
      cases List.mem_singleton.mp inside
      exact .discovery named
    | _ => cases handled; contradiction

theorem frameUtters (m pingMessage : Bytes) (now : BitVec 64) : Uttering env c e taken (c.handleFrame env m pingMessage now) := by
  intro c' outputs ok
  obtain ⟨ws,effects,handled,rfl,rfl⟩ := Core.frameHandled ok
  intro o member
  obtain ⟨effect,inside,rfl⟩ := List.mem_map.mp member
  have told {queue : Queue} {msg : Msg} (other : queue ≠ .ws) : Utters env c e taken (wsOut pingMessage .server (.write queue msg)) := by
    refine .mute ?_
    cases queue with
    | ws => exact absurd rfl other
    | tun => trivial
    | peer => trivial
  cases handled with
  | nothing => contradiction
  | forward =>
    rcases List.mem_cons.mp inside with rfl | inside
    · exact told (by simp)
    · split at inside
      · contradiction
      · cases List.mem_singleton.mp inside
        exact told (by simp)
  | exptTun =>
    simp only [List.mem_cons,List.not_mem_nil,or_false] at inside
    rcases inside with rfl | rfl | rfl | rfl
    · exact .login
    · exact told (by simp)
    · exact told (by simp)
    · exact .mute (muteEmit (by simp))
  | conn info => cases List.mem_singleton.mp inside; exact told (by simp)
  | discovered src => cases List.mem_singleton.mp inside; exact told (by simp)
  | discovery named =>
    simp only [List.mem_cons,List.not_mem_nil,or_false] at inside
    rcases inside with rfl | rfl
    · exact .discovery named
    · exact told (by simp)
  | routes =>
    obtain ⟨data,_,here⟩ := List.mem_flatMap.mp inside
    simp only [List.mem_cons,List.not_mem_nil,or_false] at here
    rcases here with rfl | rfl <;> exact told (by simp)

theorem handleUtters (c : Core) (e : Event) (taken : Option Item) : Uttering env c e taken (handle env c e taken) := by
  cases taken with
  | some item =>
    cases e with
    | tunQueue now => exact tunQueueUtters now item
    | peerQueue relay direct clock seed => exact peerQueueUtters relay direct clock seed item
    | wsQueue => exact wsQueueUtters item rfl
    | stackQueue =>
      obtain ⟨payload,origin⟩ := item
      cases payload with
      | msg msg => exact .quiet
      | netStack data => exact .one (.mute trivial)
    | stackTask now =>
      obtain ⟨payload,origin⟩ := item
      cases payload <;> exact .quiet
    | _ => exact .nothing
  | none =>
    cases e with
    | device m buffer => exact tunResultUtters
    | output now inner =>
      change Uttering env c (.output now inner) none (c.output now inner)
      unfold Core.output
      split
      · exact .quiet
      split
      · exact .quiet
      dsimp only
      split
      · exact .quiet
      · exact .one (.mute trivial)
    | tick ip clock => exact peersUtter _
    | discovery =>
      unfold handle
      dsimp only
      split <;> [exact .one .asked; exact .nothing]
    | stunRequest =>
      unfold handle
      dsimp only
      split <;> [exact .one (.mute (muteEmit (by simp))); exact .nothing]
    | stunResponse buffer =>
      unfold handle Core.pollStun
      dsimp only
      split
      · exact .quiet
      · exact .quiet
      · exact .nothing
    | stunPeer ip clock => exact peersUtter _
    | datagram buffer address clock => exact datagramUtters clock address buffer
    | frame m pingMessage now => exact frameUtters m pingMessage now
    | ping payload => exact .one (.mute (muteEmit (by simp)))
    | keepAlive pingMessage => exact .one (.mute (muteEmit (by simp)))
    | _ => exact .nothing

variable {password : Bytes} {ip jp : IP4} {frame : Bytes}

theorem Presentable.moved (presentable : Presentable env password ip frame) (either : jp = ip ∨ ip = IP4.zero) :
    Presentable env password jp frame where
  size := presentable.size
  signed := presentable.signed
  source src known := by
    rcases presentable.source src known with same | zero
    · rw [same]
      exact either.imp Eq.symm id
    · exact .inr zero

theorem speakableMoved {o : Out} (either : jp = ip ∨ ip = IP4.zero) (speakable : Speakable env password ip o) :
    Speakable env password jp o := by
  cases o with
  | out sent => exact fun frame same => (speakable frame same).moved either
  | write queue item =>
    cases queue with
    | ws =>
      refine ⟨speakable.1,fun info same => ?_⟩
      rcases speakable.2 info same with own | zero
      · rw [own]
        exact either.imp Eq.symm id
      · exact .inr zero
    | _ => trivial

theorem presentablePlain (size : plainSize frame ≤ frame.length) (unsigned : signedOf frame = none)
    (source : ∀ src, sourceOf frame = some src → src = ip ∨ src = IP4.zero) : Presentable env password ip frame where
  size := size
  signed l kind := by rw [unsigned] at kind; contradiction
  source := source

theorem presentableForward {data : Bytes} (long : 20 ≤ data.length) : Presentable env password ip (Kind.FORWARD::data) := by
  refine presentablePlain ?_ rfl fun src known => by contradiction
  have size : plainSize (Kind.FORWARD::data) = 21 := rfl
  rw [size,List.length_cons]
  omega

theorem presentableInfo {info : PubInfo} (own : info.src = ip ∨ info.src = IP4.zero) : Presentable env password ip (frameOf info) := by
  obtain ⟨src,dst,at_,port,nearby⟩ := info
  cases nearby with
  | false =>
    refine presentablePlain ?_ rfl fun src' known => ?_
    · simp [frameOf,WsClient.connFrame,plainSize,byteAt,Kind.UDP4CONN,Kind.FORWARD,Conn.size,ip4Bytes,WsClient.portBytes]
    · cases known
      exact own
  | true =>
    refine presentablePlain ?_ rfl fun src' known => ?_
    · simp [frameOf,WsClient.connLocalFrame,plainSize,byteAt,Kind.UDP4CONN,Kind.DISCOVERY,Kind.GENERAL,Kind.FORWARD,General.size,ip4Bytes,
        WsClient.portBytes]
    · cases known
      exact own

theorem presentableDiscovery (dst : IP4) : Presentable env password ip (WsClient.discoveryFrame ip dst) := by
  refine presentablePlain ?_ rfl fun src known => ?_
  · simp [WsClient.discoveryFrame,plainSize,byteAt,Kind.UDP4CONN,Kind.DISCOVERY,Kind.FORWARD,Discovery.size,ip4Bytes]
  · cases known
    exact .inl rfl

theorem presentableSigned {l : Signed} {m : Bytes} (kind : signedOf m = some l) (long : l.size ≤ m.length) :
    Presentable env password ip (l.updateHash env.network.sha password m) := by
  have laid := Server.signedLaid kind
  have room := laid.size
  have first : byteAt (l.updateHash env.network.sha password m) 0 = byteAt m 0 := updatedFirst laid.kind (by omega)
  have login : byteAt m 0 = Kind.AUTH ∨ byteAt m 0 = Kind.EXPTTUN ∨ byteAt m 0 = Kind.VMAC := by
    unfold signedOf at kind
    split at kind
    · rename_i here; exact .inl here
    split at kind
    · rename_i here; exact .inr (.inl here)
    split at kind
    · rename_i here; exact .inr (.inr here)
    · contradiction
  refine ⟨?_,fun l' kind' => ?_,fun src known => ?_⟩
  · rw [plainSize,first]
    rcases login with here | here | here <;> rw [here] <;> exact Nat.zero_le _
  · have again : signedOf (l.updateHash env.network.sha password m) = signedOf m := by rw [signedOf,first,signedOf]
    cases (again.trans kind).symm.trans kind'
    exact ⟨by rw [Signed.updatedLength laid long]; exact long,Signed.updatedPasses laid long⟩
  · rw [sourceOf,first] at known
    rcases login with here | here | here <;> rw [here] at known <;> contradiction

theorem presentableAuth (host : IP4) (now : BitVec 64) : Presentable env password ip (WsClient.authFrame env.ws password host now) :=
  @presentableSigned env password ip Auth _ rfl (by simp [Auth,ip4Bytes,timestampBytes])

theorem presentableVMac {cfg : Config} (now : BitVec 64) : Presentable env cfg.password ip (vmacFrame env cfg now) := by
  refine @presentableSigned env cfg.password ip VMac _ rfl ?_
  have whole : (if cfg.vmac.length ≥ 16 then cfg.vmac.take 16 else List.replicate 16 0).length = 16 := by
    split
    · rw [List.length_take]; omega
    · exact List.length_replicate
  simp only [VMac,timestampBytes,List.length_cons,List.length_append,List.length_map,List.length_replicate,whole]
  decide

theorem presentableExptTun {cfg : Config} (cidr : Bytes) (now : BitVec 64) :
    Presentable env cfg.password ip (exptTunFrame env cfg cidr now) := by
  refine @presentableSigned env cfg.password ip ExptTun _ rfl ?_
  simp only [ExptTun,timestampBytes,List.length_cons,List.length_append,List.length_map,List.length_replicate]
  omega

theorem Utters.speakable {o : Out} (utters : Utters env c e taken o) (tun : c.tun.ip = IP4.zero ∨ c.tun.ip = ip)
    (named : ∀ a, WsClient.address env.ws c.ws.tunCidr = some a → a.host = ip) (secret : c.ws.password = password)
    (given : ∀ item, e = .wsQueue → taken = some item → Speakable env password ip (.write .ws item)) :
    Speakable env password ip o := by
  cases utters with
  | mute mute =>
    cases o with
    | out sent => exact fun frame same => absurd same (mute frame)
    | write queue item =>
      cases queue with
      | ws => contradiction
      | _ => trivial
  | info own =>
    refine ⟨fun data same => (by cases same),fun info' same => ?_⟩
    cases same
    rw [own]
    exact tun.symm
  | asked => exact ⟨fun data same => (by cases same),fun info same => (by cases same)⟩
  | fallen long =>
    refine ⟨fun data' same => ?_,fun info same => (by cases same)⟩
    cases same
    exact long
  | forward event head =>
    intro frame same
    cases same
    exact presentableForward ((given _ event head).1 _ rfl)
  | published event head =>
    intro frame same
    cases same
    exact presentableInfo ((given _ event head).2 _ rfl)
  | discovery here =>
    intro frame same
    cases same
    exact named _ here ▸ presentableDiscovery _
  | login =>
    intro frame same
    cases same
    exact secret ▸ presentableAuth _ _

variable {s t : State Core Module Item Sent}

def Voice (env : Env) (password : Bytes) (ip : IP4) : State Core Module Item Sent → Prop :=
  Allowed (fun core => core.ws.password = password) (Speakable env password ip)

theorem passwordKept {c' : Core} {outputs : List Out} (turns : Turns env c e taken c' outputs) : c'.ws.password = c.ws.password := by
  cases turns with
  | aside stays => rw [stays.ws]
  | told head ws => rw [ws]
  | answered => rfl

theorem voiceStep (voice : Voice env password ip s) (stepped : (client env).step s e t)
    (tun : s.core.tun.ip = IP4.zero ∨ s.core.tun.ip = ip)
    (named : ∀ a, WsClient.address env.ws s.core.ws.tunCidr = some a → a.host = ip) : Voice env password ip t :=
  voice.step stepped fun taken core outputs _ given handled => by
    refine ⟨(passwordKept (handleTurns s.core e taken core outputs handled)).trans voice.core,fun o member => ?_⟩
    refine (handleUtters s.core e taken core outputs handled o member).speakable tun named voice.core fun item event head => ?_
    exact given .ws item (event ▸ rfl) head

theorem Voice.moved (voice : Voice env password ip s) (either : jp = ip ∨ ip = IP4.zero) : Voice env password jp s :=
  voice.mono id fun _ => speakableMoved either

theorem startVoice {cfg : Config} {pingMessage : Bytes} {now : BitVec 64} (begun : start env cfg pingMessage now = some s) :
    Voice env cfg.password ip s := by
  obtain ⟨outputs,greeted,rfl⟩ := Option.map_eq_some_iff.mp begun
  have empty : Voice env cfg.password ip ⟨cfg.core,fun _ => [],[]⟩ := ⟨rfl,fun _ _ member => (by contradiction),by simp⟩
  have vmac : Speakable env cfg.password ip (emit .own (.frame (vmacFrame env cfg now))) := by
    intro frame same
    cases same
    exact presentableVMac now
  have login (host : IP4) : Speakable env cfg.password ip (emit .own (.frame (WsClient.authFrame env.ws cfg.password host now))) := by
    intro frame same
    cases same
    exact presentableAuth host now
  refine empty.putAll fun o member => ?_
  unfold greeting at greeted
  dsimp only at greeted
  split at greeted
  · obtain ⟨a,_,same⟩ := Option.map_eq_some_iff.mp greeted
    subst same
    simp only [List.mem_cons,List.not_mem_nil,or_false] at member
    rcases member with rfl | rfl
    · exact vmac
    · intro frame same
      cases same
      exact presentableExptTun _ now
  · obtain ⟨sent,answer,same⟩ := Option.map_eq_some_iff.mp greeted
    obtain ⟨a,_,made⟩ := Option.map_eq_some_iff.mp answer
    subst same
    subst made
    simp only [List.map_cons,List.map_nil,List.mem_cons,List.not_mem_nil,or_false] at member
    rcases member with rfl | rfl | rfl | rfl | rfl
    · exact vmac
    · exact login a.host
    · trivial
    · trivial
    · intro frame same; contradiction

end
end Candy.ClientQueues
