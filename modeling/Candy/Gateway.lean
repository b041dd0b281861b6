import Candy.ClientLogin
import Candy.ClientTraffic

/-! The way back through a client that terminates traffic in its userspace stack,
src/netstack/netstack.cc: which gateway a packet of lwIP is given to. Every packet
that comes in through a gateway says where its source is reached, the last one wins,
and what one says is good for 180 seconds at least, however many sources there are. -/
namespace Candy.ClientQueues
open WsMsg CoreMsg DataPlane Modules Runs

/- A packet given to lwIP: its source, the gateway that sent it, and when. -/
structure Fed where
  source : IP4
  peer : IP4
  time : Int
  deriving DecidableEq, Repr

/- handleInput, as far as the table is concerned. -/
def feeds (now : Int) (packet : Bytes) : Option Fed :=
  let inner := packet.drop IP4Header.size
  if packet.length < IP4Header.size * 2 then none
  else if ¬ IP4Header.isIPIP packet then none
  else if IP4Header.protocol inner ≠ 0x06 ∧ IP4Header.protocol inner ≠ 0x11 then none
  else if (IP4Header.saddr packet).empty then none
  else some ⟨IP4Header.saddr inner,IP4Header.saddr packet,now⟩

/- The newest packets first. -/
def lastFed (fed : List Fed) (source : IP4) : Option Fed := fed.find? fun f => f.source = source

structure Remembers (fed : List Fed) (clock : Int) (map : Table IP4 PeerEntry) : Prop where
  held : ∀ d e, map.lookup d = some e → ∃ f, lastFed fed d = some f ∧ e.peer = f.peer ∧ f.time ≤ e.lastSeen
  lost : ∀ d f, lastFed fed d = some f → map.lookup d = none → clock - f.time > Core.vnetIdle
  given : ∀ f ∈ fed, f.peer.empty = false ∧ f.time ≤ clock

section
variable {c : Core} {env : Env} {fed : List Fed} {clock now : Int}

theorem inputMap (c : Core) (now : Int) (packet : Bytes) : (c.handleInput now packet).vnetPeerMap = match feeds now packet with
    | none => c.vnetPeerMap
    | some f => (c.feedToLwip now (packet.drop IP4Header.size) f.peer).vnetPeerMap := by
  have unnamed (inner : Bytes) (peer : IP4) (empty : peer.empty = true) : c.feedToLwip now inner peer = c := by
    unfold Core.feedToLwip
    rw [if_pos empty]
  unfold Core.handleInput feeds
  dsimp only
  by_cases ipip : IP4Header.isIPIP packet
  · rw [if_pos ipip,if_pos ipip,if_neg (not_not_intro ipip),List.length_drop]
    by_cases short : packet.length < IP4Header.size * 2
    · rw [if_pos short,if_pos (by omega : packet.length - IP4Header.size < IP4Header.size),ite_self]
    · rw [if_neg short,if_neg (by omega : ¬ packet.length - IP4Header.size < IP4Header.size),
        if_neg (by omega : ¬ packet.length < IP4Header.size)]
      by_cases other : IP4Header.protocol (packet.drop IP4Header.size) ≠ 0x06 ∧ IP4Header.protocol (packet.drop IP4Header.size) ≠ 0x11
      · rw [if_pos other,if_pos other]
      · rw [if_neg other,if_neg other]
        by_cases nameless : (IP4Header.saddr packet).empty = true
        · rw [if_pos nameless,unnamed _ _ nameless]
        · rw [if_neg nameless]
  · rw [if_neg ipip,if_neg ipip,if_pos ipip,unnamed _ _ rfl,ite_self,ite_self,ite_self,ite_self]

theorem feedsPeer {packet : Bytes} {f : Fed} (fed : feeds now packet = some f) :
    f = ⟨IP4Header.saddr (packet.drop IP4Header.size),IP4Header.saddr packet,now⟩ ∧ f.peer.empty = false := by
  unfold feeds at fed
  dsimp only at fed
  split at fed
  · contradiction
  split at fed
  · contradiction
  split at fed
  · contradiction
  split at fed
  · contradiction
  rename_i named
  cases fed
  exact ⟨rfl,Bool.eq_false_of_not_eq_true named⟩

theorem lastFedCons (f : Fed) (fed : List Fed) (d : IP4) :
    lastFed (f::fed) d = if d = f.source then some f else lastFed fed d := by
  unfold lastFed
  rw [List.find?_cons]
  by_cases same : d = f.source
  · simp [same]
  · have other : f.source ≠ d := Ne.symm same
    simp [same,other]

theorem Remembers.feed (remembers : Remembers fed clock c.vnetPeerMap) (later : clock ≤ now) {packet : Bytes} {f : Fed}
    (feeding : feeds now packet = some f) :
    Remembers (f::fed) now (c.feedToLwip now (packet.drop IP4Header.size) f.peer).vnetPeerMap := by
  obtain ⟨shape,named⟩ := feedsPeer feeding
  have source : IP4Header.saddr (packet.drop IP4Header.size) = f.source := by rw [shape]
  have time : f.time = now := by rw [shape]
  have inserted : Remembers (f::fed) now (c.vnetPeerMap.insert f.source ⟨f.peer,now⟩) := by
    constructor
    case held =>
      intro d e found
      rw [Table.lookupInsert] at found
      rw [lastFedCons]
      split at found
      · rename_i same
        cases found
        exact ⟨f,if_pos same,rfl,Int.le_of_eq time⟩
      · rename_i other
        rw [if_neg other]
        exact remembers.held d e found
    case lost =>
      intro d g last absent
      rw [Table.lookupInsert] at absent
      rw [lastFedCons] at last
      split at absent
      · contradiction
      · rename_i other
        rw [if_neg other] at last
        have before := remembers.lost d g last absent
        omega
    case given =>
      intro g member
      rcases List.mem_cons.mp member with rfl | old
      · exact ⟨named,Int.le_of_eq time⟩
      · exact ⟨(remembers.given g old).1,(remembers.given g old).2.trans later⟩
  unfold Core.feedToLwip
  rw [if_neg (ne_true_of_eq_false named),source]
  dsimp only
  split
  · constructor
    case held =>
      intro d e found
      exact inserted.held d e (Table.keepSome.mp found).1
    case lost =>
      intro d g last absent
      let map : Table IP4 PeerEntry := c.vnetPeerMap.insert f.source ⟨f.peer,now⟩
      cases found : map.lookup d with
      | none => exact inserted.lost d g last found
      | some e =>
        obtain ⟨g',last',_,seen⟩ := inserted.held d e found
        cases last.symm.trans last'
        rw [Table.lookupKeep,found,Option.filter_eq_none_iff] at absent
        have idle := absent e rfl
        simp only [Bool.not_eq_true',decide_eq_false_iff_not,not_not] at idle
        omega
    case given => exact inserted.given
  · exact inserted

theorem Remembers.later (remembers : Remembers fed clock c.vnetPeerMap) (later : clock ≤ now) :
    Remembers fed now c.vnetPeerMap :=
  ⟨remembers.held,fun d f last absent => lt_of_lt_of_le (remembers.lost d f last absent) (by omega),
    fun f member => ⟨(remembers.given f member).1,(remembers.given f member).2.trans later⟩⟩

theorem Remembers.output (remembers : Remembers fed clock c.vnetPeerMap) (later : clock ≤ now) {inner : Bytes} {core : Core}
    {outputs : List Out} (ok : c.output now inner = some (core,outputs)) : Remembers fed now core.vnetPeerMap ∧
    ((∃ f, lastFed fed (IP4Header.daddr inner) = some f ∧ outputs = [put .peer .stack (.packet (c.tun.encapsulate f.peer inner))]) ∨
      outputs = [] ∧ ∀ f, IP4Header.size ≤ inner.length → lastFed fed (IP4Header.daddr inner) = some f → now - f.time > Core.vnetIdle) := by
  have kept := remembers.later later
  unfold Core.output at ok
  split at ok
  · rename_i short
    cases ok
    exact ⟨kept,.inr ⟨rfl,fun f long => absurd short (Nat.not_lt.mpr long)⟩⟩
  · split at ok
    · rename_i absent
      cases ok
      exact ⟨kept,.inr ⟨rfl,fun f _ last => kept.lost _ f last absent⟩⟩
    · rename_i e found
      obtain ⟨f,last,peer,seen⟩ := kept.held _ e found
      obtain ⟨named,heard⟩ := remembers.given f (List.mem_of_find?_eq_some last)
      rw [← peer] at named
      have touched : Remembers fed now (c.vnetPeerMap.insert (IP4Header.daddr inner) {e with lastSeen := now}) := by
        constructor
        case held =>
          intro d e' there
          rw [Table.lookupInsert] at there
          split at there
          · rename_i same
            cases there
            exact ⟨f,same ▸ last,peer,heard.trans later⟩
          · exact kept.held d e' there
        case lost =>
          intro d g there absent
          rw [Table.lookupInsert] at absent
          split at absent
          · contradiction
          · exact kept.lost d g there absent
        case given => exact kept.given
      dsimp only at ok
      rw [if_neg (ne_true_of_eq_false named)] at ok
      cases ok
      exact ⟨touched,.inl ⟨f,last,by rw [peer]⟩⟩

def Passes (c : Core) (result : Option (Core × List Out)) : Prop :=
  ∀ c' outputs, result = some (c',outputs) → c'.vnetPeerMap = c.vnetPeerMap

theorem nothingPasses : Passes c none := by
  intro c' outputs ok
  contradiction

theorem somePasses {c' : Core} {outputs : List Out} (same : c'.vnetPeerMap = c.vnetPeerMap) : Passes c (some (c',outputs)) := by
  intro c'' outputs' ok
  cases ok
  exact same

theorem mapPasses {α : Type} {f : α → Core × List Out} {result : Option α} (same : ∀ a, (f a).1.vnetPeerMap = c.vnetPeerMap) :
    Passes c (result.map f) := by
  intro c' outputs ok
  obtain ⟨a,_,equal⟩ := Option.map_eq_some_iff.mp ok
  have here := same a
  rw [equal] at here
  exact here

theorem peersPass (i : P2P.Input) : Passes c (c.peers i) := mapPasses fun _ => rfl

theorem tryP2PPasses (ip : Bytes) (clock : P2P.Clock) (seed : BitVec 32) : Passes c (c.handleTryP2P env ip clock seed) := by
  unfold Core.handleTryP2P
  split
  · exact somePasses rfl
  · exact peersPass _

theorem peerQueuePasses (relay direct : Attempt) (clock : P2P.Clock) (seed : BitVec 32) (item : Item) :
    Passes c (c.handlePeerQueue env relay direct clock seed item) := by
  unfold Core.handlePeerQueue
  split
  · unfold Core.handlePeerPacket
    intro c' outputs ok
    obtain ⟨⟨sent,rest⟩,_,next⟩ := Option.bind_eq_some_iff.mp ok
    cases rest with
    | sent => cases next; rfl
    | ws data => cases next; rfl
    | tryP2P peer =>
      obtain ⟨⟨core,more⟩,tried,same⟩ := Option.map_eq_some_iff.mp next
      cases same
      exact tryP2PPasses _ _ _ core more tried
  · unfold Core.handlePeerTunAddr
    dsimp only
    split
    · exact somePasses rfl
    · exact somePasses rfl
    · exact nothingPasses
  · exact peersPass _
  · exact tryP2PPasses _ _ _
  · exact peersPass _
  · exact somePasses rfl

theorem tunQueuePasses (item : Item) : Passes c (c.handleTunQueue env now item) := by
  unfold Core.handleTunQueue
  split
  · exact somePasses rfl
  · unfold Core.handleTunAddr
    split
    · exact somePasses rfl
    · exact somePasses rfl
    · exact nothingPasses
  · split
    · exact nothingPasses
    · exact somePasses rfl
  · exact somePasses rfl

theorem datagramPasses (clock : P2P.Clock) (address : P2P.SocketAddress) (buffer : Bytes) :
    Passes c (c.poll env clock address buffer) := by
  unfold Core.poll
  split
  · exact somePasses rfl
  unfold Core.handleMessage
  split
  · exact nothingPasses
  split
  · split <;> [exact somePasses rfl; exact peersPass _]
  split
  · exact somePasses rfl
  split
  · split <;> [exact somePasses rfl; exact peersPass _]
  split
  · split <;> [exact somePasses rfl; exact peersPass _]
  · exact somePasses rfl

theorem handlePasses {e : Event} (notTask : ∀ now, e ≠ .stackTask now) (notOutput : ∀ now inner, e ≠ .output now inner)
    (taken : Option Item) : Passes c (handle env c e taken) := by
  cases taken with
  | some item =>
    cases e with
    | tunQueue now => exact tunQueuePasses item
    | peerQueue relay direct clock seed => exact peerQueuePasses relay direct clock seed item
    | wsQueue =>
      obtain ⟨payload,origin⟩ := item
      cases payload with
      | msg msg => exact mapPasses fun _ => rfl
      | netStack data => exact somePasses rfl
    | stackQueue =>
      obtain ⟨payload,origin⟩ := item
      cases payload with
      | msg msg => exact somePasses rfl
      | netStack data => exact somePasses rfl
    | stackTask now => exact absurd rfl (notTask now)
    | _ => exact nothingPasses
  | none =>
    cases e with
    | device m buffer => exact somePasses rfl
    | output now inner => exact absurd rfl (notOutput now inner)
    | tick ip clock => exact peersPass _
    | discovery =>
      unfold handle
      dsimp only
      split <;> [exact somePasses rfl; exact nothingPasses]
    | stunRequest =>
      unfold handle
      dsimp only
      split <;> [exact somePasses rfl; exact nothingPasses]
    | stunResponse buffer =>
      unfold handle Core.pollStun
      dsimp only
      split
      · exact somePasses rfl
      · exact somePasses rfl
      · exact nothingPasses
    | stunPeer ip clock => exact peersPass _
    | datagram buffer address clock => exact datagramPasses clock address buffer
    | frame m pingMessage now =>
      unfold handle Core.handleFrame
      dsimp only
      split
      · exact nothingPasses
      · exact mapPasses fun _ => rfl
    | ping payload => exact somePasses rfl
    | keepAlive pingMessage => exact somePasses rfl
    | _ => exact nothingPasses

end

/- A run of a client together with what its stack has been given, on a clock that does
not go back. -/
structure Traced where
  state : State Core Module Item Sent
  fed : List Fed
  clock : Int

def timed : Event → Option Int
  | .stackTask now => some now
  | .output now _ => some now
  | _ => none

def given (s : State Core Module Item Sent) : Event → Option Fed
  | .stackTask now => match s.queues .stackTasks with
    | ⟨.netStack data,_⟩::_ => feeds now data
    | _ => none
  | _ => none

def traced (env : Env) (s : Traced) (e : Event) : Option Traced :=
  if (timed e).all (s.clock ≤ ·) then
    ((client env).handled s.state e).map fun t => ⟨t,(given s.state e).toList ++ s.fed,(timed e).getD s.clock⟩
  else none

def tracedStep (env : Env) (s : Traced) (e : Event) (t : Traced) : Prop := traced env s e = some t

section
variable {env : Env} {s t : Traced} {e : Event}

theorem tracedSpec (step : tracedStep env s e t) : (client env).step s.state e t.state ∧
    (∀ now, timed e = some now → s.clock ≤ now) ∧ t.clock = (timed e).getD s.clock ∧ t.fed = (given s.state e).toList ++ s.fed := by
  unfold tracedStep traced at step
  split at step
  · rename_i later
    obtain ⟨state,stepped,rfl⟩ := Option.map_eq_some_iff.mp step
    refine ⟨stepped,fun now time => ?_,rfl,rfl⟩
    simpa [time] using later
  · contradiction

theorem remembersStep (remembers : Remembers s.fed s.clock s.state.core.vnetPeerMap) (step : tracedStep env s e t) :
    Remembers t.fed t.clock t.state.core.vnetPeerMap := by
  obtain ⟨stepped,later,clock,fed⟩ := tracedSpec step
  obtain ⟨taken,queues,core,outputs,head,_,handled,same⟩ := stepSpec stepped
  have reached : t.state.core = core := by rw [same]; exact putAllCore
  rw [reached,clock,fed]
  by_cases notTask : ∀ now, e ≠ .stackTask now
  · have nothing : given s.state e = none := by
      unfold given
      split
      · rename_i now
        exact absurd rfl (notTask now)
      · rfl
    rw [nothing]
    by_cases notOutput : ∀ now inner, e ≠ .output now inner
    · have untimed : timed e = none := by
        unfold timed
        split
        · rename_i now
          exact absurd rfl (notTask now)
        · rename_i now inner
          exact absurd rfl (notOutput now inner)
        · rfl
      rw [untimed,handlePasses notTask notOutput taken core outputs handled]
      exact remembers
    · push Not at notOutput
      obtain ⟨now,inner,rfl⟩ := notOutput
      have none : taken = none := head
      subst none
      exact (remembers.output (later now rfl) handled).1
  · push Not at notTask
    obtain ⟨now,rfl⟩ := notTask
    obtain ⟨item,rest,queued,rfl⟩ := head
    obtain ⟨payload,origin⟩ := item
    simp only [given,queued]
    cases payload with
    | msg msg =>
      cases handled
      exact remembers.later (later now rfl)
    | netStack data =>
      cases handled
      rw [inputMap]
      dsimp only
      cases fed : feeds now data with
      | none => exact remembers.later (later now rfl)
      | some f => exact remembers.feed (later now rfl) fed

theorem startRemembers (clock : Int) : Remembers [] clock (∅ : Table IP4 PeerEntry) where
  held d e found := by simp at found
  lost d f last := by contradiction
  given f member := by contradiction

theorem remembersRun {cfg : Config} {pingMessage : Bytes} {boot : BitVec 64} {s0 : State Core Module Item Sent} {clock : Int}
    (begun : start env cfg pingMessage boot = some s0) {events : List Event} (run : Run (tracedStep env) ⟨s0,[],clock⟩ events s) :
    Remembers s.fed s.clock s.state.core.vnetPeerMap := by
  obtain ⟨outputs,_,rfl⟩ := Option.map_eq_some_iff.mp begun
  refine @Run.invariant _ _ _ _ (fun s => Remembers s.fed s.clock s.state.core.vnetPeerMap) ?_ (fun _ _ _ => remembersStep) _ _ run
  have core : (State.putAll ⟨cfg.core,fun _ => [],[]⟩ outputs).core = cfg.core := putAllCore
  rw [core]
  exact startRemembers clock

theorem repliesReturn {cfg : Config} {pingMessage : Bytes} {boot : BitVec 64} {s0 : State Core Module Item Sent} {clock : Int}
    (begun : start env cfg pingMessage boot = some s0) {events : List Event} (run : Run (tracedStep env) ⟨s0,[],clock⟩ events s)
    {now : Int} (later : s.clock ≤ now) {inner : Bytes} {core : Core} {outputs : List Out}
    (ok : s.state.core.output now inner = some (core,outputs)) :
    (∀ o ∈ outputs, ∃ f, lastFed s.fed (IP4Header.daddr inner) = some f ∧
      o = put .peer .stack (.packet (s.state.core.tun.encapsulate f.peer inner))) ∧
    ∀ f, IP4Header.size ≤ inner.length → lastFed s.fed (IP4Header.daddr inner) = some f → now - f.time ≤ Core.vnetIdle →
      outputs = [put .peer .stack (.packet (s.state.core.tun.encapsulate f.peer inner))] := by
  rcases ((remembersRun begun run).output later ok).2 with ⟨f,last,rfl⟩ | ⟨rfl,idle⟩
  · refine ⟨fun o member => ⟨f,last,List.mem_singleton.mp member⟩,fun g _ last' _ => ?_⟩
    cases last.symm.trans last'
    rfl
  · refine ⟨fun o member => absurd member List.not_mem_nil,fun f long last fresh => ?_⟩
    have old := idle f long last
    omega

end

/- Client 3 in userspace mode, and a packet that client 1 wraps for it. -/
def landing : Config := {config false with userspaceStack := true}
def question : Bytes := [0x45,0,0,24,0,0,0,0,64,6,0,0,192,168,1,2,192,168,2,3,0x9c,0x40,0,80]
def reply : Bytes := [0x45,0,0,24,0,0,0,0,64,6,0,0,192,168,2,3,192,168,1,2,0,80,0x9c,0x40]
def wrapped : Bytes := (Tun.host 1).encapsulate own question

def landed : List Event :=
  [.tunQueue 0,.frame (Kind.FORWARD::wrapped) [] 0,.tunQueue (Tun.seconds 6),.stackQueue,.stackTask (Tun.seconds 7)]

def landedAt : Option Traced := (start env landing [] 0).bind fun s => execute (traced env) ⟨s,[],0⟩ landed

theorem replyReturns : ∃ s, (∃ s0, start env landing [] 0 = some s0 ∧ Run (tracedStep env) ⟨s0,[],0⟩ landed s) ∧
    ∃ core, s.state.core.output (Tun.seconds 187) reply =
      some (core,[put .peer .stack (.packet (s.state.core.tun.encapsulate ⟨10,0,0,1⟩ reply))]) := by
  have outcome : landedAt.map (fun s => (s.clock,lastFed s.fed (IP4Header.daddr reply),(s.state.core.output (Tun.seconds 187) reply).isSome)) =
      some (Tun.seconds 7,some ⟨⟨192,168,1,2⟩,⟨10,0,0,1⟩,Tun.seconds 7⟩,true) := by decide +kernel
  obtain ⟨s,ok,same⟩ := Option.map_eq_some_iff.mp outcome
  simp only [Prod.mk.injEq] at same
  obtain ⟨clock,last,some⟩ := same
  obtain ⟨s0,begun,executed⟩ := Option.bind_eq_some_iff.mp ok
  have run : Run (tracedStep env) ⟨s0,[],0⟩ landed s := executeRun (fun _ _ _ taken => taken) executed
  obtain ⟨⟨core,outputs⟩,sent⟩ := Option.isSome_iff_exists.mp some
  have later : s.clock ≤ Tun.seconds 187 := clock ▸ (by decide)
  have answered := (repliesReturn begun run later sent).2 _ (by decide) last (by decide)
  exact ⟨s,⟨s0,begun,run⟩,core,answered ▸ sent⟩

end Candy.ClientQueues
