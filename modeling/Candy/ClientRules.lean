import Candy.ClientLogin
import Candy.RoutePush

/-! The SD-WAN rules of a client on their way through it. A ROUTE frame puts its entries
into the queue of the Tun module, which appends them to its table in that order, without
those that lead to the client itself; nothing else touches the table, and the address
that decides is there before the first rule. -/
namespace Candy.ClientQueues
open WsMsg CoreMsg DataPlane Modules

def ruled (item : Item) : Option SysRouteEntry := match item.payload with
  | .msg (.sysRt data) => some (RoutePush.readEntry data)
  | _ => none

def rulesIn (items : List Item) : List SysRouteEntry := items.filterMap ruled

def framed (m : Bytes) : List SysRouteEntry :=
  if byteAt m 0 = Kind.ROUTE then ((WsClient.handleRouteMsg m).map RoutePush.received).getD [] else []

def brought : Event → List SysRouteEntry
  | .frame m _ _ => framed m
  | _ => []

def heard : Event → Option Item → List SysRouteEntry
  | .tunQueue _,some item => (ruled item).toList
  | _,_ => []

def Unruled : Out → Prop
  | .write .tun item => ruled item = none
  | _ => True

def Untouched (c : Core) (result : Option (Core × List Out)) : Prop := ∀ c' outputs, result = some (c',outputs) →
  c'.tun.sysRtTable = c.tun.sysRtTable ∧ ∀ o ∈ outputs, Unruled o

structure Rules (c : Core) (e : Event) (taken : Option Item) (c' : Core) (outputs : List Out) : Prop where
  table : c'.tun.sysRtTable = c.tun.sysRtTable ++ (heard e taken).filter (fun rt => rt.nexthop ≠ c.tun.ip)
  told : rulesIn (into .tun outputs) = brought e

section
variable {c : Core} {env : Env} {e : Event} {taken : Option Item}

theorem Untouched.nothing : Untouched c none := by
  intro c' outputs ok
  contradiction

theorem Untouched.some {c' : Core} {outputs : List Out} (table : c'.tun.sysRtTable = c.tun.sysRtTable)
    (each : ∀ o ∈ outputs, Unruled o) : Untouched c (some (c',outputs)) := by
  intro c'' outputs' ok
  cases ok
  exact ⟨table,each⟩

theorem Untouched.quiet : Untouched c (Option.some (c,[])) := .some rfl (by simp)

theorem unruledMap {α : Type} {f : α → Out} {l : List α} (each : ∀ x, Unruled (f x)) : ∀ o ∈ l.map f, Unruled o := by
  intro o member
  obtain ⟨x,_,rfl⟩ := List.mem_map.mp member
  exact each x

theorem unruledOne {o : Out} (unruled : Unruled o) : ∀ x ∈ [o], Unruled x := by
  intro x member
  exact List.mem_singleton.mp member ▸ unruled

theorem unruledAppend {front rest : List Out} (left : ∀ o ∈ front, Unruled o) (right : ∀ o ∈ rest, Unruled o) :
    ∀ o ∈ front ++ rest, Unruled o := by
  intro o member
  exact (List.mem_append.mp member).elim (left o) (right o)

theorem rulesNone {outputs : List Out} (each : ∀ o ∈ outputs, Unruled o) : rulesIn (into .tun outputs) = [] := by
  refine List.filterMap_eq_nil_iff.mpr fun item member => ?_
  obtain ⟨o,inside,same⟩ := List.mem_filterMap.mp member
  cases o with
  | out sent => contradiction
  | write queue msg =>
    dsimp only at same
    split at same
    · rename_i here
      cases same
      subst here
      exact each _ inside
    · contradiction

theorem peersUntouched (i : P2P.Input) : Untouched c (c.peers i) := by
  intro c' outputs ok
  obtain ⟨⟨peer,sent⟩,_,same⟩ := Option.map_eq_some_iff.mp ok
  cases same
  refine ⟨rfl,unruledAppend (unruledMap fun _ => trivial) fun o member => ?_⟩
  obtain ⟨call,_,info⟩ := List.mem_filterMap.mp member
  cases call with
  | sendPubInfo dst nearby => cases info; trivial
  | _ => contradiction

theorem tryP2PUntouched (ip : Bytes) (clock : P2P.Clock) (seed : BitVec 32) : Untouched c (c.handleTryP2P env ip clock seed) := by
  unfold Core.handleTryP2P
  split
  · exact .quiet
  · exact peersUntouched _

theorem peerPacketUntouched {relay direct : Attempt} {clock : P2P.Clock} {seed : BitVec 32} {data : Bytes} {origin : Origin} :
    Untouched c (c.handlePeerPacket env relay direct clock seed data origin) := by
  intro c' outputs ok
  obtain ⟨⟨sent,rest⟩,_,ok⟩ := Option.bind_eq_some_iff.mp ok
  have sealed : ∀ o ∈ sent.map fun m => emit origin (.packet m), Unruled o := unruledMap fun _ => trivial
  cases rest with
  | sent => cases ok; exact ⟨rfl,sealed⟩
  | ws data => cases ok; exact ⟨rfl,unruledAppend sealed (unruledOne trivial)⟩
  | tryP2P peer =>
    obtain ⟨⟨c₁,more⟩,tried,same⟩ := Option.map_eq_some_iff.mp ok
    cases same
    obtain ⟨table,each⟩ := tryP2PUntouched _ _ _ c₁ more tried
    exact ⟨table,unruledAppend sealed each⟩

theorem peerQueueUntouched (relay direct : Attempt) (clock : P2P.Clock) (seed : BitVec 32) (item : Item) :
    Untouched c (c.handlePeerQueue env relay direct clock seed item) := by
  unfold Core.handlePeerQueue
  split
  · exact peerPacketUntouched
  · unfold Core.handlePeerTunAddr
    dsimp only
    split
    · exact .some rfl (by simp)
    · exact .some rfl (by simp)
    · exact .nothing
  · exact peersUntouched _
  · exact tryP2PUntouched _ _ _
  · exact peersUntouched _
  · exact .quiet

theorem forwardUntouched (m : Bytes) : Untouched c (some (c,c.handleForward m)) := by
  refine .some rfl ?_
  unfold Core.handleForward
  split
  · simp
  · exact unruledOne rfl
  · rename_i queue _ _ _
    refine unruledOne ?_
    cases queue <;> first | rfl | trivial

theorem datagramUntouched (clock : P2P.Clock) (address : P2P.SocketAddress) (buffer : Bytes) :
    Untouched c (c.poll env clock address buffer) := by
  unfold Core.poll
  split
  · exact .quiet
  unfold Core.handleMessage
  split
  · exact .nothing
  split
  · split <;> [exact .quiet; exact peersUntouched _]
  split
  · exact forwardUntouched _
  split
  · split <;> [exact .quiet; exact peersUntouched _]
  split
  · split <;> [exact .quiet; exact peersUntouched _]
  · exact .quiet

theorem reapTable (t : Tun) (now : Int) (order : Recency.Order FlowKey Int) : (t.reapIdleFlows now order).sysRtTable = t.sysRtTable := by
  unfold Tun.reapIdleFlows
  split <;> rfl

theorem deviceTable (t : Tun) (m : Moment) (buffer : Bytes) : (t.handleTunDevice m buffer).1.sysRtTable = t.sysRtTable := by
  have recorded : (t.recordInitiatedFlow m buffer).sysRtTable = t.sysRtTable := by
    unfold Tun.recordInitiatedFlow
    split
    · rfl
    · exact reapTable _ _ _
  have kept (asked : Bool) : (if asked = true then t.recordInitiatedFlow m buffer else t).sysRtTable = t.sysRtTable := by
    cases asked with
    | false => rfl
    | true => exact recorded
  have here := kept (!(t.nextHop (IP4Header.daddr buffer)).empty && t.userspaceStack)
  unfold Tun.handleTunDevice
  split
  · rfl
  split
  · rfl
  dsimp only
  generalize (if (!(t.nextHop (IP4Header.daddr buffer)).empty && t.userspaceStack) = true then
    t.recordInitiatedFlow m buffer else t) = r at here ⊢
  split <;> split <;> exact here

theorem packetTable (t : Tun) (now : Int) (data : Bytes) : (t.handlePacket now data).1.sysRtTable = t.sysRtTable := by
  have returned : (t.isReturnByFlow now data).1.sysRtTable = t.sysRtTable := by
    unfold Tun.isReturnByFlow
    split
    · rfl
    split
    · rfl
    split <;> rfl
  unfold Tun.handlePacket
  split
  · rfl
  dsimp only
  by_cases ipip : IP4Header.isIPIP data
  · rw [if_pos ipip]
    split <;> exact returned
  · rw [if_neg ipip]
    split <;> rfl

theorem tunResultUntouched {origin : Origin} {result : Tun × List Tun.Effect} (table : result.1.sysRtTable = c.tun.sysRtTable) :
    Untouched c (c.tunResult origin result) := by
  refine .some table (unruledMap fun effect => ?_)
  cases effect <;> trivial

theorem wsQueueUntouched (item : Item) : Untouched c (c.handleWsQueue env item) := by
  unfold Core.handleWsQueue
  split
  · rename_i msg _
    intro c' outputs ok
    obtain ⟨sent,handled,same⟩ := Option.map_eq_some_iff.mp ok
    cases same
    refine ⟨rfl,fun o member => ?_⟩
    obtain ⟨effect,inside,rfl⟩ := List.mem_map.mp member
    cases msg with
    | packet data =>
      cases handled
      cases List.mem_singleton.mp inside
      trivial
    | pubInfo info =>
      cases handled
      unfold WsClient.handlePubInfo at inside
      split at inside
      · cases List.mem_singleton.mp inside; trivial
      · cases List.mem_singleton.mp inside; trivial
    | discovery =>
      obtain ⟨a,_,rfl⟩ := Option.map_eq_some_iff.mp handled
      cases List.mem_singleton.mp inside
      trivial
    | _ => cases handled; contradiction
  · exact .quiet

theorem Rules.untouched {result : Option (Core × List Out)} (untouched : Untouched c result) (unheard : heard e taken = [])
    (unbrought : brought e = []) {c' : Core} {outputs : List Out} (ok : result = some (c',outputs)) : Rules c e taken c' outputs := by
  obtain ⟨table,each⟩ := untouched c' outputs ok
  exact ⟨by rw [unheard,table]; exact (List.append_nil _).symm,by rw [rulesNone each,unbrought]⟩

theorem tunQueueRules (now : Int) (item : Item) {c' : Core} {outputs : List Out}
    (ok : c.handleTunQueue env now item = some (c',outputs)) : Rules c (.tunQueue now) (some item) c' outputs := by
  obtain ⟨payload,origin⟩ := item
  cases payload with
  | netStack data => exact .untouched .quiet rfl rfl ok
  | msg msg => cases msg with
    | packet data => exact .untouched (tunResultUntouched (packetTable c.tun now data)) rfl rfl ok
    | tunAddr cidr =>
      refine .untouched ?_ rfl rfl ok
      change Untouched c (Core.handleTunAddr env c cidr)
      unfold Core.handleTunAddr
      split
      · exact .some rfl (by simp)
      · exact .quiet
      · exact .nothing
    | sysRt data =>
      unfold Core.handleTunQueue at ok
      dsimp only at ok
      split at ok
      · contradiction
      cases ok
      refine ⟨?_,rfl⟩
      have one : heard (.tunQueue now) (some ⟨.msg (.sysRt data),origin⟩) = [RoutePush.readEntry data] := rfl
      have other : (c.tun.handleSysRt data).sysRtTable = if (RoutePush.readEntry data).nexthop ≠ c.tun.ip then
          c.tun.sysRtTable ++ [RoutePush.readEntry data] else c.tun.sysRtTable := by
        unfold Tun.handleSysRt
        exact apply_ite Tun.sysRtTable ..
      rw [one,other]
      by_cases away : (RoutePush.readEntry data).nexthop ≠ c.tun.ip
      · rw [if_pos away,List.filter_cons_of_pos (by simpa using away)]
        rfl
      · rw [if_neg away,List.filter_cons_of_neg (by simpa using away)]
        exact (List.append_nil _).symm
    | tryP2P ip => exact .untouched .quiet rfl rfl ok
    | pubInfo info => exact .untouched .quiet rfl rfl ok
    | discovery => exact .untouched .quiet rfl rfl ok

theorem routesTold {pingMessage : Bytes} (entries : List Bytes) : rulesIn (into .tun ((entries.flatMap fun data =>
    ([.write .tun (.sysRt data),.write .peer (.sysRt [])] : List WsClient.Effect)).map (wsOut pingMessage .server))) =
    RoutePush.received (entries.flatMap fun data => [.write .tun (.sysRt data),.write .peer (.sysRt [])]) := by
  induction entries with
  | nil => rfl
  | cons data entries ih =>
    simp only [List.flatMap_cons,List.cons_append,List.nil_append,List.map_cons]
    exact congrArg (RoutePush.readEntry data :: ·) ih

theorem frameRules {m pingMessage : Bytes} {now : BitVec 64} {c' : Core} {outputs : List Out}
    (ok : c.handleFrame env m pingMessage now = some (c',outputs)) : Rules c (.frame m pingMessage now) none c' outputs := by
  unfold Core.handleFrame at ok
  split at ok
  · contradiction
  obtain ⟨⟨ws,effects⟩,handled,same⟩ := Option.map_eq_some_iff.mp ok
  cases same
  refine ⟨(List.append_nil _).symm,?_⟩
  change _ = framed m
  unfold framed
  split
  · rename_i route
    unfold WsClient.handleWsMsg at handled
    simp only [route,Kind.FORWARD,Kind.EXPTTUN,Kind.UDP4CONN,Kind.DISCOVERY,Kind.ROUTE] at handled
    obtain ⟨sent,made,same⟩ := Option.map_eq_some_iff.mp handled
    cases same
    rw [made]
    unfold WsClient.handleRouteMsg at made
    split at made
    · cases made; rfl
    · obtain ⟨entries,_,last⟩ := Option.bind_eq_some_iff.mp made
      cases Option.some.inj last
      exact routesTold entries
  · rename_i other
    refine rulesNone fun o member => ?_
    obtain ⟨effect,inside,rfl⟩ := List.mem_map.mp member
    cases WsClient.handled handled with
    | routes route => exact absurd route other
    | nothing => contradiction
    | forward =>
      rcases List.mem_cons.mp inside with rfl | inside
      · trivial
      · split at inside
        · contradiction
        · cases List.mem_singleton.mp inside
          rfl
    | exptTun =>
      simp only [List.mem_cons,List.not_mem_nil,or_false] at inside
      rcases inside with rfl | rfl | rfl | rfl <;> first | rfl | trivial
    | conn info => cases List.mem_singleton.mp inside; trivial
    | discovered src => cases List.mem_singleton.mp inside; trivial
    | discovery =>
      simp only [List.mem_cons,List.not_mem_nil,or_false] at inside
      rcases inside with rfl | rfl <;> trivial

theorem outputUntouched (now : Int) (inner : Bytes) : Untouched c (c.output now inner) := by
  unfold Core.output
  split
  · exact .quiet
  split
  · exact .quiet
  dsimp only
  split
  · exact .some rfl (by simp)
  · exact .some rfl (unruledOne trivial)

theorem inputTable (now : Int) (packet : Bytes) : (c.handleInput now packet).tun = c.tun := by
  have feed (inner : Bytes) (vnetPeer : IP4) : (c.feedToLwip now inner vnetPeer).tun = c.tun := by
    unfold Core.feedToLwip
    split <;> rfl
  have accept (inner : Bytes) (vnetPeer : IP4) : (if inner.length < IP4Header.size then c
      else if IP4Header.protocol inner ≠ 0x06 ∧ IP4Header.protocol inner ≠ 0x11 then c else c.feedToLwip now inner vnetPeer).tun = c.tun := by
    split
    · rfl
    split
    · rfl
    · exact feed inner vnetPeer
  unfold Core.handleInput
  split
  · rfl
  · exact accept _ _

theorem handleRules {c' : Core} {outputs : List Out} (ok : handle env c e taken = some (c',outputs)) : Rules c e taken c' outputs := by
  cases taken with
  | some item =>
    cases e with
    | tunQueue now => exact tunQueueRules now item ok
    | peerQueue relay direct clock seed => exact .untouched (peerQueueUntouched relay direct clock seed item) rfl rfl ok
    | wsQueue => exact .untouched (wsQueueUntouched item) rfl rfl ok
    | stackQueue =>
      obtain ⟨payload,origin⟩ := item
      cases payload with
      | msg msg => exact .untouched .quiet rfl rfl ok
      | netStack data => exact .untouched (.some rfl (unruledOne (by trivial))) rfl rfl ok
    | stackTask now =>
      obtain ⟨payload,origin⟩ := item
      cases payload with
      | msg msg => exact .untouched .quiet rfl rfl ok
      | netStack data => exact .untouched (.some (congrArg Tun.sysRtTable (inputTable now data)) (by simp)) rfl rfl ok
    | _ => exact absurd ok (by simp [handle])
  | none =>
    cases e with
    | device m buffer => exact .untouched (tunResultUntouched (deviceTable c.tun m buffer)) rfl rfl ok
    | output now inner => exact .untouched (outputUntouched now inner) rfl rfl ok
    | tick ip clock => exact .untouched (peersUntouched _) rfl rfl ok
    | discovery =>
      simp only [handle] at ok
      split at ok
      · exact .untouched (.some rfl (unruledOne (by trivial))) rfl rfl ok
      · contradiction
    | stunRequest =>
      simp only [handle] at ok
      split at ok
      · refine .untouched (.some ?_ ?_) rfl rfl ok
        · rfl
        · exact unruledOne trivial
      · contradiction
    | stunResponse buffer =>
      simp only [handle,Core.pollStun] at ok
      split at ok
      · exact .untouched .quiet rfl rfl ok
      · refine .untouched (.some ?_ ?_) rfl rfl ok
        · rfl
        · simp
      · contradiction
    | stunPeer ip clock => exact .untouched (peersUntouched _) rfl rfl ok
    | datagram buffer address clock => exact .untouched (datagramUntouched clock address buffer) rfl rfl ok
    | frame m pingMessage now => exact frameRules ok
    | ping payload => exact .untouched (.some rfl (unruledOne (by trivial))) rfl rfl ok
    | keepAlive pingMessage => exact .untouched (.some rfl (unruledOne (by trivial))) rfl rfl ok
    | _ => exact absurd ok (by simp [handle])

variable {ip : IP4} {s t : State Core Module Item Sent}

def away (ip : IP4) (entries : List SysRouteEntry) : List SysRouteEntry := entries.filter fun rt => rt.nexthop ≠ ip

theorem awayAppend (front rest : List SysRouteEntry) : away ip (front ++ rest) = away ip front ++ away ip rest := List.filter_append ..

def learnt (ip : IP4) (s : State Core Module Item Sent) : List SysRouteEntry :=
  s.core.tun.sysRtTable ++ away ip (rulesIn (s.queues .tun))

def Ready (ip : IP4) (s : State Core Module Item Sent) : Prop := s.core.tun.ip = ip ∨
  ∃ front cidr origin rest, s.queues .tun = front ++ ⟨.msg (.tunAddr cidr),origin⟩::rest ∧ rulesIn front = []

theorem rulesAppend (front rest : List Item) : rulesIn (front ++ rest) = rulesIn front ++ rulesIn rest := List.filterMap_append ..

theorem Ready.located {item : Item} {rest : List Item} (ready : Ready ip s) (queued : s.queues .tun = item::rest)
    (rule : ruled item ≠ none) : s.core.tun.ip = ip := by
  refine ready.resolve_right ?_
  rintro ⟨front,cidr,origin,later,there,none⟩
  rw [queued] at there
  cases front with
  | nil =>
    cases there
    exact rule rfl
  | cons first front =>
    cases there
    exact rule (List.filterMap_eq_nil_iff.mp none item (List.mem_cons_self ..))

structure Moves (s t : State Core Module Item Sent) (e : Event) (gone left : List SysRouteEntry) : Prop where
  before : rulesIn (s.queues .tun) = gone ++ left
  after : rulesIn (t.queues .tun) = left ++ brought e
  table : t.core.tun.sysRtTable = s.core.tun.sysRtTable ++ away s.core.tun.ip gone
  located : ∀ ip, Ready ip s → gone ≠ [] → s.core.tun.ip = ip

theorem movesStep (stepped : (client env).step s e t) : ∃ gone left, Moves s t e gone left := by
  obtain ⟨taken,core,outputs,head,handled,reached,_,queues⟩ := stepQueues stepped
  obtain ⟨queue,before,after⟩ := queues .tun
  have rules := handleRules handled
  refine ⟨heard e taken,rulesIn queue,?_,?_,by rw [reached,rules.table]; rfl,?_⟩
  · rw [before,rulesAppend]
    refine congrArg (· ++ rulesIn queue) ?_
    cases e with
    | tunQueue now =>
      obtain ⟨item,_,_,rfl⟩ := head
      change rulesIn [item] = (ruled item).toList
      cases rule : ruled item <;> simp [rulesIn,rule]
    | _ => rfl
  · rw [after,rulesAppend,rules.told]
  · intro ip ready some
    cases e with
    | tunQueue now =>
      obtain ⟨item,rest,queued,rfl⟩ := head
      refine ready.located queued fun none => some ?_
      simp [heard,none]
    | _ => exact absurd rfl some

theorem learntStep (ready : rulesIn (s.queues .tun) ≠ [] → Ready ip s) (stepped : (client env).step s e t) :
    learnt ip t = learnt ip s ++ away ip (brought e) := by
  obtain ⟨gone,left,moves⟩ := movesStep stepped
  have kept : away s.core.tun.ip gone = away ip gone := by
    by_cases none : gone = []
    · rw [none]; rfl
    · have some : rulesIn (s.queues .tun) ≠ [] := by
        rw [moves.before]
        exact fun empty => none (List.append_eq_nil_iff.mp empty).1
      rw [moves.located ip (ready some) none]
  rw [learnt,learnt,moves.table,moves.before,moves.after,kept,awayAppend,awayAppend]
  simp only [List.append_assoc]

theorem tunAddressed {cidr : Bytes} (tells : Tells env ip cidr) {core : Core} {outputs : List Out}
    (handled : c.handleTunAddr env cidr = some (core,outputs)) : core.tun.ip = ip := by
  obtain ⟨mask,parsed⟩ := tells ⟨IP4.zero,IP4.zero⟩
  unfold Core.handleTunAddr at handled
  rw [parsed] at handled
  cases handled
  rfl

theorem readyStep {group : IP4 → Prop} (ready : Ready ip s) (allowed : Allowed (Located ip) (Admits env ip group) s)
    (stepped : (client env).step s e t) : Ready ip t := by
  obtain ⟨taken,core,outputs,head,handled,reached,_,queues⟩ := stepQueues stepped
  have admitted {queue : Module} {item : Item} {cidr : Bytes} {origin : Origin} (member : item ∈ s.queues queue)
      (same : item = ⟨.msg (.tunAddr cidr),origin⟩) : Tells env ip cidr := (allowed.queued queue item member).1 cidr (by rw [same])
  rcases ready with here | ⟨front,cidr,origin,rest,queued,none⟩
  · refine .inl ?_
    rw [reached]
    cases handleTurns s.core e taken core outputs handled with
    | aside stays each => exact stays.tun.trans here
    | told told ws learns =>
      subst told
      obtain ⟨queue,source⟩ := queuedHead head
      rw [source] at head
      obtain ⟨item,later,first,same⟩ := head
      have tells := admitted (first ▸ List.mem_cons_self ..) (Option.some.inj same).symm
      rcases (learns ip tells).tun with kept | new
      · exact kept.trans here
      · exact new
    | answered => exact here
  · obtain ⟨queue,before,after⟩ := queues .tun
    by_cases here : (client env).source e = some .tun
    · rw [if_pos here,queued] at before
      rw [here] at head
      obtain ⟨item,later,first,rfl⟩ := head
      cases front with
      | nil =>
        obtain ⟨same,_⟩ : _ = item ∧ rest = queue := List.cons.inj before
        have tells := @admitted .tun _ cidr origin (by rw [queued]; exact List.mem_cons_self ..) rfl
        subst same
        refine .inl ?_
        cases e with
        | tunQueue now => rw [reached]; exact tunAddressed tells handled
        | _ => cases here
      | cons x front =>
        obtain ⟨_,same⟩ : x = item ∧ _ = queue := List.cons.inj before
        refine .inr ⟨front,cidr,origin,rest ++ into .tun outputs,?_,?_⟩
        · rw [after,← same]; exact List.append_assoc ..
        · exact List.filterMap_eq_nil_iff.mpr fun y member => List.filterMap_eq_nil_iff.mp none y (List.mem_cons_of_mem _ member)
    · rw [if_neg here,queued] at before
      refine .inr ⟨front,cidr,origin,rest ++ into .tun outputs,?_,none⟩
      have same : _ = queue := before
      rw [after,← same]
      exact List.append_assoc ..

inductive Speaks (env : Env) (s t : State Core Module Item Sent) : Event → Prop where
  | plain {e : Event} (ws : t.core.ws = s.core.ws) (frames : ∃ more, framesOf t.sent = framesOf s.sent ++ more ∧ ∀ frame ∈ more, ¬ LoginFrame frame) :
      Speaks env s t e
  | answered {m pingMessage now tunCidr a} (kind : byteAt m 0 = Kind.EXPTTUN) (ws : t.core.ws = {s.core.ws with tunCidr := tunCidr})
      (named : WsClient.address env.ws tunCidr = some a) (ready : rulesIn (s.queues .tun) = [] → Ready a.host t) :
      Speaks env s t (.frame m pingMessage now)

theorem speaksStep (stepped : (client env).step s e t) : Speaks env s t e := by
  obtain ⟨taken,core,outputs,head,handled,reached,sent,queues⟩ := stepQueues stepped
  have frames : framesOf t.sent = framesOf s.sent ++ framesOf (outs outputs).reverse := by
    rw [sent,framesOf,framesOf,framesOf,← List.filterMap_append,← List.reverse_append]
  cases handleTurns s.core e taken core outputs handled with
  | aside stays each => exact .plain (by rw [reached,stays.ws]) ⟨_,frames,framesAside each⟩
  | told here ws learns => exact .plain (by rw [reached,ws]) ⟨_,frames,by simp [outs,framesOf]⟩
  | @answered m pingMessage now tunCidr a event kind named =>
    subst event
    refine .answered kind (by rw [reached]) named fun unruled => .inr ⟨s.queues .tun,a.toCidr,.server,[],?_,unruled⟩
    obtain ⟨queue,before,after⟩ := queues .tun
    have same : s.queues .tun = queue := before
    rw [after,same]
    rfl

theorem startReady {cfg : Config} {pingMessage : Bytes} {now : BitVec 64} (begun : start env cfg pingMessage now = some s) :
    s.core.tun.sysRtTable = [] ∧ rulesIn (s.queues .tun) = [] ∧ ((∃ f ∈ framesOf s.sent, byteAt f 0 = Kind.AUTH) →
      ∀ a, WsClient.address env.ws cfg.tunCidr = some a → Ready a.host s) := by
  obtain ⟨outputs,greeted,rfl⟩ := Option.map_eq_some_iff.mp begun
  refine ⟨by rw [putAllCore]; rfl,?_⟩
  rw [putAllQueue]
  unfold greeting at greeted
  dsimp only at greeted
  split at greeted
  · obtain ⟨a,_,rfl⟩ := Option.map_eq_some_iff.mp greeted
    refine ⟨rfl,?_⟩
    rintro ⟨f,member,kind⟩
    rw [framesPut] at member
    simp only [framesOf,outs,emit,List.filterMap_cons,List.filterMap_nil,List.reverse_cons,List.reverse_nil,List.nil_append,
      List.cons_append,List.mem_cons,List.not_mem_nil,or_false] at member
    rcases member with rfl | rfl
    · exact absurd (.inl kind) (vmacOther cfg now)
    · rw [requestKind] at kind
      exact absurd kind (by decide)
  · obtain ⟨sent,auth,same⟩ := Option.map_eq_some_iff.mp greeted
    obtain ⟨a,named,made⟩ := Option.map_eq_some_iff.mp auth
    subst made
    subst same
    refine ⟨rfl,fun _ b named' => .inr ⟨[],a.toCidr,.own,[],?_,rfl⟩⟩
    rw [putAllQueue]
    rfl

end
end Candy.ClientQueues
