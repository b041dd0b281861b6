import Candy.ClientRules
import Candy.SdwanRules
import Candy.VpnMembers

/-! The SD-WAN rules in a virtual network: the ones a member routes by are those that the
server was configured with for the address it has, in the configured order. They leave
the server once, when the member enters the registry, and nobody else's frame has any. -/
namespace Candy.Server
open WsMsg

/- What the configuration says and whether the server runs; no handler writes it. -/
def settings (s : State) : Bool × List SysRoute := (s.running,s.routes)

section
variable {env : Env} {s t : State} {p q : Ptr}

theorem settingsConstant : Constant settings := ⟨fun _ => ⟨fun _ _ => rfl,fun _ _ => rfl,fun _ _ => rfl⟩,fun _ _ => rfl⟩

theorem settingsStep {e : Event} (stepped : step env s e t) : settings t = settings s ∨ e = .stopped ∧ settings t = (false,[]) := by
  rcases settingsConstant.step stepped with same | ⟨stopped,rfl⟩
  · exact .inl same
  · exact .inr ⟨stopped,rfl⟩

theorem registeringStep {e : Event} {ip : IP4} (stepped : step env s e t) (waits : t.calls q = some (.registering ip)) :
    s.calls q = some (.registering ip) ∨ ∃ frame now, e = .received q frame now ∧ byteAt frame 0 = Kind.AUTH := by
  cases seenOf stepped with
  | @received p frame now _ spec =>
    rw [spec.calls] at waits
    by_cases same : q = p
    · subst same
      rw [Function.update_self] at waits
      cases login : loginAddress env s.password frame with
      | none => simp [login] at waits
      | some given => exact .inr ⟨frame,now,rfl,(loginKind login).1⟩
    · rw [Function.update_of_ne same] at waits
      exact .inl waits
  | @registered p given _ stage spec =>
    rw [spec.calls] at waits
    by_cases same : q = p
    · subst same
      rw [Function.update_self] at waits
      simp at waits
    · rw [Function.update_of_ne same] at waits
      exact .inl waits
  | @returned p _ stage calls =>
    rw [calls] at waits
    by_cases same : q = p
    · subst same
      rw [Function.update_self] at waits
      contradiction
    · rw [Function.update_of_ne same] at waits
      exact .inl waits
  | aside spec =>
    rcases spec.calls q _ waits with plain | held
    · exact absurd rfl (plain ip)
    · exact .inl held

theorem enteredStep {e : Event} {ip : IP4} (stepped : step env s e t) (found : t.ipCtxMap.lookup ip = some q) :
    s.ipCtxMap.lookup ip = some q ∨ e = .registered q := by
  cases seenOf stepped with
  | received spec => exact .inl (spec.map ▸ found)
  | @registered p given _ stage spec =>
    rw [spec.map,Table.lookupInsert] at found
    split at found
    · exact .inr (by rw [Option.some.inj found])
    · exact .inl found
  | returned stage calls mem map => exact .inl ((map ip q).mp found).1
  | aside spec => exact .inl (spec.map ▸ found)

theorem registeredSends {ip : IP4} {sent : List Effect} (entered : register s p ip = (t,sent)) :
    ∃ (text : String) (dump : Bytes) (batches : List (List SysRouteEntry)),
      sent = .log text dump :: batches.map (fun batch => .send p (RoutePush.batchFrame batch)) ∧
      batches.flatten = RoutePush.matching (s.mem p).ip s.routes ∧ ∀ batch ∈ batches, batch.length ≤ 101 := by
  have pushes (u : State) (address : (u.mem p).ip = (s.mem p).ip) (routes : u.routes = s.routes) : ∃ batches : List (List SysRouteEntry),
      (updateSysRoute u p).2 = batches.map (fun batch => .send p (RoutePush.batchFrame batch)) ∧
      batches.flatten = RoutePush.matching (s.mem p).ip s.routes ∧ ∀ batch ∈ batches, batch.length ≤ 101 := by
    obtain ⟨batches,frames,order,small⟩ := RoutePush.batchSpec (u.mem p).ip u.routes [] (by simp)
    refine ⟨batches,?_,by rw [order,address,routes]; rfl,small⟩
    have sent : (updateSysRoute u p).2 = (batches.map RoutePush.batchFrame).map (.send p) := congrArg (List.map (Effect.send p)) frames
    rw [sent,List.map_map]
    rfl
  unfold register at entered
  cases found : s.ipCtxMap.lookup ip with
  | none =>
    obtain ⟨batches,sent,order,small⟩ := pushes {s with ipCtxMap := s.ipCtxMap.insert ip p} rfl rfl
    rw [found] at entered
    cases entered
    exact ⟨_,_,batches,congrArg _ sent,order,small⟩
  | some old =>
    have evicted : (((s.setStatus old (-1)).mem p).ip) = (s.mem p).ip := by
      unfold State.setStatus State.write
      dsimp only
      by_cases same : p = old
      · subst same; rw [Function.update_self]
      · rw [Function.update_of_ne same]
    obtain ⟨batches,sent,order,small⟩ := pushes {s.setStatus old (-1) with ipCtxMap := s.ipCtxMap.insert ip p} evicted rfl
    rw [found] at entered
    cases entered
    exact ⟨_,_,batches,congrArg _ sent,order,small⟩

end
end Candy.Server

namespace Candy.Vpn
open WsMsg Modules Runs
open ClientQueues (Core Module Item Sent Config framesOf Located Admits Tells LoginFrame Ready rulesIn framed brought away learnt
  Moves movesStep learntStep readyStep Speaks speaksStep startReady awayAppend rulesAppend)
open Server (Ptr Admitted Sound SysRoute settings)

def awaited (c : Session) : List SysRouteEntry := rulesIn (c.client.queues .tun) ++ c.down.flatMap framed

def owed (ip : IP4) (c : Session) : List SysRouteEntry := c.client.core.tun.sysRtTable ++ away ip (awaited c)

def ruling (routes : List SysRoute) (ip : IP4) : List SysRouteEntry := away ip (RoutePush.matching ip routes)

def Ruleless (c : Session) : Prop := c.client.core.tun.sysRtTable = [] ∧ awaited c = []

structure Informed (routes : List SysRoute) (s : Server.State) (p : Ptr) (c : Session) (ip : IP4) : Prop where
  pending : 0 < tokens c ∨ (∃ jp, s.calls p = some (.registering jp)) → Ruleless c
  told : owed ip c = [] ∨ owed ip c = ruling routes ip
  settled : s.running = true → ∀ jp, s.ipCtxMap.lookup jp = some p → owed ip c = ruling routes ip
  ready : (∃ f ∈ c.up, byteAt f 0 = Kind.AUTH) ∨ Admitted s p ∨ awaited c ≠ [] → Ready ip c.client

def Named (env : Env) (c : Session) (ip : IP4) : Prop :=
  ∃ a, WsClient.address (env.client c.cfg).ws c.client.core.ws.tunCidr = some a ∧ a.host = ip

section
variable {env : Env} {group : IP4 → Prop} {routes : List SysRoute} {s t : Server.State} {p q : Ptr} {c : Session} {ip : IP4}

theorem Named.same {jp : IP4} (named : Named env c ip) (other : Named env c jp) : ip = jp := by
  obtain ⟨a,read,rfl⟩ := named
  obtain ⟨b,again,rfl⟩ := other
  rw [Option.some.inj (read.symm.trans again)]

theorem Ruleless.owed (ruleless : Ruleless c) : owed ip c = [] := by
  rw [Vpn.owed,ruleless.1,ruleless.2]
  rfl

theorem tokensPositive : 0 < tokens c ↔ (∃ f ∈ c.up, logs f = true) ∨ ∃ f ∈ c.down, asks f = true := by
  rw [tokens,Nat.add_pos_iff_pos_or_pos,List.countP_pos_iff,List.countP_pos_iff]

theorem loginToken {f : Bytes} (member : f ∈ c.up) (kind : byteAt f 0 = Kind.AUTH) : 0 < tokens c :=
  tokensPositive.mpr (.inl ⟨f,member,decide_eq_true (.inl kind)⟩)

theorem Informed.serve (informed : Informed routes s p c ip) {taken : Nat} {extra : List Bytes}
    (up : ∀ f ∈ (framesOf c.client.sent).drop taken, f ∈ c.up) (offers : ∀ f ∈ extra, asks f = true → ∃ g ∈ c.up, asks g = true)
    (plain : extra.flatMap framed = []) (running : t.running = true → s.running = true)
    (admits : Admitted t p → Admitted s p ∨ ∃ f ∈ c.up, byteAt f 0 = Kind.AUTH)
    (registers : ∀ jp, t.calls p = some (.registering jp) → s.calls p = some (.registering jp) ∨ ∃ f ∈ c.up, byteAt f 0 = Kind.AUTH)
    (enters : ∀ jp, t.ipCtxMap.lookup jp = some p → s.ipCtxMap.lookup jp = some p) :
    Informed routes t p {c with taken := taken,down := c.down ++ extra} ip := by
  have waits : awaited {c with taken := taken,down := c.down ++ extra} = awaited c := by
    change rulesIn (c.client.queues .tun) ++ (c.down ++ extra).flatMap framed = _
    rw [List.flatMap_append,plain,List.append_nil]
    rfl
  have owes : owed ip {c with taken := taken,down := c.down ++ extra} = owed ip c := by
    rw [owed,waits]
    rfl
  constructor
  case pending =>
    intro either
    have before : 0 < tokens c ∨ ∃ jp, s.calls p = some (.registering jp) := by
      rcases either with some | ⟨jp,waiting⟩
      · refine .inl (tokensPositive.mpr ?_)
        rcases tokensPositive.mp some with ⟨f,member,log⟩ | ⟨f,member,asked⟩
        · exact .inl ⟨f,up f member,log⟩
        · rcases List.mem_append.mp member with old | new
          · exact .inr ⟨f,old,asked⟩
          · obtain ⟨g,inside,asked⟩ := offers f new asked
            exact .inl ⟨g,inside,asksLogs asked⟩
      · rcases registers jp waiting with held | ⟨f,member,kind⟩
        · exact .inr ⟨jp,held⟩
        · exact .inl (loginToken member kind)
    exact ⟨(informed.pending before).1,waits.trans (informed.pending before).2⟩
  case told => rw [owes]; exact informed.told
  case settled =>
    intro runs jp found
    rw [owes]
    exact informed.settled (running runs) jp (enters jp found)
  case ready =>
    intro either
    refine informed.ready ?_
    rcases either with ⟨f,member,kind⟩ | admitted | some
    · exact .inl ⟨f,up f member,kind⟩
    · rcases admits admitted with was | login
      · exact .inr (.inl was)
      · exact .inl login
    · rw [waits] at some
      exact .inr (.inr some)

theorem Placed.unasked (placed : Placed env group s p c ip) (some : 0 < tokens c) : ¬ Admitted s p := by
  intro admitted
  have := (placed.logged admitted).2
  omega

theorem Informed.moves (informed : Informed routes s p c ip) (placed : Placed env group s p c ip) (sound : Sound s)
    {e : ClientQueues.Event} {client : Client} {down : List Bytes} (stepped : (ClientQueues.client (env.client c.cfg)).step c.client e client)
    (incoming : c.down.flatMap framed = brought e ++ down.flatMap framed) (fewer : ∀ f ∈ down, f ∈ c.down)
    (frames : ∀ m pingMessage now, e = .frame m pingMessage now → m ∈ c.down) {jp : IP4}
    (named : Named env {c with client := client,down := down} jp) : Informed routes s p {c with client := client,down := down} jp := by
  obtain ⟨gone,left,moves⟩ := movesStep stepped
  have before : awaited c = gone ++ (left ++ (brought e ++ down.flatMap framed)) := by
    rw [awaited,moves.before,incoming,List.append_assoc]
  have after : awaited {c with client := client,down := down} = left ++ (brought e ++ down.flatMap framed) := by
    change rulesIn (client.queues .tun) ++ down.flatMap framed = _
    rw [moves.after,List.append_assoc]
  have ruleless (none : Ruleless c) : Ruleless {c with client := client,down := down} := by
    obtain ⟨empty,rest⟩ := List.append_eq_nil_iff.mp (before.symm.trans none.2)
    refine ⟨?_,after.trans rest⟩
    change client.core.tun.sysRtTable = []
    rw [moves.table,none.1,empty]
    rfl
  cases speaksStep stepped with
  | plain ws quiet =>
    obtain ⟨more,sent,silent⟩ := quiet
    have up : ({c with client := client,down := down} : Session).up = c.up ++ more := upAppend placed.taken sent down
    have old {f : Bytes} (member : f ∈ ({c with client := client,down := down} : Session).up) (log : LoginFrame f) : f ∈ c.up := by
      rw [up] at member
      exact (List.mem_append.mp member).resolve_right fun new => silent f new log
    have same : jp = ip := by
      refine named.same ?_
      change ∃ a, WsClient.address _ client.core.ws.tunCidr = some a ∧ a.host = ip
      rw [ws]
      exact placed.named
    subst same
    have ready : awaited c ≠ [] → Ready jp c.client := fun some => informed.ready (.inr (.inr some))
    have owes : owed jp {c with client := client,down := down} = owed jp c := by
      have learns : learnt jp client = learnt jp c.client ++ away jp (brought e) :=
        learntStep (fun some => ready fun none => some (List.append_eq_nil_iff.mp none).1) stepped
      change client.core.tun.sysRtTable ++ away jp (rulesIn (client.queues .tun) ++ down.flatMap framed) = _
      rw [awayAppend,← List.append_assoc]
      change learnt jp client ++ _ = _
      rw [learns,owed,awaited,incoming,awayAppend,awayAppend]
      simp only [learnt,List.append_assoc]
    constructor
    case pending =>
      intro either
      refine ruleless (informed.pending (either.imp_left fun some => tokensPositive.mpr ?_))
      rcases tokensPositive.mp some with ⟨f,member,log⟩ | ⟨f,member,asked⟩
      · exact .inl ⟨f,old member (of_decide_eq_true log),log⟩
      · exact .inr ⟨f,fewer f member,asked⟩
    case told => rw [owes]; exact informed.told
    case settled =>
      intro runs kp found
      rw [owes]
      exact informed.settled runs kp found
    case ready =>
      intro either
      refine readyStep (informed.ready ?_) placed.located stepped
      rcases either with ⟨f,member,kind⟩ | admitted | some
      · exact .inl ⟨f,old member (.inl kind),kind⟩
      · exact .inr (.inl admitted)
      · refine .inr (.inr fun none => some ?_)
        rw [before] at none
        exact after.trans (List.append_eq_nil_iff.mp none).2
  | @answered m pingMessage now tunCidr a kind ws address ready =>
    have asked : asks m = true := by rw [asks,kind]; rfl
    have token : 0 < tokens c := tokensPositive.mpr (.inr ⟨m,frames m pingMessage now rfl,asked⟩)
    have none := informed.pending (.inl token)
    have same : jp = a.host := by
      refine named.same ⟨a,?_,rfl⟩
      change WsClient.address _ client.core.ws.tunCidr = some a
      rw [ws]
      exact address
    subst same
    refine ⟨fun _ => ruleless none,.inl (ruleless none).owed,fun _ kp found => ?_,fun _ => ready (List.append_eq_nil_iff.mp none.2).1⟩
    exact absurd (registeredAdmitted sound found) (placed.unasked token)

theorem startInformed {cfg : Config} {pingMessage : Bytes} {now : BitVec 64} {client : Client}
    (begun : ClientQueues.start (env.client cfg) cfg pingMessage now = some client) (sound : Sound s) (fresh : ¬ Admitted s p)
    (named : Named env ⟨cfg,client,0,[]⟩ ip) (ws : client.core.ws.tunCidr = cfg.tunCidr) : Informed routes s p ⟨cfg,client,0,[]⟩ ip := by
  obtain ⟨table,queue,ready⟩ := startReady begun
  have none : awaited ⟨cfg,client,0,[]⟩ = [] := by
    rw [awaited,queue]
    rfl
  have ruleless : Ruleless ⟨cfg,client,0,[]⟩ := ⟨table,none⟩
  refine ⟨fun _ => ruleless,.inl ruleless.owed,fun _ jp found => absurd (registeredAdmitted sound found) fresh,?_⟩
  rintro (login | admitted | some)
  · obtain ⟨a,read,rfl⟩ := named
    exact ready login a (ws ▸ read)
  · exact absurd admitted fresh
  · exact absurd none some

theorem batchFramed (batch : List SysRouteEntry) (small : batch.length ≤ 101) : framed (RoutePush.batchFrame batch) = batch := by
  obtain ⟨kind,_,_,effects,handled,received⟩ := RoutePush.batchReceived batch small
  rw [framed,if_pos kind,handled]
  exact received

theorem batchesFramed {batches : List (List SysRouteEntry)} (small : ∀ batch ∈ batches, batch.length ≤ 101) :
    (batches.map RoutePush.batchFrame).flatMap framed = batches.flatten := by
  rw [List.flatMap_map,List.flatMap_def]
  refine congrArg List.flatten ((List.map_congr_left fun batch member => batchFramed batch (small batch member)).trans ?_)
  exact List.map_id' batches

theorem Informed.registers (informed : Informed routes s p c ip) (placed : Placed env group s p c ip)
    {given : IP4} {sent : List Server.Effect} (stage : s.calls p = some (.registering given))
    (entered : Server.register s p given = (t,sent)) (configured : settings s = (true,routes) ∨ settings s = (false,[])) :
    Informed routes t p {c with down := c.down ++ sentTo p sent} ip := by
  obtain ⟨text,dump,batches,rfl,order,small⟩ := Server.registeredSends entered
  have spec := (Server.registerSpec entered).1
  have admitted : Admitted s p := ⟨by rw [stage]; simp,.inr (.inl ⟨given,stage⟩)⟩
  obtain ⟨address,spent⟩ := placed.logged admitted
  have none := informed.pending (.inr ⟨given,stage⟩)
  have frames : sentTo p (.log text dump :: batches.map fun batch => .send p (RoutePush.batchFrame batch)) = batches.map RoutePush.batchFrame := by
    change (batches.map _).filterMap _ = _
    rw [List.filterMap_map]
    refine (List.filterMap_congr fun batch _ => ?_).trans (congrFun List.filterMap_eq_map batches)
    exact if_pos rfl
  rw [frames]
  have waits : awaited {c with down := c.down ++ batches.map RoutePush.batchFrame} = RoutePush.matching ip s.routes := by
    change rulesIn (c.client.queues .tun) ++ (c.down ++ batches.map RoutePush.batchFrame).flatMap framed = _
    rw [List.flatMap_append,← List.append_assoc]
    change awaited c ++ _ = _
    rw [none.2,batchesFramed small,order,address]
    rfl
  have owes : owed ip {c with down := c.down ++ batches.map RoutePush.batchFrame} = ruling s.routes ip := by
    rw [owed,waits]
    change c.client.core.tun.sysRtTable ++ _ = _
    rw [none.1]
    rfl
  have same : tokens {c with down := c.down ++ batches.map RoutePush.batchFrame} = tokens c := by
    have plain : (batches.map RoutePush.batchFrame).countP asks = 0 := countNone fun f member => by
      obtain ⟨batch,inside,rfl⟩ := List.mem_map.mp member
      rw [asks,(RoutePush.batchReceived batch (small batch inside)).1]
      rfl
    change c.up.countP logs + (c.down ++ _).countP asks = _
    rw [List.countP_append,plain]
    rfl
  constructor
  case pending =>
    rintro (some | ⟨jp,waiting⟩)
    · rw [same] at some
      omega
    · rw [spec.calls,Function.update_self] at waiting
      simp at waiting
  case told =>
    rw [owes]
    rcases configured with all | stopped
    · exact .inr (by rw [(Prod.mk.inj all).2])
    · exact .inl (by rw [(Prod.mk.inj stopped).2]; rfl)
  case settled =>
    intro runs jp found
    have kept : settings t = settings s := by
      have here : settings (Server.register s p given).1 = settings s := Server.settingsConstant.register given
      rwa [entered] at here
    rw [owes]
    rcases configured with all | stopped
    · rw [(Prod.mk.inj all).2]
    · exact absurd (runs.symm.trans (Prod.mk.inj (kept.trans stopped)).1) (by simp)
  case ready => exact fun _ => informed.ready (.inr (.inl admitted))

theorem framedOther {f : Bytes} (other : byteAt f 0 ≠ Kind.ROUTE) : framed f = [] := if_neg other

theorem sentRuleless {e : Server.Event} {sent : List Server.Effect} (ok : Server.handle env.server s e = some (t,sent))
    (other : e ≠ .registered q) : ∀ f ∈ sentTo q sent, framed f = [] := by
  intro f member
  have sends := sentToMember.mp member
  cases Server.handleCases ok with
  | received =>
    cases Server.receivedSends ok with
    | passed each =>
      have passed := each q f sends
      obtain ⟨_,_,_,known,_⟩ := passed.target
      refine framedOther fun route => ?_
      rw [← passed.same] at known
      simp [Server.destination,route,Kind.ROUTE,Kind.FORWARD,Kind.UDP4CONN,Kind.DISCOVERY,Kind.GENERAL] at known
    | answered asked kind =>
      cases List.mem_singleton.mp sends
      exact framedOther (by rw [kind]; decide)
  | registered here entered => exact absurd (by rw [(Server.registerSpec entered).2 q f sends]) other
  | returned _ left => exact absurd sends ((Server.disconnectSpec left).2.2.1 q f)
  | opened | checked | idled | hungUp | reused | stopped => contradiction

theorem answersAsked {e : Server.Event} {sent : List Server.Effect} (ok : Server.handle env.server s e = some (t,sent))
    (own : ∀ frame now, e = .received q frame now → frame ∈ c.up) : ∀ f ∈ sentTo q sent, asks f = true → ∃ g ∈ c.up, asks g = true := by
  intro f member asked
  have sends := sentToMember.mp member
  by_cases received : ∃ p frame now, e = .received p frame now
  · obtain ⟨p,frame,now,rfl⟩ := received
    cases Server.receivedSends ok with
    | passed each =>
      have passed := each q f sends
      obtain ⟨_,_,_,known,_⟩ := passed.target
      rw [destinationPlain (passed.same ▸ known)] at asked
      contradiction
    | answered kind _ =>
      cases List.mem_singleton.mp sends
      exact ⟨frame,own frame now rfl,by rw [asks,kind]; rfl⟩
  · have kind := Server.otherSends ok (fun p frame now same => received ⟨p,frame,now,same⟩) sends
    rw [asks,kind] at asked
    contradiction

theorem Informed.acts (informed : Informed routes s q c ip) (sound : Sound s) {e : Server.Event} {sent : List Server.Effect}
    (ok : Server.handle env.server s e = some (t,sent)) (other : e ≠ .registered q) {taken : Nat}
    (up : ∀ f ∈ (framesOf c.client.sent).drop taken, f ∈ c.up) (own : ∀ frame now, e = .received q frame now → frame ∈ c.up) :
    Informed routes t q {c with taken := taken,down := c.down ++ sentTo q sent} ip := by
  have stepped : Server.step env.server s e t := ⟨sent,ok⟩
  refine informed.serve up (answersAsked ok own) (List.flatMap_eq_nil_iff.mpr (sentRuleless ok other)) ?_ ?_ ?_ ?_
  · intro runs
    rcases Server.settingsStep stepped with same | ⟨_,stopped⟩
    · exact (Prod.mk.inj same).1 ▸ runs
    · exact absurd ((Prod.mk.inj stopped).1.symm.trans runs) (by simp)
  · intro admitted
    rcases Server.admittedStep sound stepped admitted with ⟨frame,now,_,event,login,_⟩ | ⟨was,_⟩
    · exact .inr ⟨frame,own frame now event,(Server.loginKind login).1⟩
    · exact .inl was
  · intro jp waits
    exact (Server.registeringStep stepped waits).imp_right fun ⟨frame,now,event,kind⟩ => ⟨frame,own frame now event,kind⟩
  · intro jp found
    exact (Server.enteredStep stepped found).resolve_right other

structure Ruled (env : Env) (routes : List SysRoute) (s : State) : Prop where
  configured : settings s.server = (true,routes) ∨ settings s.server = (false,[])
  informed : ∀ p c, s.sessions p = some c → ∀ ip, Named env c ip → Informed routes s.server p c ip

theorem configuredStep {e : Server.Event} (configured : settings s = (true,routes) ∨ settings s = (false,[]))
    (stepped : Server.step env.server s e t) : settings t = (true,routes) ∨ settings t = (false,[]) := by
  rcases Server.settingsStep stepped with same | ⟨_,stopped⟩
  · rwa [same]
  · exact .inr stopped

theorem startTunCidr {cfg : Config} {pingMessage : Bytes} {now : BitVec 64} {client : Client}
    (begun : ClientQueues.start (env.client cfg) cfg pingMessage now = some client) : client.core.ws.tunCidr = cfg.tunCidr := by
  obtain ⟨outputs,_,rfl⟩ := Option.map_eq_some_iff.mp begun
  rw [putAllCore]
  rfl

theorem ruledStep {network : Address} {s t : State} {e : Event} (consistent : Consistent env network group s)
    (ruled : Ruled env routes s) (stepped : step env s e t) : Ruled env routes t := by
  have placing {p : Ptr} {c : Session} (here : s.sessions p = some c) {ip : IP4} (named : Named env c ip) :
      Placed env group s.server p c ip := by
    obtain ⟨jp,placed⟩ := consistent.placed p c here
    exact named.same placed.named ▸ placed
  have acting {p : Ptr} {frame : Bytes} {now : BitVec 64} {u : Server.State} {sent : List Server.Effect} {q : Ptr} {d : Session}
      (handled : Server.handle env.server s.server (.received p frame now) = some (u,sent)) (here : s.sessions q = some d) (apart : q ≠ p)
      {ip : IP4} (named : Named env d ip) : Informed routes u q {d with down := d.down ++ sentTo q sent} ip :=
    (ruled.informed q d here ip named).acts consistent.sound handled (by simp) (fun f member => member) fun _ _ same => by
      cases same
      exact absurd rfl apart
  cases handleCases stepped with
  | @opened p cfg pingMessage now out client accepted begun =>
    have opened : Server.step env.server s.server (.opened p) out.1 := ⟨out.2,accepted⟩
    refine ⟨configuredStep ruled.configured opened,fun q d found ip named => ?_⟩
    rcases placeAt found with ⟨rfl,rfl⟩ | ⟨_,old⟩
    · refine startInformed begun (serverStep consistent accepted (keepsAlone (by simp))).1 (fun admitted => ?_) named (startTunCidr begun)
      have before := (Server.admittedStep consistent.sound opened admitted).resolve_left (by rintro ⟨_,_,_,event,_⟩; cases event)
      cases Server.handleCases accepted with | opened free => exact before.1.1 free
    · have next := (ruled.informed q d old ip named).acts consistent.sound accepted (by simp) (fun f member => member)
        (fun _ _ same => (by cases same))
      cases Server.handleCases accepted with | opened free => ?_
      rwa [show sentTo q [] = [] from rfl,sessionUp] at next
  | @served e out apart handled =>
    refine ⟨configuredStep ruled.configured ⟨out.2,handled⟩,fun q d found ip named => ?_⟩
    obtain ⟨d',old,rfl⟩ := deliverAt found
    have informed := ruled.informed q d' old ip named
    by_cases own : e = .registered q
    · subst own
      cases Server.handleCases handled with
      | registered stage entered => exact informed.registers (placing old named) stage entered ruled.configured
    · refine informed.acts consistent.sound handled own (fun f member => member) fun frame now same => ?_
      subst same
      contradiction
  | @uplinked p now c frame rest out here first handled =>
    refine ⟨configuredStep ruled.configured ⟨out.2,handled⟩,fun q d found ip named => ?_⟩
    obtain ⟨d',old,rfl⟩ := deliverAt found
    rcases placeAt old with ⟨rfl,rfl⟩ | ⟨apart,old⟩
    · refine (ruled.informed q c here ip named).acts consistent.sound handled (by simp) (fun f member => ?_) fun frame' _ same => ?_
      · rw [← List.drop_drop] at member
        exact List.mem_of_mem_drop member
      · cases same
        exact first ▸ List.mem_cons_self ..
    · exact acting handled old apart named
  | @downlinked p pingMessage now c frame rest client here first acted =>
    refine ⟨ruled.configured,fun q d found ip named => ?_⟩
    rcases placeAt found with ⟨rfl,rfl⟩ | ⟨_,old⟩
    · obtain ⟨jp,placed⟩ := consistent.placed q c here
      refine (ruled.informed q c here jp placed.named).moves placed consistent.sound acted ?_ (fun f member => first ▸ List.mem_cons_of_mem _ member)
        (fun m _ _ same => ?_) named
      · rw [first]; rfl
      · cases same; exact first ▸ List.mem_cons_self ..
    · exact ruled.informed q d old ip named
  | @member p e c client here apart acted =>
    refine ⟨ruled.configured,fun q d found ip named => ?_⟩
    rcases placeAt found with ⟨rfl,rfl⟩ | ⟨_,old⟩
    · obtain ⟨jp,placed⟩ := consistent.placed q c here
      refine (ruled.informed q c here jp placed.named).moves placed consistent.sound acted ?_ (fun f member => member)
        (fun m _ _ same => ?_) named
      · cases e <;> first | rfl | contradiction
      · subst same; contradiction
    · exact ruled.informed q d old ip named

def rulesFor (routes : List SysRoute) (ip : IP4) : List SysRoute :=
  routes.filter fun rt => RoutePush.Contains rt ip ∧ rt.next ≠ ip

def entryOf (rt : SysRoute) : SysRouteEntry := ⟨rt.dst.net,rt.dst.mask,rt.next⟩

def hop (routes : List SysRoute) (ip dst : IP4) : IP4 :=
  match (rulesFor routes ip).find? fun rt => dst &&& rt.dst.mask = rt.dst.net with
  | some rt => rt.next
  | none => IP4.zero

theorem rulingRules (fixed : ∀ rt ∈ routes, rt.dev.host = rt.dev.net) : ruling routes ip = (rulesFor routes ip).map entryOf := by
  rw [ruling,RoutePush.matchingRules fixed,away,List.filter_map,List.filter_filter,rulesFor]
  refine congrArg (List.map entryOf) (List.filter_congr fun rt _ => ?_)
  simp [Bool.and_comm]

theorem hopMatched {tun : Tun} (table : tun.sysRtTable = (rulesFor routes ip).map entryOf) (dst : IP4) : tun.nextHop dst = hop routes ip dst := by
  have found : tun.matching dst = ((rulesFor routes ip).find? fun rt => dst &&& rt.dst.mask = rt.dst.net).map entryOf := by
    rw [Tun.matching,table,List.find?_map]
    rfl
  rw [Tun.nextHop,found,hop]
  cases (rulesFor routes ip).find? fun rt => decide (dst &&& rt.dst.mask = rt.dst.net) with
  | none => rfl
  | some rt => rfl

theorem owedLater (told : owed ip c = [] ∨ owed ip c = ruling routes ip) :
    ∃ later, ruling routes ip = c.client.core.tun.sysRtTable ++ later := by
  rcases told with none | all
  · exact ⟨_,by rw [(List.append_eq_nil_iff.mp none).1]; rfl⟩
  · exact ⟨_,all.symm⟩

end

theorem ruledRun {env : Env} {group : IP4 → Prop} {network : Address} {routes : List SysRoute} {s : State}
    (dotted : ∀ q : IP4, env.ipAddress q.toString = some q)
    (classified : ∀ a, Server.Walked network a → ∀ dst, Server.isBroadcast a dst = true → group dst) {password : Bytes} {events : List Event}
    (run : Run (step env) (initial password network routes) events s) : Consistent env network group s ∧ Ruled env routes s := by
  have start : Consistent env network group (initial password network routes) := consistentRun dotted classified .nil
  have empty : Ruled env routes (initial password network routes) := ⟨.inl rfl,fun p c found => by contradiction⟩
  exact @Run.invariant _ _ _ _ (fun s => Consistent env network group s ∧ Ruled env routes s) ⟨start,empty⟩
    (fun _ _ _ both stepped => ⟨consistentStep dotted classified both.1 stepped,ruledStep both.1 both.2 stepped⟩) _ _ run

theorem rulesFollowed (env : Env) (dotted : ∀ q : IP4, env.ipAddress q.toString = some q) (password sdwan : Bytes) (dhcp : Address)
    (routes : List SysRoute) (fatal : Option (String × Bytes)) (read : RoutePush.setSdwan env.ipAddress sdwan = some (routes,fatal))
    (events : List Event) (s : State) (run : Run (step env) (initial password dhcp routes) events s) :
    ∀ p c, s.sessions p = some c → ∃ ip, HasAddress env c ip ∧
      (∃ later, (rulesFor routes ip).map entryOf = c.client.core.tun.sysRtTable ++ later) ∧
      (s.server.running = true → s.server.ipCtxMap.lookup ip = some p →
        c.client.core.tun.sysRtTable ++ away ip (awaited c) = (rulesFor routes ip).map entryOf ∧
        (awaited c = [] → ∀ dst, c.client.core.tun.nextHop dst = hop routes ip dst)) := by
  have group : ∀ a, Server.Walked dhcp a → ∀ dst, Server.isBroadcast a dst = true → (fun _ : IP4 => True) dst := fun _ _ _ _ => trivial
  obtain ⟨consistent,ruled⟩ := ruledRun dotted group run
  have fixed : ∀ rt ∈ routes, rt.dev.host = rt.dev.net := fun rt member => (RoutePush.sdwanFixed _ _ _ _ read rt member).1
  intro p c here
  obtain ⟨ip,placed⟩ := consistent.placed p c here
  have informed := ruled.informed p c here ip placed.named
  refine ⟨ip,⟨placed.named,placed.located.core⟩,?_,fun running found => ?_⟩
  · rw [← rulingRules fixed]
    exact owedLater informed.told
  · have all := informed.settled running ip found
    rw [rulingRules fixed] at all
    refine ⟨all,fun arrived dst => hopMatched ?_ dst⟩
    rwa [owed,arrived,away,List.filter_nil,List.append_nil] at all

/- A rule for the pool that leads to the second address, which only the first member keeps. -/
def sdwan : Bytes := ascii "10.0.0.0/24,192.168.7.0/24,10.0.0.2"
def branch : SysRoute := ⟨⟨⟨10,0,0,0⟩,⟨255,255,255,0⟩⟩,⟨⟨192,168,7,0⟩,⟨255,255,255,0⟩⟩,⟨10,0,0,2⟩⟩

def informed : List Event := joined ++ [.downlinked 0 [] 0,.member 0 (.tunQueue 0),.downlinked 1 [] 0,.member 1 (.tunQueue 0)]

theorem sdwanRead : RoutePush.setSdwan quadEnv.ipAddress sdwan = some ([branch],none) := by
  have first : RoutePush.WellFormed Address.dottedQuad sdwan branch :=
    ⟨ascii "10.0.0.0/24",ascii "192.168.7.0/24",ascii "10.0.0.2",[],by decide +kernel,⟨by decide +kernel,by decide⟩,
      ⟨by decide +kernel,by decide⟩,by decide +kernel⟩
  have start : RoutePush.getline sdwan RoutePush.semicolon = some (sdwan,[]) := by decide +kernel
  have last : RoutePush.setSdwan Address.dottedQuad [] = some ([],none) := by rw [RoutePush.setSdwan]; rfl
  have parser : quadEnv.ipAddress = Address.dottedQuad := rfl
  rw [parser,RoutePush.ruleRead start first,last]
  rfl

theorem informedFollow : ∃ s c, Run (step quadEnv) (initial [] pool [branch]) informed s ∧ s.sessions 0 = some c ∧
    c.client.core.tun.nextHop ⟨192,168,7,9⟩ = ⟨10,0,0,2⟩ ∧ ∃ ip, HasAddress quadEnv c ip ∧
      (∃ later, (rulesFor [branch] ip).map entryOf = c.client.core.tun.sysRtTable ++ later) ∧
      (s.server.running = true → s.server.ipCtxMap.lookup ip = some 0 →
        c.client.core.tun.sysRtTable ++ away ip (awaited c) = (rulesFor [branch] ip).map entryOf ∧
        (awaited c = [] → ∀ dst, c.client.core.tun.nextHop dst = hop [branch] ip dst)) := by
  have outcome : (execute (handle quadEnv) (initial [] pool [branch]) informed).map (fun s => (s.sessions 0).map fun c =>
      c.client.core.tun.nextHop ⟨192,168,7,9⟩) = some (some ⟨10,0,0,2⟩) := by decide +kernel
  obtain ⟨s,ok,same⟩ := Option.map_eq_some_iff.mp outcome
  obtain ⟨c,here,next⟩ := Option.map_eq_some_iff.mp same
  have run : Run (step quadEnv) (initial [] pool [branch]) informed s := executeRun (fun _ _ _ taken => taken) ok
  exact ⟨s,c,run,here,next,rulesFollowed quadEnv quadDotted [] sdwan pool [branch] none sdwanRead informed s run 0 c here⟩

end Candy.Vpn
