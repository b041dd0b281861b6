import Candy.Runs
import Candy.ServerRelays
import Candy.Vpn

/-! One login a member. Whatever the members, the server and the network between peers
do, a session has at most one frame under way that can log it in: its AUTH frame, its
request for an address, or the answer. Once it is spent, the server, the client and its
modules have one address for the member, and no other connection has it. -/
namespace Candy.Vpn
open WsMsg Modules Runs
open ClientQueues (Core Module Item Sent Config framesOf Located Unlocated Admits Untold LoginFrame Remains)
open Server (Ptr Admitted destination Sound RegistryValid NoStaleSend)

def asks (frame : Bytes) : Bool := byteAt frame 0 = Kind.EXPTTUN
def logs (frame : Bytes) : Bool := LoginFrame frame

/- The frames under way that log in, or lead to one that does. -/
def tokens (c : Session) : Nat := c.up.countP logs + c.down.countP asks

structure Placed (env : Env) (group : IP4 → Prop) (s : Server.State) (p : Ptr) (c : Session) (ip : IP4) : Prop where
  taken : c.taken ≤ (framesOf c.client.sent).length
  single : tokens c ≤ 1
  named : ∃ a, WsClient.address (env.client c.cfg).ws c.client.core.ws.tunCidr = some a ∧ a.host = ip
  own : ∀ f ∈ c.up, byteAt f 0 = Kind.AUTH → Auth.ip f = ip
  located : Allowed (Located ip) (Admits (env.client c.cfg) ip group) c.client
  waiting : (∃ f, (f ∈ c.up ∨ f ∈ c.down) ∧ asks f = true) → Allowed Unlocated Untold c.client
  unsettled : 0 < tokens c → ∀ f ∈ c.down, destination f = none
  addressed : ∀ f ∈ c.down, ∀ dst, destination f = some dst → dst = ip ∨ group dst
  logged : Admitted s p → (s.mem p).ip = ip ∧ tokens c = 0

structure Consistent (env : Env) (network : Address) (group : IP4 → Prop) (s : State) : Prop where
  sound : Sound s.server
  walked : Server.Walked network s.server.dhcp
  present : ∀ p, s.server.calls p ≠ none → ∃ c, s.sessions p = some c
  placed : ∀ p c, s.sessions p = some c → ∃ ip, Placed env group s.server p c ip

section
variable {env : Env} {group : IP4 → Prop} {network : Address} {s t : Server.State} {p q : Ptr} {c : Session} {ip : IP4}

theorem destinationForward {frame : Bytes} (kind : byteAt frame 0 = Kind.FORWARD) :
    destination frame = some (Forward.daddr frame) := by simp only [destination,kind,if_true]

theorem destinationPlain {frame : Bytes} {dst : IP4} (known : destination frame = some dst) : asks frame = false := by
  by_contra asked
  have kind : byteAt frame 0 = Kind.EXPTTUN := by simpa [asks] using asked
  simp [destination,kind,Kind.EXPTTUN,Kind.FORWARD,Kind.UDP4CONN,Kind.DISCOVERY,Kind.GENERAL] at known

theorem asksLogs {frame : Bytes} (asked : asks frame = true) : logs frame = true := decide_eq_true (.inr (by simpa [asks] using asked))

theorem tokenWaiting (waiting : ∃ f, (f ∈ c.up ∨ f ∈ c.down) ∧ asks f = true) : 0 < tokens c := by
  obtain ⟨f,inside,asked⟩ := waiting
  unfold tokens
  rcases inside with up | down
  · have := List.countP_pos_iff.mpr ⟨f,up,asksLogs asked⟩
    omega
  · have := List.countP_pos_iff.mpr ⟨f,down,asked⟩
    omega

theorem Placed.serve (placed : Placed env group s p c ip) {taken : Nat} {extra : List Bytes}
    (room : taken ≤ (framesOf c.client.sent).length) (up : ∀ f ∈ (framesOf c.client.sent).drop taken, f ∈ c.up)
    (fewer : tokens {c with taken := taken,down := c.down ++ extra} ≤ tokens c)
    (offers : ∀ f ∈ extra, asks f = true → ∃ g ∈ c.up, asks g = true)
    (passes : ∀ f ∈ extra, ∀ dst, destination f = some dst → tokens c = 0 ∧ (dst = ip ∨ group dst))
    (logged : Admitted t p → (t.mem p).ip = ip ∧ tokens {c with taken := taken,down := c.down ++ extra} = 0) :
    Placed env group t p {c with taken := taken,down := c.down ++ extra} ip where
  taken := room
  single := fewer.trans placed.single
  named := placed.named
  own f member := placed.own f (up f member)
  located := placed.located
  waiting := by
    rintro ⟨f,inside,asked⟩
    refine placed.waiting ?_
    rcases inside with member | member
    · exact ⟨f,.inl (up f member),asked⟩
    · rcases List.mem_append.mp member with old | new
      · exact ⟨f,.inr old,asked⟩
      · obtain ⟨g,inside,asked⟩ := offers f new asked
        exact ⟨g,.inl inside,asked⟩
  unsettled some f member := by
    have before : 0 < tokens c := lt_of_lt_of_le some fewer
    rcases List.mem_append.mp member with old | new
    · exact placed.unsettled before f old
    · cases known : destination f with
      | none => rfl
      | some dst => exact absurd (passes f new dst known).1 (by omega)
  addressed f member dst known := by
    rcases List.mem_append.mp member with old | new
    · exact placed.addressed f old dst known
    · exact (passes f new dst known).2
  logged := logged

theorem sessionUp (c : Session) : {c with taken := c.taken,down := c.down ++ []} = c := by
  rw [List.append_nil]

theorem Placed.unserved (placed : Placed env group s p c ip) (before : Admitted t p → Admitted s p ∧ (t.mem p).ip = (s.mem p).ip) :
    Placed env group t p c ip := by
  have next : Placed env group t p {c with taken := c.taken,down := c.down ++ []} ip := placed.serve placed.taken
    (fun f member => member) (by rw [sessionUp]) (by simp) (by simp) (by
      intro admitted
      obtain ⟨was,same⟩ := before admitted
      rw [sessionUp,same]
      exact placed.logged was)
  rwa [sessionUp] at next

theorem countNone {frames : List Bytes} {f : Bytes → Bool} (none : ∀ m ∈ frames, f m = false) : frames.countP f = 0 :=
  List.countP_eq_zero.mpr fun m member => by simp [none m member]

theorem registeredAdmitted (sound : Sound s) (found : s.ipCtxMap.lookup ip = some p) : Admitted s p :=
  ⟨sound.valid.connected ip p found,.inr (.inr ⟨ip,found⟩)⟩

theorem Placed.passes (placed : Placed env group s p c ip) (sound : Sound s) (walked : Server.Walked network s.dhcp)
    (classified : ∀ a, Server.Walked network a → ∀ dst, Server.isBroadcast a dst = true → group dst) {frame m : Bytes}
    (passed : Server.Passed s frame p m) : ∀ dst, destination m = some dst → tokens c = 0 ∧ (dst = ip ∨ group dst) := by
  obtain ⟨rfl,jp,dst,found,known,target⟩ := passed
  intro other known'
  cases known.symm.trans known'
  obtain ⟨address,spent⟩ := placed.logged (registeredAdmitted sound found)
  refine ⟨spent,target.imp (fun same => ?_) (classified _ walked dst)⟩
  rw [same,← address]
  exact (sound.valid.address jp p found).symm

theorem Placed.beside (placed : Placed env group s q c ip) (sound : Sound s) (walked : Server.Walked network s.dhcp)
    (classified : ∀ a, Server.Walked network a → ∀ dst, Server.isBroadcast a dst = true → group dst) (apart : q ≠ p)
    {frame : Bytes} {now : BitVec 64} {sent : List Server.Effect}
    (handled : Server.handle env.server s (.received p frame now) = some (t,sent)) :
    Placed env group t q {c with down := c.down ++ sentTo q sent} ip := by
  have passes : ∀ f ∈ sentTo q sent, asks f = false ∧ ∀ dst, destination f = some dst → tokens c = 0 ∧ (dst = ip ∨ group dst) := by
    intro f member
    cases Server.receivedSends handled with
    | passed each =>
      have passed := each q f (sentToMember.mp member)
      obtain ⟨_,dst,_,known,_⟩ := passed.target
      exact ⟨destinationPlain (passed.same ▸ known),placed.passes sound walked classified passed⟩
    | answered asked kind =>
      have here := sentToMember.mp member
      cases List.mem_singleton.mp here
      exact absurd rfl apart
  have same : tokens {c with taken := c.taken,down := c.down ++ sentTo q sent} = tokens c := by
    have none := countNone fun f member => (passes f member).1
    change c.up.countP logs + (c.down ++ sentTo q sent).countP asks = _
    rw [List.countP_append,none]
    rfl
  refine placed.serve placed.taken (fun f member => member) (le_of_eq same) (fun f member asked => ?_)
    (fun f member => (passes f member).2) fun admitted => ?_
  · rw [(passes f member).1] at asked; contradiction
  · rw [same]
    rcases Server.admittedStep sound ⟨sent,handled⟩ admitted with ⟨_,_,_,event,_⟩ | ⟨was,address⟩
    · cases event; exact absurd rfl apart
    · rw [address]; exact placed.logged was

theorem Placed.serves (placed : Placed env group s p c ip) (sound : Sound s) (walked : Server.Walked network s.dhcp)
    (classified : ∀ a, Server.Walked network a → ∀ dst, Server.isBroadcast a dst = true → group dst)
    {frame : Bytes} {rest : List Bytes} {now : BitVec 64} {sent : List Server.Effect} (first : c.up = frame::rest)
    (handled : Server.handle env.server s (.received p frame now) = some (t,sent)) :
    Placed env group t p {c with taken := c.taken + 1,down := c.down ++ sentTo p sent} ip := by
  have later : (framesOf c.client.sent).drop (c.taken + 1) = rest := by
    rw [← List.drop_drop]
    change c.up.drop 1 = rest
    rw [first]
    rfl
  have room : c.taken + 1 ≤ (framesOf c.client.sent).length := by
    have long : (framesOf c.client.sent).length - c.taken = rest.length + 1 := by
      rw [← List.length_drop]
      exact congrArg List.length first
    omega
  have count : tokens {c with taken := c.taken + 1,down := c.down ++ sentTo p sent} =
      rest.countP logs + (c.down.countP asks + (sentTo p sent).countP asks) := by
    change ((framesOf c.client.sent).drop (c.taken + 1)).countP logs + (c.down ++ sentTo p sent).countP asks = _
    rw [later,List.countP_append]
  have before : tokens c = (if logs frame = true then 1 else 0) + rest.countP logs + c.down.countP asks := by
    rw [tokens,first,List.countP_cons]
    omega
  have up : ∀ f ∈ (framesOf c.client.sent).drop (c.taken + 1), f ∈ c.up := by
    intro f member
    rw [later] at member
    exact first ▸ List.mem_cons_of_mem _ member
  have admitted : Admitted t p → (∃ jp, byteAt frame 0 = Kind.AUTH ∧ jp = Auth.ip frame ∧ (t.mem p).ip = jp) ∨
      Admitted s p ∧ (t.mem p).ip = (s.mem p).ip := by
    intro admitted
    rcases Server.admittedStep sound ⟨sent,handled⟩ admitted with ⟨_,_,jp,event,login,address⟩ | kept
    · cases event
      obtain ⟨kind,same⟩ := Server.loginKind login
      exact .inl ⟨jp,kind,same,address⟩
    · exact .inr kept
  cases Server.receivedSends handled with
  | passed each =>
    have passes : ∀ f ∈ sentTo p sent, asks f = false ∧ ∀ dst, destination f = some dst → tokens c = 0 ∧ (dst = ip ∨ group dst) := by
      intro f member
      have passed := each p f (sentToMember.mp member)
      obtain ⟨_,dst,_,known,_⟩ := passed.target
      exact ⟨destinationPlain (passed.same ▸ known),placed.passes sound walked classified passed⟩
    have none := countNone fun f member => (passes f member).1
    refine placed.serve room up (by omega) (fun f member asked => ?_) (fun f member => (passes f member).2) fun now => ?_
    · rw [(passes f member).1] at asked; contradiction
    · rcases admitted now with ⟨jp,kind,same,address⟩ | ⟨was,address⟩
      · have token : logs frame = true := decide_eq_true (.inl kind)
        have single := placed.single
        rw [if_pos token] at before
        refine ⟨?_,by omega⟩
        rw [address,same]
        exact placed.own frame (first ▸ List.mem_cons_self ..) kind
      · obtain ⟨here,spent⟩ := placed.logged was
        exact ⟨address.trans here,by omega⟩
  | @answered m asked kind =>
    have token : logs frame = true := asksLogs (by simpa [asks] using asked)
    have one : (sentTo p [.send p m]).countP asks ≤ 1 := List.countP_le_length.trans (List.length_filterMap_le ..)
    rw [if_pos token] at before
    refine placed.serve room up (by omega) (fun f _ _ => ⟨frame,first ▸ List.mem_cons_self ..,by simpa [asks] using asked⟩)
      (fun f member dst known => ?_) fun now => ?_
    · have same := sentToMember.mp member
      cases List.mem_singleton.mp same
      have plain := destinationPlain known
      simp [asks,kind] at plain
    · rcases admitted now with ⟨_,other,_,_⟩ | ⟨was,_⟩
      · exact absurd (asked.symm.trans other) (by decide)
      · have := (placed.logged was).2
        omega

theorem Placed.pushed (placed : Placed env group s q c ip) (sound : Sound s) {e : Server.Event} {sent : List Server.Effect}
    (other : ∀ p frame now, e ≠ .received p frame now) (handled : Server.handle env.server s e = some (t,sent)) :
    Placed env group t q {c with down := c.down ++ sentTo q sent} ip := by
  have route : ∀ f ∈ sentTo q sent, asks f = false ∧ destination f = none := by
    intro f member
    have kind := Server.otherSends handled other (sentToMember.mp member)
    exact ⟨by rw [asks,kind]; rfl,by rw [destination,kind]; rfl⟩
  have same : tokens {c with taken := c.taken,down := c.down ++ sentTo q sent} = tokens c := by
    have none := countNone fun f member => (route f member).1
    change c.up.countP logs + (c.down ++ sentTo q sent).countP asks = _
    rw [List.countP_append,none]
    rfl
  refine placed.serve placed.taken (fun f member => member) (le_of_eq same) (fun f member asked => ?_)
    (fun f member dst known => ?_) fun admitted => ?_
  · rw [(route f member).1] at asked; contradiction
  · rw [(route f member).2] at known; contradiction
  · rw [same]
    rcases Server.admittedStep sound ⟨sent,handled⟩ admitted with ⟨_,_,_,event,_⟩ | ⟨was,address⟩
    · exact absurd event (other _ _ _)
    · rw [address]; exact placed.logged was

theorem upAppend {client : Client} {more : List Bytes} (room : c.taken ≤ (framesOf c.client.sent).length)
    (frames : framesOf client.sent = framesOf c.client.sent ++ more) (down : List Bytes) :
    (⟨c.cfg,client,c.taken,down⟩ : Session).up = c.up ++ more := by
  rw [Session.up,frames,List.drop_append_of_le_length room]
  rfl

theorem Placed.moves (placed : Placed env group s p c ip) (dotted : ∀ q : IP4, env.ipAddress q.toString = some q)
    {e : ClientQueues.Event} {client : Client} {down : List Bytes}
    (stepped : (ClientQueues.client (env.client c.cfg)).step c.client e client)
    (fewer : ∀ f ∈ down, f ∈ c.down) (count : down.countP asks = c.down.countP asks)
    (frames : ∀ m pingMessage now, e = .frame m pingMessage now → m ∈ c.down ∧ asks m = false) :
    Placed env group s p {c with client := client,down := down} ip := by
  have remains := ClientQueues.remainsStep placed.located stepped
    (fun m pingMessage now event kind => by
      have := (frames m pingMessage now event).2
      simp [asks,kind] at this)
    (fun m pingMessage now event kind => placed.addressed m (frames m pingMessage now event).1 _ (destinationForward kind))
  obtain ⟨more,sent,quiet⟩ := remains.frames
  have up : ({c with client := client,down := down} : Session).up = c.up ++ more := upAppend placed.taken sent down
  have silent : more.countP logs = 0 := countNone fun f member => decide_eq_false (quiet f member)
  have same : tokens {c with client := client,down := down} = tokens c := by
    rw [tokens,up,List.countP_append,silent,count]
    rfl
  refine ⟨?_,by rw [same]; exact placed.single,by rw [remains.ws]; exact placed.named,?_,remains.located,?_,?_,?_,?_⟩
  · rw [sent,List.length_append]
    exact placed.taken.trans (Nat.le_add_right ..)
  · intro f member kind
    rw [up] at member
    rcases List.mem_append.mp member with old | new
    · exact placed.own f old kind
    · exact absurd (.inl kind) (quiet f new)
  · rintro ⟨f,inside,asked⟩
    have before : ∃ f, (f ∈ c.up ∨ f ∈ c.down) ∧ asks f = true := by
      refine ⟨f,?_,asked⟩
      rw [up] at inside
      rcases inside with member | member
      · rcases List.mem_append.mp member with old | new
        · exact .inl old
        · exact absurd (of_decide_eq_true (asksLogs asked)) (quiet f new)
      · exact .inr (fewer f member)
    have waits : ClientQueues.Waits (env.client c.cfg) group c.client e client :=
      ClientQueues.waitsStep dotted (placed.waiting before) stepped fun m pingMessage now event kind => by
        have none := placed.unsettled (tokenWaiting before) m (frames m pingMessage now event).1
        rw [destinationForward kind] at none
        contradiction
    cases waits with
    | still allowed => exact allowed
    | answered event kind =>
      have := (frames _ _ _ event).2
      simp [asks,kind] at this
  · intro some f member
    rw [same] at some
    exact placed.unsettled some f (fewer f member)
  · exact fun f member => placed.addressed f (fewer f member)
  · intro admitted
    rw [same]
    exact placed.logged admitted

theorem Placed.answers (placed : Placed env group s p c ip) (dotted : ∀ q : IP4, env.ipAddress q.toString = some q)
    {m pingMessage : Bytes} {now : BitVec 64} {client : Client} {rest : List Bytes} (first : c.down = m::rest) (asked : asks m = true)
    (stepped : (ClientQueues.client (env.client c.cfg)).step c.client (.frame m pingMessage now) client) :
    ∃ jp, Placed env group s p {c with client := client,down := rest} jp := by
  have kind : byteAt m 0 = Kind.EXPTTUN := by simpa [asks] using asked
  have waiting : ∃ f, (f ∈ c.up ∨ f ∈ c.down) ∧ asks f = true := ⟨m,.inr (first ▸ List.mem_cons_self ..),asked⟩
  have some := tokenWaiting waiting
  have count : tokens c = c.up.countP logs + rest.countP asks + 1 := by
    rw [tokens,first,List.countP_cons,if_pos asked]
    omega
  have single := placed.single
  have up : ∀ f ∈ c.up, logs f = false := fun f member =>
    Bool.eq_false_iff.mpr (List.countP_eq_zero.mp (by omega : c.up.countP logs = 0) f member)
  have later : ∀ f ∈ rest, asks f = false := fun f member =>
    Bool.eq_false_iff.mpr (List.countP_eq_zero.mp (by omega : rest.countP asks = 0) f member)
  have inside : ∀ f ∈ rest, f ∈ c.down := fun f member => first ▸ List.mem_cons_of_mem _ member
  have unforwarded : ∀ m' pingMessage' now', ClientQueues.Event.frame m pingMessage now = .frame m' pingMessage' now' →
      byteAt m' 0 ≠ Kind.FORWARD := by
    intro m' _ _ event forward
    cases event
    exact absurd (kind.symm.trans forward) (by decide)
  have waits : ClientQueues.Waits (env.client c.cfg) group c.client (.frame m pingMessage now) client :=
    ClientQueues.waitsStep dotted (placed.waiting waiting) stepped unforwarded
  cases waits with
  | still allowed ws frames =>
    obtain ⟨more,sent,quiet⟩ := frames
    have sentUp : ({c with client := client,down := rest} : Session).up = c.up ++ more := upAppend placed.taken sent rest
    have silent : more.countP logs = 0 := countNone fun f member => decide_eq_false (quiet f member)
    have none : tokens {c with client := client,down := rest} = 0 := by
      rw [tokens,sentUp,List.countP_append,silent]
      change c.up.countP logs + 0 + rest.countP asks = 0
      omega
    refine ⟨ip,?_,by omega,by rw [ws]; exact placed.named,?_,?_,fun _ => allowed,fun some => by omega,?_,?_⟩
    · rw [sent,List.length_append]
      exact placed.taken.trans (Nat.le_add_right ..)
    · intro f member own
      rw [sentUp] at member
      rcases List.mem_append.mp member with old | new
      · exact placed.own f old own
      · exact absurd (.inl own) (quiet f new)
    · exact allowed.mono (fun here => here.located) fun _ => ClientQueues.untoldAdmits
    · exact fun f member => placed.addressed f (inside f member)
    · exact fun admitted => ⟨(placed.logged admitted).1,none⟩
  | @answered _ _ _ tunCidr a event _ ws named located frames =>
    cases event
    have sentUp := upAppend placed.taken frames rest
    have auth := ClientQueues.authFirst (env.client c.cfg).ws c.client.core.ws.password a.host now
    have none : tokens {c with client := client,down := rest} ≤ 1 := by
      rw [tokens]
      change ((⟨c.cfg,client,c.taken,rest⟩ : Session).up).countP logs + rest.countP asks ≤ 1
      rw [sentUp,List.countP_append]
      have one := List.countP_le_length (p := logs) (l := [WsClient.authFrame (env.client c.cfg).ws c.client.core.ws.password a.host now])
      rw [List.length_singleton] at one
      omega
    have unasked : ¬ ∃ f, (f ∈ (⟨c.cfg,client,c.taken,rest⟩ : Session).up ∨ f ∈ rest) ∧ asks f = true := by
      rintro ⟨f,member | member,asks_⟩
      · rw [sentUp] at member
        rcases List.mem_append.mp member with old | new
        · have := up f old
          rw [asksLogs asks_] at this
          contradiction
        · rw [List.mem_singleton.mp new,asks,auth] at asks_
          exact absurd asks_ (by decide)
      · rw [later f member] at asks_
        contradiction
    refine ⟨a.host,?_,none,⟨a,by rw [ws]; exact named,rfl⟩,?_,located,fun waits => absurd waits unasked,
      fun _ f member => placed.unsettled some f (inside f member),?_,?_⟩
    · rw [frames,List.length_append]
      exact placed.taken.trans (Nat.le_add_right ..)
    · intro f member own
      change f ∈ (⟨c.cfg,client,c.taken,rest⟩ : Session).up at member
      rw [sentUp] at member
      rcases List.mem_append.mp member with old | new
      · have := up f old
        rw [logs,decide_eq_false_iff_not] at this
        exact absurd (.inl own) this
      · rw [List.mem_singleton.mp new]
        exact ClientQueues.authIp _ _ _ _
    · intro f member dst known
      rw [placed.unsettled some f (inside f member)] at known
      contradiction
    · intro admitted
      have := (placed.logged admitted).2
      omega

theorem startPlaced (dotted : ∀ q : IP4, env.ipAddress q.toString = some q) {cfg : Config} {pingMessage : Bytes} {now : BitVec 64}
    {client : Client} (begun : ClientQueues.start (env.client cfg) cfg pingMessage now = some client) (fresh : ¬ Admitted s p) :
    ∃ ip, Placed env group s p ⟨cfg,client,0,[]⟩ ip := by
  have starts : ClientQueues.Starts (env.client cfg) group cfg client := ClientQueues.startStarts dotted begun
  cases starts with
  | @named a vmac auth ws named located frames other kind ip =>
    have up : (⟨cfg,client,0,[]⟩ : Session).up = [vmac,auth] := frames
    have unasked : ¬ ∃ f, (f ∈ (⟨cfg,client,0,[]⟩ : Session).up ∨ f ∈ ([] : List Bytes)) ∧ asks f = true := by
      rw [up]
      rintro ⟨f,member | member,asks_⟩
      · simp only [List.mem_cons,List.not_mem_nil,or_false] at member
        rcases member with rfl | rfl
        · exact other (of_decide_eq_true (asksLogs asks_))
        · rw [asks,kind] at asks_
          exact absurd asks_ (by decide)
      · contradiction
    refine ⟨a.host,Nat.zero_le _,?_,⟨a,by rw [ws]; exact named,rfl⟩,?_,located,fun waits => absurd waits unasked,by simp,by simp,
      fun admitted => absurd admitted fresh⟩
    · rw [tokens,up]
      have : logs vmac = false := decide_eq_false other
      simp [this]
      split <;> omega
    · intro f member own
      rw [up] at member
      simp only [List.mem_cons,List.not_mem_nil,or_false] at member
      rcases member with rfl | rfl
      · exact absurd (.inl own) other
      · exact ip
  | @asking vmac request ws unnamed unlocated frames other kind =>
    have up : (⟨cfg,client,0,[]⟩ : Session).up = [vmac,request] := frames
    have address : WsClient.address (env.client cfg).ws cfg.tunCidr = some ⟨IP4.zero,IP4.zero⟩ := by rw [unnamed]; rfl
    refine ⟨IP4.zero,Nat.zero_le _,?_,⟨_,by rw [ws]; exact address,rfl⟩,?_,
      unlocated.mono (fun here => here.located) fun _ => ClientQueues.untoldAdmits,fun _ => unlocated,by simp,by simp,
      fun admitted => absurd admitted fresh⟩
    · rw [tokens,up]
      have : logs vmac = false := decide_eq_false other
      simp [this]
      split <;> omega
    · intro f member own
      rw [up] at member
      simp only [List.mem_cons,List.not_mem_nil,or_false] at member
      rcases member with rfl | rfl
      · exact absurd (.inl own) other
      · exact absurd (own.symm.trans kind) (by decide)

end
end Candy.Vpn
