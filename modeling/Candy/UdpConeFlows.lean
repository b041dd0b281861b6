import Candy.UdpCone

/-! One socket, one session. Every step is the step of one session: what the others
have to do, what they have received and sent, and the sockets they dialled stay as
they are, however descriptors are reused. So what leaves through a socket is what its
source sent, and what a source is given has arrived at its own socket. A session whose
dial failed is never reached by a step. -/
namespace Candy.UdpCone
open Runs Shares
open State (received)

/- A session with its part of the two queues and of what has happened. -/
structure View where
  c : SessionUdp
  stack : List StackTask
  reactor : List ReactorTask
  unread : List Datagram
  heard : List Datagram
  sent : List (Datagram × Bool)
  arrived : List Datagram
  injected : List (Datagram × Bool)

def State.unread (s : State) (c : SessionUdp) : List Datagram := ((c.fd.bind s.sockets).map Socket.inbox).getD []

def State.view (s : State) (id : Id) (c : SessionUdp) : View :=
  ⟨c,part id s.stackTasks,part id s.reactorTasks,s.unread c,s.heard id,s.sent id,s.arrived id,s.injected id⟩

def sends (tasks : List ReactorTask) : List Datagram := tasks.filterMap fun
  | .sendTo m => some m
  | _ => none

def replies (tasks : List StackTask) : List Datagram := tasks.filterMap fun
  | .replyToLwip m => some m
  | .closeFromStack => none

def full (l : List Datagram) : List Datagram := l.filter fun m => m.data ≠ []

def tried (l : List (Datagram × Bool)) : List Datagram := l.map Prod.fst

structure Good (v : View) : Prop where
  added : ∀ fd, .add fd ∈ v.reactor → v.c.fd = some fd ∧ (∃ rest, v.reactor = .add fd::rest ∧ ∀ fd', .add fd' ∉ rest) ∧
    .closeFromStack ∉ v.stack ∧ .closeFromReactor ∉ v.reactor
  live : v.c.closing = false → v.c.pcb = true ∧ v.c.fd.isSome
  alive : v.c.self = v.c.fd.isSome
  shutting : v.c.closing = true → v.c.fd.isSome → .shutdown ∈ v.reactor
  ending : .closeFromStack ∈ v.stack ∨ .closeFromReactor ∈ v.reactor ∨ .shutdown ∈ v.reactor → v.c.closing = true
  removed : .shutdown ∈ v.reactor → v.c.pcb = false
  held : v.c.pcb = true → v.c.self = true ∨ .closeFromStack ∈ v.stack
  forth : tried v.sent <+: v.heard
  forthAll : v.c.closing = false → tried v.sent ++ sends v.reactor = v.heard
  back : tried v.injected <+: full v.arrived
  backMore : v.c.pcb = true → tried v.injected ++ replies v.stack ++ full v.unread <+: full v.arrived
  backAll : v.c.closing = false → tried v.injected ++ replies v.stack ++ full v.unread = full v.arrived

namespace Good
variable {v : View}

@[simp] theorem sendsAppend (l more : List ReactorTask) : sends (l ++ more) = sends l ++ sends more := List.filterMap_append

@[simp] theorem repliesAppend (l more : List StackTask) : replies (l ++ more) = replies l ++ replies more := List.filterMap_append

@[simp] theorem repliesAll (l : List Datagram) : replies (l.map .replyToLwip) = l := by
  rw [replies,List.filterMap_map]
  exact List.filterMap_some

@[simp] theorem fullAppend (l more : List Datagram) : full (l ++ more) = full l ++ full more := List.filter_append ..

@[simp] theorem triedAppend (l more : List (Datagram × Bool)) : tried (l ++ more) = tried l ++ tried more := List.map_append

@[simp] theorem triedOne (m : Datagram) (went : Bool) : tried [(m,went)] = [m] := rfl

theorem receivedFull (l : List Datagram) : (received l).1 ++ full (received l).2 = full l := by
  induction l with
  | nil => rfl
  | cons m rest ih =>
    by_cases empty : m.data = []
    · simp [received,full,empty]
    · simp only [received,empty,if_false,List.cons_append,ih]
      simp [full,empty]

theorem active (good : Good v) (now : Int) : Good {v with c := {v.c with lastActiveTs := now}} :=
  ⟨good.added,good.live,good.alive,good.shutting,good.ending,good.removed,good.held,good.forth,
    good.forthAll,good.back,good.backMore,good.backAll⟩

theorem hear (good : Good v) (m : Datagram) :
    Good {v with reactor := v.reactor ++ [.sendTo m],heard := v.heard ++ [m]} where
  added fd pending := by
    obtain ⟨has,⟨rest,first,unadded⟩,unended⟩ := good.added fd (by simpa using pending)
    refine ⟨has,⟨rest ++ [.sendTo m],?_,?_⟩,?_⟩
    · simp only [first,List.cons_append]
    · simpa using unadded
    · simpa using unended
  live := good.live
  alive := good.alive
  shutting closing has := List.mem_append_left _ (good.shutting closing has)
  ending pending := good.ending (by simpa using pending)
  removed pending := good.removed (by simpa using pending)
  held := good.held
  forth := good.forth.trans (List.prefix_append ..)
  forthAll closing := by
    rw [sendsAppend,← List.append_assoc,good.forthAll closing]
    rfl
  back := good.back
  backMore := good.backMore
  backAll := good.backAll

theorem reply (good : Good v) {m : Datagram} {rest : List StackTask} (first : v.stack = .replyToLwip m::rest) (given : Bool)
    {injected : List (Datagram × Bool)}
    (out : injected = v.injected ++ [(m,given)] ∧ v.c.pcb = true ∨ injected = v.injected ∧ v.c.pcb = false) :
    Good {v with stack := rest,injected := injected} := by
  have shorter {task : StackTask} (there : task ∈ rest) : task ∈ v.stack := first ▸ List.mem_cons_of_mem _ there
  have next : tried v.injected ++ replies v.stack = tried (v.injected ++ [(m,given)]) ++ replies rest := by
    simp [first,replies]
  constructor
  case added =>
    intro fd adds
    obtain ⟨has,head,ends,ended⟩ := good.added fd adds
    exact ⟨has,head,fun there => ends (shorter there),ended⟩
  case live => exact good.live
  case alive => exact good.alive
  case shutting => exact good.shutting
  case ending => exact fun any => good.ending (any.imp_left shorter)
  case removed => exact good.removed
  case held => exact fun pcb => (good.held pcb).imp_right fun there => by simpa [first] using there
  case forth => exact good.forth
  case forthAll => exact good.forthAll
  case back =>
    rcases out with ⟨rfl,pcb⟩ | ⟨rfl,_⟩
    · have more := good.backMore pcb
      rw [next,List.append_assoc] at more
      exact (List.prefix_append ..).trans more
    · exact good.back
  case backMore =>
    rcases out with ⟨rfl,pcb⟩ | ⟨rfl,gone⟩
    · exact fun _ => next ▸ good.backMore pcb
    · exact fun pcb => absurd (pcb.symm.trans gone) Bool.noConfusion
  case backAll =>
    rcases out with ⟨rfl,pcb⟩ | ⟨rfl,gone⟩
    · exact fun running => next ▸ good.backAll running
    · exact fun running => absurd ((good.live running).1.symm.trans gone) Bool.noConfusion

theorem closeFromStack (good : Good v) {rest : List StackTask} (first : v.stack = .closeFromStack::rest) :
    Good {v with c := {v.c with pcb := false},stack := rest,reactor := v.reactor ++ [.closeFromReactor]} := by
  have ending : .closeFromStack ∈ v.stack := first ▸ List.mem_cons_self ..
  have closing := good.ending (.inl ending)
  constructor
  case added =>
    intro fd adds
    exact absurd ending (good.added fd (by simpa using adds)).2.2.1
  case live => exact fun running => absurd (running.symm.trans closing) Bool.noConfusion
  case alive => exact good.alive
  case shutting => exact fun closing has => List.mem_append_left _ (good.shutting closing has)
  case ending => exact fun _ => closing
  case removed => exact fun _ => rfl
  case held => exact fun pcb => absurd pcb Bool.noConfusion
  case forth => exact good.forth
  case forthAll => exact fun running => absurd (running.symm.trans closing) Bool.noConfusion
  case back => exact good.back
  case backMore => exact fun pcb => absurd pcb Bool.noConfusion
  case backAll => exact fun running => absurd (running.symm.trans closing) Bool.noConfusion

theorem shutdownFromStack (good : Good v) :
    Good {v with
      c := {v.c with pcb := false,closing := true}
      reactor := if v.c.closing then v.reactor else v.reactor ++ [.shutdown]} where
  added fd adds := by
    split at adds
    · rename_i closing
      simp only [closing,if_true]
      exact good.added fd adds
    · rename_i running
      obtain ⟨has,⟨rest,first,unadded⟩,unended⟩ := good.added fd (by simpa using adds)
      simp only [running]
      refine ⟨has,⟨rest ++ [.shutdown],?_,?_⟩,?_⟩
      · simp [first]
      · simpa using unadded
      · simpa using unended
  live running := absurd running Bool.noConfusion
  alive := good.alive
  shutting _ has := by
    split
    · rename_i closing
      exact good.shutting closing has
    · exact List.mem_append_right _ (List.mem_singleton_self _)
  ending _ := rfl
  removed _ := rfl
  held pcb := absurd pcb Bool.noConfusion
  forth := good.forth
  forthAll running := absurd running Bool.noConfusion
  back := good.back
  backMore pcb := absurd pcb Bool.noConfusion
  backAll running := absurd running Bool.noConfusion

/- An add is the first task, so none is left behind one that is taken out. -/
theorem unadded (good : Good v) {task : ReactorTask} {rest : List ReactorTask} (first : v.reactor = task::rest)
    (fd : Fd) : .add fd ∉ rest := by
  intro there
  obtain ⟨_,⟨rest',head,none⟩,_⟩ := good.added fd (first ▸ List.mem_cons_of_mem _ there)
  obtain ⟨_,rfl⟩ := List.cons.inj (first.symm.trans head)
  exact none fd there

theorem pop (good : Good v) {task : ReactorTask} {rest : List ReactorTask} (first : v.reactor = task::rest)
    (other : task ≠ .shutdown) {sent : List (Datagram × Bool)} (forth : tried sent <+: v.heard)
    (forthAll : v.c.closing = false → tried sent ++ sends rest = v.heard) : Good {v with reactor := rest,sent := sent} where
  added fd adds := absurd adds (good.unadded first fd)
  live := good.live
  alive := good.alive
  shutting closing has := by
    have pending := good.shutting closing has
    rw [first] at pending
    exact (List.mem_cons.mp pending).resolve_left (Ne.symm other)
  ending any := by
    have shorter {task : ReactorTask} (there : task ∈ rest) : task ∈ v.reactor := first ▸ List.mem_cons_of_mem _ there
    exact good.ending (any.imp_right (.imp shorter shorter))
  removed there := good.removed (first ▸ List.mem_cons_of_mem _ there)
  held := good.held
  forth := forth
  forthAll := forthAll
  back := good.back
  backMore := good.backMore
  backAll := good.backAll

theorem add (good : Good v) {fd : Fd} {rest : List ReactorTask} (first : v.reactor = .add fd::rest) :
    Good {v with reactor := rest} := by
  apply good.pop first (fun same => (by cases same)) good.forth
  simpa [sends,first] using good.forthAll

theorem sendTo (good : Good v) {m : Datagram} {rest : List ReactorTask} (first : v.reactor = .sendTo m::rest) (taken : Bool)
    {sent : List (Datagram × Bool)} (out : sent = v.sent ++ [(m,taken)] ∧ v.c.closing = false ∨ sent = v.sent ∧ v.c.closing = true) :
    Good {v with reactor := rest,sent := sent} := by
  rcases out with ⟨rfl,running⟩ | ⟨rfl,closing⟩
  · have all : tried (v.sent ++ [(m,taken)]) ++ sends rest = v.heard := by
      rw [← good.forthAll running,first]
      simp [sends]
    exact good.pop first (fun same => (by cases same)) (all ▸ List.prefix_append ..) fun _ => all
  · apply good.pop first (fun same => (by cases same)) good.forth
    exact fun running => absurd (running.symm.trans closing) Bool.noConfusion

theorem closed (good : Good v) {rest : List ReactorTask} (first : v.reactor = .closeFromReactor::rest) :
    v.c.closing = true ∧ Good {v with reactor := rest} := by
  refine ⟨good.ending (.inr (.inl (first ▸ List.mem_cons_self ..))),?_⟩
  apply good.pop first (fun same => (by cases same)) good.forth
  simpa [sends,first] using good.forthAll

theorem shutdown (good : Good v) {rest : List ReactorTask} (first : v.reactor = .shutdown::rest) :
    Good {v with c := {v.c with fd := none,self := false},reactor := rest,unread := []} := by
  have here : .shutdown ∈ v.reactor := first ▸ List.mem_cons_self ..
  have closing := good.ending (.inr (.inr here))
  constructor
  case added => exact fun fd adds => absurd adds (good.unadded first fd)
  case live => exact fun running => absurd (running.symm.trans closing) Bool.noConfusion
  case alive => rfl
  case shutting => exact fun _ has => absurd has Bool.noConfusion
  case ending => exact fun _ => closing
  case removed => exact fun _ => good.removed here
  case held => exact fun pcb => absurd (pcb.symm.trans (good.removed here)) Bool.noConfusion
  case forth => exact good.forth
  case forthAll => exact fun running => absurd (running.symm.trans closing) Bool.noConfusion
  case back => exact good.back
  case backMore => exact fun pcb => absurd (pcb.symm.trans (good.removed here)) Bool.noConfusion
  case backAll => exact fun running => absurd (running.symm.trans closing) Bool.noConfusion

/- closeFromReactor of a session that is watched, and so has no add pending. -/
theorem closeFromReactor (good : Good v) (unadded : ∀ fd, .add fd ∉ v.reactor) :
    Good {v with
      c := {v.c with closing := true,fd := none,self := false}
      stack := if v.c.pcb then v.stack ++ [.closeFromStack] else v.stack
      unread := []} where
  added fd adds := absurd adds (unadded fd)
  live running := absurd running Bool.noConfusion
  alive := rfl
  shutting _ has := absurd has Bool.noConfusion
  ending _ := rfl
  removed := good.removed
  held pcb := by
    have kept : v.c.pcb = true := pcb
    simp [kept]
  forth := good.forth
  forthAll running := absurd running Bool.noConfusion
  back := good.back
  backMore pcb := by
    have kept : v.c.pcb = true := pcb
    have last : replies [.closeFromStack] = [] := rfl
    have fewer := (List.prefix_append ..).trans (good.backMore pcb)
    simpa [kept,full,last] using fewer
  backAll running := absurd running Bool.noConfusion

theorem arrive (good : Good v) (open_ : v.c.fd.isSome) (m : Datagram) :
    Good {v with unread := v.unread ++ [m],arrived := v.arrived ++ [m]} := by
  have all (running : v.c.closing = false) :
      tried v.injected ++ replies v.stack ++ full (v.unread ++ [m]) = full (v.arrived ++ [m]) := by
    rw [fullAppend,fullAppend,← List.append_assoc,good.backAll running]
  constructor
  case added => exact good.added
  case live => exact good.live
  case alive => exact good.alive
  case shutting => exact good.shutting
  case ending => exact good.ending
  case removed => exact good.removed
  case held => exact good.held
  case forth => exact good.forth
  case forthAll => exact good.forthAll
  case back =>
    rw [fullAppend]
    exact good.back.trans (List.prefix_append ..)
  case backMore =>
    intro pcb
    cases closing : v.c.closing with
    | true => exact absurd (pcb.symm.trans (good.removed (good.shutting closing open_))) Bool.noConfusion
    | false => rw [all closing]
  case backAll => exact all

theorem read (good : Good v) :
    Good {v with
      stack := v.stack ++ (received v.unread).1.map .replyToLwip
      unread := (received v.unread).2} := by
  have same : tried v.injected ++ replies (v.stack ++ (received v.unread).1.map .replyToLwip) ++ full (received v.unread).2 =
      tried v.injected ++ replies v.stack ++ full v.unread := by
    rw [repliesAppend,repliesAll,List.append_assoc,List.append_assoc,receivedFull,List.append_assoc]
  constructor
  case added =>
    intro fd adds
    obtain ⟨has,head,ends,ended⟩ := good.added fd adds
    exact ⟨has,head,by simpa using ends,ended⟩
  case live => exact good.live
  case alive => exact good.alive
  case shutting => exact good.shutting
  case ending => exact fun any => good.ending (by simpa using any)
  case removed => exact good.removed
  case held => exact fun pcb => (good.held pcb).imp_right (List.mem_append_left _)
  case forth => exact good.forth
  case forthAll => exact good.forthAll
  case back => exact good.back
  case backMore => exact fun pcb => same ▸ good.backMore pcb
  case backAll => exact fun running => same.trans (good.backAll running)

theorem made (src : Source) (fd : Fd) (now : Int) : Good ⟨⟨src,true,some fd,false,true,now⟩,[],[.add fd],[],[],[],[],[]⟩ where
  added fd' adds := by
    cases (List.mem_singleton.mp adds)
    exact ⟨rfl,⟨[],rfl,fun _ there => absurd there List.not_mem_nil⟩,List.not_mem_nil,by simp⟩
  live _ := ⟨rfl,rfl⟩
  alive := rfl
  shutting closing := absurd closing Bool.noConfusion
  ending any := by simp at any
  removed there := by simp at there
  held _ := .inl rfl
  forth := List.prefix_rfl
  forthAll _ := rfl
  back := List.prefix_rfl
  backMore _ := List.prefix_rfl
  backAll _ := rfl

end Good

structure Started (s : State) (id : Id) (c : SessionUdp) : Prop where
  here : s.sessions id = some c
  dialled : id ∉ s.undialled

/- What start leaves of a session whose dial fails. -/
structure GivenUp (c : SessionUdp) : Prop where
  pcb : c.pcb = true
  fd : c.fd = none
  closing : c.closing = false
  self : c.self = true

structure Untouched (s : State) (id : Id) : Prop where
  stack : part id s.stackTasks = []
  reactor : part id s.reactorTasks = []
  heard : s.heard id = []
  sent : s.sent id = []
  arrived : s.arrived id = []
  injected : s.injected id = []

structure Coherent (s : State) : Prop where
  made : ∀ id c, s.sessions id = some c → id < s.next
  dialled : ∀ fd k, s.sockets fd = some k → ∃ c, Started s k.dialled c ∧ c.fd = some fd
  opened : ∀ id c fd, Started s id c → c.fd = some fd → ∃ k, s.sockets fd = some k ∧ k.dialled = id
  watched : ∀ fd id, s.ioWatchers.lookup fd = some id →
    (∃ c, Started s id c ∧ c.fd = some fd) ∧ ∀ fd', .add fd' ∉ part id s.reactorTasks
  pcbs : ∀ src id, s.pcbs.lookup src = some id ↔ ∃ c, Started s id c ∧ c.pcb = true ∧ c.src = src
  listed : ∀ key id, s.udpSessions.lookup key = some id → ∃ c, Started s id c ∧ c.pcb = true ∧ c.src.key = key
  good : ∀ id c, Started s id c → Good (s.view id c)
  givenUp : ∀ id ∈ s.undialled, ∃ c, s.sessions id = some c ∧ GivenUp c
  untouched : ∀ id, s.next ≤ id ∨ id ∈ s.undialled → Untouched s id

structure Frame (s t : State) (id : Id) : Prop where
  running : t.running = s.running
  next : t.next = s.next
  undialled : t.undialled = s.undialled
  stack : ∀ other, other ≠ id → part other t.stackTasks = part other s.stackTasks
  reactor : ∀ other, other ≠ id → part other t.reactorTasks = part other s.reactorTasks
  heard : ∀ other, other ≠ id → t.heard other = s.heard other
  sent : ∀ other, other ≠ id → t.sent other = s.sent other
  arrived : ∀ other, other ≠ id → t.arrived other = s.arrived other
  injected : ∀ other, other ≠ id → t.injected other = s.injected other

structure Alters (s t : State) (id : Id) (c c' : SessionUdp) : Prop extends Frame s t id where
  sessions : t.sessions = Function.update s.sessions id (some c')
  src : c'.src = c.src
  sockets : ∀ fd, c.fd ≠ some fd → t.sockets fd = s.sockets fd
  own : ∀ fd, c.fd = some fd → (c'.fd = some fd ∧ ∃ k, t.sockets fd = some k ∧ k.dialled = id) ∨ c'.fd = none ∧ t.sockets fd = none
  closed : c.fd = none → c'.fd = none
  watched : ∀ fd other, t.ioWatchers.lookup fd = some other →
    s.ioWatchers.lookup fd = some other ∧ (c.fd = some fd → c'.fd = some fd) ∨ other = id ∧ c'.fd = some fd
  unwatched : ∀ fd fd', t.ioWatchers.lookup fd = some id → .add fd' ∉ part id t.reactorTasks
  pcb : c'.pcb = true → c.pcb = true
  pcbs : ∀ src other, t.pcbs.lookup src = some other ↔ s.pcbs.lookup src = some other ∧ (other = id → c'.pcb = true)
  listed : ∀ key other, t.udpSessions.lookup key = some other → s.udpSessions.lookup key = some other ∧ (other = id → c'.pcb = true)

section
variable {s t : State} {id other : Id} {c c' d : SessionUdp}

theorem Started.same (here : Started s id c) (there : Started s id d) : d = c :=
  Option.some.inj (there.here.symm.trans here.here)

theorem Coherent.apart (coherent : Coherent s) {fd : Fd} (here : Started s id c) (there : Started s other d)
    (mine : c.fd = some fd) (same : d.fd = some fd) : other = id := by
  obtain ⟨k,open_,dialled⟩ := coherent.opened id c fd here mine
  obtain ⟨k',open',dialled'⟩ := coherent.opened other d fd there same
  cases open_.symm.trans open'
  exact dialled'.symm.trans dialled

theorem Coherent.stackBusy (coherent : Coherent s) {task : StackTask} {rest : List (Id × StackTask)}
    (first : s.stackTasks = (id,task)::rest) : id ∉ s.undialled := by
  intro left
  have none := (coherent.untouched id (.inr left)).stack
  rw [first,partOwn] at none
  contradiction

theorem Coherent.reactorBusy (coherent : Coherent s) {task : ReactorTask} {rest : List (Id × ReactorTask)}
    (first : s.reactorTasks = (id,task)::rest) : id ∉ s.undialled := by
  intro left
  have none := (coherent.untouched id (.inr left)).reactor
  rw [first,partOwn] at none
  contradiction

theorem Coherent.older (coherent : Coherent s) (there : s.sessions other = some d) : other ≠ s.next :=
  Nat.ne_of_lt (coherent.made other d there)

theorem Coherent.nextDialled (coherent : Coherent s) : s.next ∉ s.undialled := by
  intro left
  obtain ⟨d,there,_⟩ := coherent.givenUp s.next left
  exact coherent.older there rfl

namespace Alters
variable (alters : Alters s t id c c')
include alters

theorem beside (apart : other ≠ id) : t.sessions other = s.sessions other := by
  rw [alters.sessions,Function.update_of_ne apart]

theorem here : t.sessions id = some c' := by
  rw [alters.sessions,Function.update_self]

theorem started (here : Started s id c) : Started t id c' := ⟨alters.here,alters.undialled ▸ here.dialled⟩

theorem still (apart : other ≠ id) : Started t other d ↔ Started s other d := by
  constructor
  · exact fun there => ⟨(alters.beside apart).symm.trans there.here,alters.undialled ▸ there.dialled⟩
  · exact fun there => ⟨(alters.beside apart).trans there.here,alters.undialled ▸ there.dialled⟩

theorem becomes (there : Started t id d) : d = c' := Option.some.inj (there.here.symm.trans alters.here)

variable (coherent : Coherent s) (here : Started s id c)
include coherent here

theorem besideSocket {fd : Fd} (apart : other ≠ id) (there : Started s other d) (has : d.fd = some fd) : t.sockets fd = s.sockets fd :=
  alters.sockets fd fun mine => apart (coherent.apart here there mine has)

theorem dialled {fd : Fd} {k : Socket} (open_ : t.sockets fd = some k) : ∃ d, Started t k.dialled d ∧ d.fd = some fd := by
  by_cases mine : c.fd = some fd
  · rcases alters.own fd mine with ⟨kept,k',open',dialled⟩ | ⟨_,gone⟩
    · cases open_.symm.trans open'
      exact ⟨c',dialled ▸ alters.started here,kept⟩
    · rw [gone] at open_; contradiction
  · rw [alters.sockets fd mine] at open_
    obtain ⟨d,there,has⟩ := coherent.dialled fd k open_
    have apart : k.dialled ≠ id := by
      intro same
      rw [same] at there
      exact mine (here.same there ▸ has)
    exact ⟨d,(alters.still apart).mpr there,has⟩

theorem opened {fd : Fd} (there : Started t other d) (has : d.fd = some fd) : ∃ k, t.sockets fd = some k ∧ k.dialled = other := by
  by_cases same : other = id
  · subst same
    cases alters.becomes there
    cases mine : c.fd with
    | none => rw [alters.closed mine] at has; contradiction
    | some fd' =>
      rcases alters.own fd' mine with ⟨kept,k,open_,dialled⟩ | ⟨gone,_⟩
      · cases kept.symm.trans has
        exact ⟨k,open_,dialled⟩
      · rw [gone] at has; contradiction
  · have before := (alters.still same).mp there
    rw [alters.besideSocket coherent here same before has]
    exact coherent.opened other d fd before has

theorem watchedOwner {fd : Fd} (found : t.ioWatchers.lookup fd = some other) :
    (∃ d, Started t other d ∧ d.fd = some fd) ∧ ∀ fd', .add fd' ∉ part other t.reactorTasks := by
  rcases alters.watched fd other found with ⟨before,kept⟩ | ⟨rfl,kept⟩
  · obtain ⟨⟨d,there,has⟩,unadded⟩ := coherent.watched fd other before
    by_cases same : other = id
    · subst same
      cases here.same there
      exact ⟨⟨c',alters.started here,kept has⟩,fun fd' => alters.unwatched fd fd' found⟩
    · exact ⟨⟨d,(alters.still same).mpr there,has⟩,fun fd' => by rw [alters.reactor other same]; exact unadded fd'⟩
  · exact ⟨⟨c',alters.started here,kept⟩,fun fd' => alters.unwatched fd fd' found⟩

theorem pcbOwner {src : Source} : t.pcbs.lookup src = some other ↔ ∃ d, Started t other d ∧ d.pcb = true ∧ d.src = src := by
  rw [alters.pcbs,coherent.pcbs]
  by_cases same : other = id
  · subst same
    constructor
    · rintro ⟨⟨d,there,_,rfl⟩,kept⟩
      cases here.same there
      exact ⟨c',alters.started here,kept rfl,alters.src⟩
    · rintro ⟨d,there,kept,rfl⟩
      cases alters.becomes there
      exact ⟨⟨c,here,alters.pcb kept,alters.src.symm⟩,fun _ => kept⟩
  · simp only [alters.still same]
    exact and_iff_left fun equal => absurd equal same

theorem listedOwner {key : Bytes} (found : t.udpSessions.lookup key = some other) :
    ∃ d, Started t other d ∧ d.pcb = true ∧ d.src.key = key := by
  obtain ⟨before,kept⟩ := alters.listed key other found
  obtain ⟨d,there,pcb,named⟩ := coherent.listed key other before
  by_cases same : other = id
  · subst same
    cases here.same there
    exact ⟨c',alters.started here,kept rfl,by rw [alters.src]; exact named⟩
  · exact ⟨d,(alters.still same).mpr there,pcb,named⟩

theorem besideView (apart : other ≠ id) (there : Started s other d) : t.view other d = s.view other d := by
  have unread : t.unread d = s.unread d := by
    unfold State.unread
    cases has : d.fd with
    | none => rfl
    | some fd => simp only [Option.bind_some,alters.besideSocket coherent here apart there has]
  simp only [State.view,unread,alters.stack other apart,alters.reactor other apart,alters.heard other apart,
    alters.sent other apart,alters.arrived other apart,alters.injected other apart]

end Alters

theorem Coherent.alters (coherent : Coherent s) (here : Started s id c) (alters : Alters s t id c c')
    (good : Good (t.view id c')) : Coherent t where
  made other d there := by
    rw [alters.next]
    by_cases same : other = id
    · exact same ▸ coherent.made id c here.here
    · exact coherent.made other d (alters.beside same ▸ there)
  dialled _ _ open_ := alters.dialled coherent here open_
  opened _ _ _ there has := alters.opened coherent here there has
  watched _ _ found := alters.watchedOwner coherent here found
  pcbs _ _ := alters.pcbOwner coherent here
  listed _ _ found := alters.listedOwner coherent here found
  good other d there := by
    by_cases same : other = id
    · subst same
      cases alters.becomes there
      exact good
    · have before := (alters.still same).mp there
      rw [alters.besideView coherent here same before]
      exact coherent.good other d before
  givenUp other left := by
    rw [alters.undialled] at left
    have apart : other ≠ id := fun same => here.dialled (same ▸ left)
    rw [alters.beside apart]
    exact coherent.givenUp other left
  untouched other either := by
    rw [alters.next,alters.undialled] at either
    have apart : other ≠ id := by
      rintro rfl
      rcases either with later | left
      · exact absurd (coherent.made other c here.here) (Nat.not_lt.mpr later)
      · exact here.dialled left
    have before := coherent.untouched other either
    exact ⟨(alters.stack other apart).trans before.stack,(alters.reactor other apart).trans before.reactor,
      (alters.heard other apart).trans before.heard,(alters.sent other apart).trans before.sent,
      (alters.arrived other apart).trans before.arrived,(alters.injected other apart).trans before.injected⟩

/- What the threads do, one change at a time: a session that stays in its table or is
not there, one that leaves it under its own key, a new one, one that could not be
dialled, and the end of the stack. -/
inductive Change (dials : Prop) (s t : State) : Prop where
  | moves {id : Id} {c : SessionUdp} (c' : SessionUdp) (here : Started s id c) (alters : Alters s t id c c')
      (good : Good (t.view id c')) (table : t.udpSessions = s.udpSessions)
  | ended {id : Id} {c : SessionUdp} (c' : SessionUdp) (here : Started s id c) (alters : Alters s t id c c')
      (good : Good (t.view id c')) (table : t.udpSessions = s.udpSessions.erase c.src.key) (pcb : c'.pcb = false)
      (own : ∀ other, s.udpSessions.lookup c.src.key = some other → other = id)
  | made (now : Int) (src : Source) (fd : Fd) (running : s.running = true) (fresh : s.pcbs.lookup src = none)
      (free : s.sockets fd = none) (made : t = s.onUdpRecv now src fd)
  | undialled (now : Int) (src : Source) (running : s.running = true) (fails : ¬ dials) (failed : t = s.dialFailed now src)
  | stopped (empty : ∀ key, s.udpSessions.lookup key = none) (stopped : t = {s with running := false})

abbrev Changes (dials : Prop) := Relation.ReflTransGen (Change dials)

/- A new session takes a number that nothing belongs to and a descriptor that is free. -/
section Made
variable {src : Source} {fd fd' : Fd} {now : Int}

theorem madeNew : (s.onUdpRecv now src fd).sessions s.next = some ⟨src,true,some fd,false,true,now⟩ := Function.update_self ..

theorem madeOld (apart : other ≠ s.next) : (s.onUdpRecv now src fd).sessions other = s.sessions other :=
  Function.update_of_ne apart ..

theorem madeSocket : (s.onUdpRecv now src fd).sockets fd = some ⟨s.next,[]⟩ := Function.update_self ..

theorem madeSockets (apart : fd' ≠ fd) : (s.onUdpRecv now src fd).sockets fd' = s.sockets fd' := Function.update_of_ne apart ..

theorem madeReactor (apart : other ≠ s.next) : part other (s.onUdpRecv now src fd).reactorTasks = part other s.reactorTasks :=
  partPutOther apart.symm

theorem madePcbs (src' : Source) : (s.onUdpRecv now src fd).pcbs.lookup src' = if src' = src then some s.next else s.pcbs.lookup src' :=
  Table.lookupInsert ..

theorem madeTable (key : Bytes) :
    (s.onUdpRecv now src fd).udpSessions.lookup key = if key = src.key then some s.next else s.udpSessions.lookup key :=
  Table.lookupInsert ..

theorem madeBefore (apart : other ≠ s.next) (there : Started (s.onUdpRecv now src fd) other d) : Started s other d :=
  ⟨(madeOld apart).symm.trans there.here,there.dialled⟩

namespace Coherent
variable (coherent : Coherent s)
include coherent

theorem madeStarted : Started (s.onUdpRecv now src fd) s.next ⟨src,true,some fd,false,true,now⟩ := ⟨madeNew,coherent.nextDialled⟩

theorem madeStill (there : Started s other d) : Started (s.onUdpRecv now src fd) other d :=
  ⟨(madeOld (coherent.older there.here)).trans there.here,there.dialled⟩

theorem madeDialled (fd' : Fd) (k : Socket) (open_ : (s.onUdpRecv now src fd).sockets fd' = some k) :
    ∃ c, Started (s.onUdpRecv now src fd) k.dialled c ∧ c.fd = some fd' := by
  by_cases same : fd' = fd
  · subst same
    cases madeSocket.symm.trans open_
    exact ⟨_,coherent.madeStarted,rfl⟩
  · obtain ⟨d,there,has⟩ := coherent.dialled fd' k ((madeSockets same).symm.trans open_)
    exact ⟨d,coherent.madeStill there,has⟩

theorem madeApart (free : s.sockets fd = none) (there : Started s other d) (has : d.fd = some fd') : fd' ≠ fd := by
  rintro rfl
  obtain ⟨k,open_,_⟩ := coherent.opened other d fd' there has
  exact absurd (free.symm.trans open_) (Option.some_ne_none k).symm

theorem madeOpened (free : s.sockets fd = none) (there : Started (s.onUdpRecv now src fd) other d) (has : d.fd = some fd') :
    ∃ k, (s.onUdpRecv now src fd).sockets fd' = some k ∧ k.dialled = other := by
  by_cases same : other = s.next
  · subst same
    cases madeNew.symm.trans there.here
    cases has
    exact ⟨_,madeSocket,rfl⟩
  · have before := madeBefore same there
    obtain ⟨k,open_,dialled⟩ := coherent.opened other d fd' before has
    exact ⟨k,(madeSockets (coherent.madeApart free before has)).trans open_,dialled⟩

theorem madePcbsExact (fresh : s.pcbs.lookup src = none) (src' : Source) : (s.onUdpRecv now src fd).pcbs.lookup src' = some other ↔
    ∃ c, Started (s.onUdpRecv now src fd) other c ∧ c.pcb = true ∧ c.src = src' := by
  rw [madePcbs]
  split
  · rename_i same
    subst same
    constructor
    · intro found
      cases found
      exact ⟨_,coherent.madeStarted,rfl,rfl⟩
    · rintro ⟨d,there,pcb,named⟩
      by_cases equal : other = s.next
      · rw [equal]
      · have before := (coherent.pcbs src' other).mpr ⟨d,madeBefore equal there,pcb,named⟩
        exact absurd (fresh.symm.trans before) (Option.some_ne_none other).symm
  · rename_i apart
    rw [coherent.pcbs]
    constructor
    · rintro ⟨d,there,rest⟩
      exact ⟨d,coherent.madeStill there,rest⟩
    · rintro ⟨d,there,pcb,named⟩
      by_cases equal : other = s.next
      · subst equal
        cases madeNew.symm.trans there.here
        exact absurd named.symm apart
      · exact ⟨d,madeBefore equal there,pcb,named⟩

theorem madeListed {key : Bytes} (found : (s.onUdpRecv now src fd).udpSessions.lookup key = some other) :
    ∃ c, Started (s.onUdpRecv now src fd) other c ∧ c.pcb = true ∧ c.src.key = key := by
  rw [madeTable] at found
  split at found
  · rename_i same
    cases found
    exact ⟨_,coherent.madeStarted,rfl,same.symm⟩
  · obtain ⟨d,there,rest⟩ := coherent.listed key other found
    exact ⟨d,coherent.madeStill there,rest⟩

theorem madeGood (free : s.sockets fd = none) (there : Started (s.onUdpRecv now src fd) other d) :
    Good ((s.onUdpRecv now src fd).view other d) := by
  by_cases same : other = s.next
  · subst same
    cases madeNew.symm.trans there.here
    obtain ⟨noStack,noReactor,noHeard,noSent,noArrived,noInjected⟩ := coherent.untouched s.next (.inl (Nat.le_refl _))
    have view : (s.onUdpRecv now src fd).view s.next ⟨src,true,some fd,false,true,now⟩ =
        ⟨⟨src,true,some fd,false,true,now⟩,[],[.add fd],[],[],[],[],[]⟩ := by
      simp [State.view,State.onUdpRecv,State.post,State.write,State.setSocket,State.unread,noStack,noReactor,noHeard,noSent,
        noArrived,noInjected]
    rw [view]
    exact Good.made src fd now
  · have before := madeBefore same there
    have unread : (s.onUdpRecv now src fd).unread d = s.unread d := by
      unfold State.unread
      cases has : d.fd with
      | none => rfl
      | some fd' => simp only [Option.bind_some,madeSockets (coherent.madeApart free before has)]
    have frame : (s.onUdpRecv now src fd).view other d = s.view other d := by
      rw [State.view,State.view,unread,madeReactor same]
      rfl
    rw [frame]
    exact coherent.good other d before

theorem onUdpRecv (fresh : s.pcbs.lookup src = none) (free : s.sockets fd = none) : Coherent (s.onUdpRecv now src fd) where
  made other d there := by
    by_cases same : other = s.next
    · exact same ▸ Nat.lt_succ_self s.next
    · exact Nat.lt_succ_of_lt (coherent.made other d ((madeOld same).symm.trans there))
  dialled := coherent.madeDialled
  opened _ _ _ there has := coherent.madeOpened free there has
  watched fd' other found := by
    obtain ⟨⟨d,there,has⟩,unadded⟩ := coherent.watched fd' other found
    exact ⟨⟨d,coherent.madeStill there,has⟩,fun fd'' => by rw [madeReactor (coherent.older there.here)]; exact unadded fd''⟩
  pcbs src' _ := coherent.madePcbsExact fresh src'
  listed _ _ found := coherent.madeListed found
  good _ _ there := coherent.madeGood free there
  givenUp other left := by
    obtain ⟨d,there,given⟩ := coherent.givenUp other left
    exact ⟨d,(madeOld (coherent.older there)).trans there,given⟩
  untouched other either := by
    have before : s.next ≤ other ∨ other ∈ s.undialled := either.imp_left Nat.le_of_lt
    have apart : other ≠ s.next := by
      rintro rfl
      exact either.elim (Nat.not_succ_le_self s.next) coherent.nextDialled
    exact {coherent.untouched other before with reactor := (madeReactor apart).trans (coherent.untouched other before).reactor}

theorem failedStarted : Started (s.dialFailed now src) other d ↔ Started s other d := by
  constructor
  · intro there
    obtain ⟨old,apart⟩ := not_or.mp (mt List.mem_append.mpr there.dialled)
    have sessions : (s.dialFailed now src).sessions other = s.sessions other :=
      Function.update_of_ne (fun same => apart (List.mem_singleton.mpr same)) ..
    exact ⟨sessions.symm.trans there.here,old⟩
  · intro there
    have apart := coherent.older there.here
    have sessions : (s.dialFailed now src).sessions other = s.sessions other := Function.update_of_ne apart ..
    refine ⟨sessions.trans there.here,fun left => ?_⟩
    exact (List.mem_append.mp left).elim there.dialled fun new => apart (List.mem_singleton.mp new)

theorem dialFailed : Coherent (s.dialFailed now src) where
  made other d there := by
    by_cases same : other = s.next
    · exact same ▸ Nat.lt_succ_self s.next
    · exact Nat.lt_succ_of_lt (coherent.made other d ((Function.update_of_ne same ..).symm.trans there))
  dialled fd k open_ := by
    simp only [coherent.failedStarted]
    exact coherent.dialled fd k open_
  opened other d fd there has := coherent.opened other d fd (coherent.failedStarted.mp there) has
  watched fd other found := by
    simp only [coherent.failedStarted]
    exact coherent.watched fd other found
  pcbs src' other := by
    simp only [coherent.failedStarted]
    exact coherent.pcbs src' other
  listed key other found := by
    simp only [coherent.failedStarted]
    exact coherent.listed key other found
  good other d there := coherent.good other d (coherent.failedStarted.mp there)
  givenUp other left := by
    rcases List.mem_append.mp left with old | new
    · obtain ⟨d,there,given⟩ := coherent.givenUp other old
      exact ⟨d,(Function.update_of_ne (coherent.older there) ..).trans there,given⟩
    · cases List.mem_singleton.mp new
      exact ⟨_,Function.update_self ..,rfl,rfl,rfl,rfl⟩
  untouched other either := by
    have before : s.next ≤ other ∨ other ∈ s.undialled := by
      rcases either with later | left
      · exact .inl (Nat.le_of_lt later)
      · exact (List.mem_append.mp left).symm.imp_left fun new => (List.mem_singleton.mp new).ge
    exact {coherent.untouched other before with}

end Coherent
end Made

theorem stoppedStarted : Started {s with running := false} other d ↔ Started s other d :=
  ⟨fun there => ⟨there.here,there.dialled⟩,fun there => ⟨there.here,there.dialled⟩⟩

theorem Coherent.stopped (coherent : Coherent s) : Coherent {s with running := false} where
  made := coherent.made
  dialled fd k open_ := by
    simp only [stoppedStarted]
    exact coherent.dialled fd k open_
  opened id c fd there has := coherent.opened id c fd (stoppedStarted.mp there) has
  watched fd id found := by
    simp only [stoppedStarted]
    exact coherent.watched fd id found
  pcbs src id := by
    simp only [stoppedStarted]
    exact coherent.pcbs src id
  listed key id found := by
    simp only [stoppedStarted]
    exact coherent.listed key id found
  good id c there := coherent.good id c (stoppedStarted.mp there)
  givenUp := coherent.givenUp
  untouched id either := {coherent.untouched id either with}

theorem Coherent.change {dials : Prop} (coherent : Coherent s) (change : Change dials s t) : Coherent t := by
  cases change with
  | moves c' here alters good _ => exact coherent.alters here alters good
  | ended c' here alters good _ _ _ => exact coherent.alters here alters good
  | made now src fd _ fresh free made => exact made ▸ coherent.onUdpRecv fresh free
  | undialled now src _ _ failed => exact failed ▸ coherent.dialFailed
  | stopped _ stopped =>
    exact stopped ▸ coherent.stopped

theorem Coherent.changes {dials : Prop} (coherent : Coherent s) (changes : Changes dials s t) : Coherent t := by
  induction changes with
  | refl => exact coherent
  | tail _ change ih => exact ih.change change

theorem initialCoherent : Coherent initial where
  made _ _ here := by cases here
  dialled _ _ here := by cases here
  opened _ _ _ here := by cases here.here
  watched _ _ here := by cases here
  pcbs src id := by
    constructor
    · intro found; cases found
    · rintro ⟨c,here,_⟩; cases here.here
  listed _ _ here := by cases here
  good _ _ here := by cases here.here
  givenUp _ here := by cases here
  untouched _ _ := ⟨rfl,rfl,rfl,rfl,rfl,rfl⟩

end
end Candy.UdpCone
