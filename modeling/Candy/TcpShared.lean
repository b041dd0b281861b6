import Candy.TcpNumbers
import Candy.TcpWindow

/-! The shared Reactor does not show: whatever descriptors the kernel reuses, each run
with one table of watchers and one queue is a run of sessions that have these for
themselves. So what passes through a session's descriptor passes through the socket it
dialled, and what holds of the runs of TcpStack and of SessionTcp holds here. -/
namespace Candy.TcpLandings
open Runs Shares
open TcpStack (NetStack Pcb Sid)
open SessionTcp (Task ReactorEvent)

def settle (n : NetStack) (s : Sid) (t : SessionTcp.State) : NetStack :=
  let m := {n with session := Function.update n.session s t}
  if (n.session s).pcb && !t.pcb then
    TcpStack.removeSession {m with tcpArg := m.tcpArg.erase (n.newpcb s)} (n.newpcb s) else m

theorem deliverSettles (n : NetStack) (s : Sid) (e : SessionTcp.Event) :
    TcpStack.deliver n s e = (SessionTcp.handle (n.session s) e).map (settle n s) := rfl

theorem settleBeside {n : NetStack} {s : Sid} {g : Sid → SessionTcp.State} {t u : SessionTcp.State}
    (before : (g s).pcb = (n.session s).pcb) (after : u.pcb = t.pcb) :
    settle {n with session := g} s u = {settle n s t with session := Function.update g s u} := by
  unfold settle
  simp only [before,after]
  split <;> rfl

theorem shutdownBeside {n : NetStack} {s : Sid} {g : Sid → SessionTcp.State} (before : (g s).pcb = (n.session s).pcb) :
    TcpStack.shutdownSession {n with session := g} s = {TcpStack.shutdownSession n s with
      session := Function.update g s (SessionTcp.shutdownFromStack {g s with listed := false})} := by
  simp only [TcpStack.shutdownSession,before]

def begun (l : State) (s : Sid) : SessionTcp.State := if (l.fd s).isSome then SessionTcp.State.start else TcpStack.undialed

/- A step keeps the descriptors and may add a session. -/
structure Extends (l m : State) : Prop where
  made : l.stack.made ≤ m.stack.made
  fd : ∀ s < l.stack.made, m.fd s = l.fd s
  new : ∀ s, l.stack.made ≤ s → s < m.stack.made → m.own s = begun m s

structure Sound (l : State) : Prop where
  apart : Apart l
  kept : TcpStack.Kept l.owned

section
variable {l m : State} {s : Sid}

theorem Extends.same (count : m.stack.made = l.stack.made) (fd : m.fd = l.fd) : Extends l m :=
  ⟨Nat.le_of_eq count.symm,fun s _ => by rw [fd],fun _ above below => absurd (count ▸ below) (Nat.not_lt.2 above)⟩

theorem ownedAt (made : s < l.stack.made) : l.owned.session s = l.own s := if_pos made

theorem loadedSelf : (l.load s).session s = l.view s := Function.update_self ..

theorem loadedOther {x : Sid} (other : x ≠ s) : (l.load s).session x = l.stack.session x := Function.update_of_ne other ..

theorem ownedStore {e : SessionTcp.Event} {n : NetStack} (made : s < l.stack.made) (count : n.made = l.stack.made)
    (frame : ∀ x, x ≠ s → n.session x = l.stack.session x) (others : ∀ x, x ≠ s → (l.store s e n).own x = l.own x) :
    (l.store s e n).owned = {n with session := Function.update l.owned.session s ((l.store s e n).own s)} := by
  have session : (l.store s e n).owned.session = Function.update l.owned.session s ((l.store s e n).own s) := by
    funext x
    change (if x < n.made then (l.store s e n).own x else n.session x) = _
    rw [count]
    by_cases same : x = s
    · rw [same,if_pos made,Function.update_self]
    · rw [Function.update_of_ne same,others x same,frame x same]; rfl
  rw [← session]; rfl

theorem Apart.beside {n : NetStack} (apart : Apart l) (made : n.made = l.stack.made) (session : n.session = l.stack.session) :
    Apart {l with stack := n} := by
  cases n
  cases made
  cases session
  exact ⟨apart.posted,apart.keyed,apart.opened,apart.dialled,apart.undialled,apart.earlier,apart.ordered,apart.begun,
    apart.idle,apart.turning,apart.passed,apart.fresh⟩

theorem actOwned (apart : Apart l) (made : s < l.stack.made) {e : SessionTcp.Event} (called : Called l s e)
    (ok : l.act s e = some m) : Apart m ∧ TcpStack.deliver l.owned s e = some m.owned ∧ Extends l m := by
  obtain ⟨n,delivered,same⟩ := Option.map_eq_some_iff.1 ok
  subst same
  obtain ⟨stepped,frame,-,count,-⟩ := TcpStack.deliverFrame delivered
  rw [loadedSelf] at stepped
  have frame : ∀ x, x ≠ s → n.session x = l.stack.session x := fun x other => (frame x other).trans (loadedOther other)
  have storing : Storing l s e n := ⟨apart,made,called,count,frame,stepped⟩
  obtain ⟨self,others,-⟩ := storing.stored
  refine ⟨storing.kept,?_,.same count rfl⟩
  have settles : n = settle (l.load s) s (n.session s) := by
    rw [deliverSettles,loadedSelf] at delivered
    obtain ⟨t,handled,same⟩ := Option.map_eq_some_iff.1 delivered
    rw [show n.session s = t from Option.some.inj (stepped.symm.trans handled)]
    exact same.symm
  have own : SessionTcp.handle (l.owned.session s) e = some ((l.store s e n).own s) := by
    rw [ownedAt made]; exact self
  rw [deliverSettles,own,Option.map_some,ownedStore made count frame others]
  have pcb : (l.owned.session s).pcb = ((l.load s).session s).pcb := by rw [ownedAt made,loadedSelf]; rfl
  have beside := @settleBeside (l.load s) s l.owned.session (n.session s) ((l.store s e n).own s) pcb rfl
  rw [← settles] at beside
  exact congrArg some beside

theorem callbackOwned (sound : Sound l) {pcb : Pcb} {e : SessionTcp.Event} (stack : e.onReactor = false)
    (ok : l.callback pcb e = some m) : Apart m ∧ TcpStack.callback l.owned pcb e = some m.owned ∧ Extends l m := by
  obtain ⟨s,found,acted⟩ := Option.bind_eq_some_iff.1 ok
  have made : s < l.stack.made := (sound.kept.argued pcb s found).1
  have called : Called l s e := by
    cases e with
    | recv | fin | sent | err | teardown | stackRan => trivial
    | fdEvent | connected | read | paused | flushed | ran => contradiction
  obtain ⟨apart,delivered,extends_⟩ := actOwned sound.apart made called acted
  refine ⟨apart,?_,extends_⟩
  rw [TcpStack.callback,show l.owned.tcpArg.lookup pcb = some s from found]
  exact delivered

theorem shutdownOwned (apart : Apart l) (made : s < l.stack.made) (listed : (l.stack.session s).listed = true) :
    Apart (l.shutdownSession s) ∧ (l.shutdownSession s).owned = TcpStack.shutdownSession l.owned s ∧
    (l.shutdownSession s).stack.made = l.stack.made ∧ ∀ x, x ≠ s → (l.shutdownSession s).stack.session x = l.stack.session x := by
  have session : (TcpStack.shutdownSession (l.load s) s).session s = SessionTcp.shutdownFromStack {l.view s with listed := false} := by
    simp only [TcpStack.shutdownSession,Function.update_self,loadedSelf]
  have frame : ∀ x, x ≠ s → (TcpStack.shutdownSession (l.load s) s).session x = l.stack.session x := by
    intro x other
    simp only [TcpStack.shutdownSession,Function.update_of_ne other,loadedOther other]
  have stepped : SessionTcp.step (l.view s) .teardown ((TcpStack.shutdownSession (l.load s) s).session s) := by
    rw [session]
    exact SessionTcp.stepOf (.teardown listed)
  have storing : Storing l s .teardown (TcpStack.shutdownSession (l.load s) s) := ⟨apart,made,trivial,rfl,frame,stepped⟩
  obtain ⟨self,others,-⟩ := storing.stored
  refine ⟨storing.kept,?_,rfl,frame⟩
  have own : (l.store s .teardown (TcpStack.shutdownSession (l.load s) s)).own s =
      SessionTcp.shutdownFromStack {l.owned.session s with listed := false} := by
    have listed' : (l.own s).listed = true := listed
    simp only [SessionTcp.step,SessionTcp.handle,listed',if_true] at self
    rw [ownedAt made]
    exact (Option.some.inj self).symm
  have pcb : (l.owned.session s).pcb = ((l.load s).session s).pcb := by rw [ownedAt made,loadedSelf]; rfl
  have beside := @shutdownBeside (l.load s) s l.owned.session pcb
  rw [State.shutdownSession,@ownedStore l s .teardown (TcpStack.shutdownSession (l.load s) s) made rfl frame others,own]
  exact beside.symm

theorem shutdownsOwned {sids : List Sid} (distinct : sids.Nodup) (apart : Apart l)
    (each : ∀ s ∈ sids, s < l.stack.made ∧ (l.stack.session s).listed = true) :
    Apart (sids.foldl State.shutdownSession l) ∧
    (sids.foldl State.shutdownSession l).owned = sids.foldl TcpStack.shutdownSession l.owned ∧
    (sids.foldl State.shutdownSession l).stack.made = l.stack.made ∧ (sids.foldl State.shutdownSession l).fd = l.fd := by
  induction sids generalizing l with
  | nil => exact ⟨apart,rfl,rfl,rfl⟩
  | cons s sids ih =>
    obtain ⟨fresh,distinct⟩ := List.nodup_cons.1 distinct
    obtain ⟨made,listed⟩ := each s List.mem_cons_self
    obtain ⟨kept,owned,count,frame⟩ := shutdownOwned apart made listed
    rw [List.foldl_cons,List.foldl_cons,← owned,← count]
    refine ih distinct kept fun x there => ?_
    have other : x ≠ s := fun same => fresh (same ▸ there)
    rw [count,frame x other]
    exact each x (List.mem_cons_of_mem _ there)

theorem teardownOwned (sound : Sound l) : Apart l.teardownStack ∧ l.teardownStack.owned = TcpStack.teardownStack l.owned ∧
    Extends l l.teardownStack := by
  have entered {e : (_ : Pcb) × Sid} (there : e ∈ l.stack.sessions.entries) :
      e.2 < l.stack.made ∧ l.stack.newpcb e.2 = e.1 ∧ (l.stack.session e.2).listed = true := by
    obtain ⟨made,address,listed⟩ := sound.kept.entered e.1 e.2 (Table.lookupSome.2 there)
    rw [ownedAt made] at listed
    exact ⟨made,address,listed⟩
  have distinct : (l.stack.sessions.entries.map Sigma.snd).Nodup := by
    refine List.Nodup.map_on ?_ l.stack.sessions.nodupKeys.nodup
    rintro ⟨pcb,s⟩ there ⟨pcb',s'⟩ there' (same : s = s')
    subst same
    have address : pcb = pcb' := (entered there).2.1.symm.trans (entered there').2.1
    rw [address]
  have each : ∀ s ∈ l.stack.sessions.entries.map Sigma.snd, s < l.stack.made ∧ (l.stack.session s).listed = true := by
    intro s there
    obtain ⟨e,inside,rfl⟩ := List.mem_map.1 there
    exact ⟨(entered inside).1,(entered inside).2.2⟩
  obtain ⟨apart,owned,count,fd⟩ := shutdownsOwned distinct sound.apart each
  refine ⟨apart.beside rfl rfl,?_,.same count fd⟩
  rw [TcpStack.teardownStack,show l.owned.sessions = l.stack.sessions from rfl,← owned]; rfl

/- What accept adds: a session with or without a socket. -/
structure Accepted (l : State) (dialled : Option Fd) (t : SessionTcp.State) (new : List (Sid × Task)) (m : State) : Prop where
  made : m.stack.made = l.stack.made + 1
  session : m.stack.session = Function.update l.stack.session l.stack.made t
  fd : m.fd = Function.update l.fd l.stack.made dialled
  ioWatchers : m.ioWatchers = l.ioWatchers
  turn : m.turn = l.turn
  written : m.written = l.written
  read : m.read = l.read
  tasks : m.tasks = l.tasks ++ new
  sockets : ∀ k, m.sockets.lookup k = if dialled = some k then some l.stack.made else l.sockets.lookup k
  kind : dialled = none ∧ new = [] ∧ t = TcpStack.undialed ∨
    (∃ n, dialled = some n) ∧ new = [(l.stack.made,.add)] ∧ t = SessionTcp.State.start

section
variable {dialled : Option Fd} {t : SessionTcp.State} {new : List (Sid × Task)}

theorem acceptAccepted (newpcb : Pcb) (running : l.stack.running = true) : ∃ t new, Accepted l dialled t new (l.onAccept newpcb dialled) ∧
    (l.onAccept newpcb dialled).stack = TcpStack.onAccept l.stack newpcb dialled.isSome := by
  cases dialled with
  | none =>
    refine ⟨TcpStack.undialed,[],?_,?_⟩
    · simp only [State.onAccept,TcpStack.onAccept,running,Bool.not_true,Bool.false_eq_true,if_false,Option.isSome_none]
      exact ⟨rfl,rfl,rfl,rfl,rfl,rfl,rfl,(List.append_nil _).symm,fun k => rfl,.inl ⟨rfl,rfl,rfl⟩⟩
    · simp only [State.onAccept,running,Bool.not_true,Bool.false_eq_true,if_false]
  | some n =>
    refine ⟨SessionTcp.State.start,[(l.stack.made,.add)],?_,?_⟩
    · simp only [State.onAccept,TcpStack.onAccept,running,Bool.not_true,Bool.false_eq_true,if_false,Option.isSome_some,if_true]
      refine ⟨rfl,rfl,rfl,rfl,rfl,rfl,rfl,rfl,fun k => ?_,.inr ⟨⟨n,rfl⟩,rfl,rfl⟩⟩
      simp only [Table.lookupInsert,Option.some.injEq,eq_comm]
    · simp only [State.onAccept,running,Bool.not_true,Bool.false_eq_true,if_false]

/- The number is free, so whoever had it before has closed it. -/
theorem freeShut (apart : Apart l) (free : dialled.bind l.sockets.lookup = none) {a : Sid} {k : Fd} (before : a < l.stack.made)
    (numberA : l.fd a = some k) (number : dialled = some k) : (l.stack.session a).fd = false := by
  refine Bool.eq_false_iff.2 fun opened => ?_
  rw [number,Option.bind_some,(apart.opened k a).2 ⟨before,numberA,opened⟩] at free
  cases free

namespace Accepted
variable (accepted : Accepted l dialled t new m)
include accepted

theorem newFd : m.fd l.stack.made = dialled := by rw [accepted.fd,Function.update_self]

theorem newSession : m.stack.session l.stack.made = t := by rw [accepted.session,Function.update_self]

theorem oldFd {x : Sid} (before : x < l.stack.made) : m.fd x = l.fd x := by
  rw [accepted.fd,Function.update_of_ne (Nat.ne_of_lt before)]

theorem oldSession {x : Sid} (before : x < l.stack.made) : m.stack.session x = l.stack.session x := by
  rw [accepted.session,Function.update_of_ne (Nat.ne_of_lt before)]

theorem oldOwn {x : Sid} (before : x < l.stack.made) : m.own x = l.own x := by
  have other : x ≠ l.stack.made := Nat.ne_of_lt before
  have queue : part x m.tasks = part x l.tasks := by
    rw [accepted.tasks,partAppend]
    rcases accepted.kind with ⟨-,none_,-⟩ | ⟨-,one,-⟩
    · rw [none_,partNil,List.append_nil]
    · rw [one,partOther other.symm,partNil,List.append_nil]
  have entry : m.entry x = l.entry x := by
    rw [State.entry,State.entry,accepted.oldFd before,accepted.ioWatchers]
  rw [State.own,State.own,queue,entry,accepted.oldSession before]

theorem either {x : Sid} (below : x < m.stack.made) : x < l.stack.made ∨ x = l.stack.made := by
  rw [accepted.made] at below
  exact Nat.lt_succ_iff_lt_or_eq.1 below

theorem below {x : Sid} (before : x < l.stack.made) : x < m.stack.made := by
  rw [accepted.made]; exact Nat.lt_succ_of_lt before

theorem posted {x : Sid} {task : Task} (there : (x,task) ∈ m.tasks) :
    (x,task) ∈ l.tasks ∨ (x = l.stack.made ∧ task = .add ∧ dialled ≠ none) := by
  rw [accepted.tasks] at there
  refine (List.mem_append.1 there).imp_right fun there => ?_
  rcases accepted.kind with ⟨-,none_,-⟩ | ⟨⟨n,some_⟩,one,-⟩
  · rw [none_] at there; contradiction
  · rw [one,List.mem_singleton] at there
    cases there
    exact ⟨rfl,rfl,by rw [some_]; exact Option.some_ne_none n⟩

theorem stays {x : Sid} {task : Task} (there : (x,task) ∈ l.tasks) : (x,task) ∈ m.tasks := by
  rw [accepted.tasks]; exact List.mem_append_left _ there

section
variable (apart : Apart l)
include apart

theorem newOwn : m.own l.stack.made = t := by
  have unqueued : part l.stack.made l.tasks = [] :=
    List.eq_nil_iff_forall_not_mem.2 fun task there => Nat.lt_irrefl _ (apart.posted _ task (memPart.1 there))
  have unwatched : (m.entry l.stack.made).filter (fun iw => iw.1 = l.stack.made) = none := by
    rw [State.entry,accepted.ioWatchers]
    refine Option.filter_eq_none_iff.2 fun iw found => ?_
    obtain ⟨k,-,there⟩ := Option.bind_eq_some_iff.1 found
    simpa using Nat.ne_of_lt (apart.keyed k iw there).1
  rw [State.own,unwatched,accepted.newSession,accepted.tasks,partAppend,unqueued,List.nil_append]
  rcases accepted.kind with ⟨-,none_,same⟩ | ⟨-,one,same⟩
  · rw [none_,same]; rfl
  · rw [one,same,partOwn]; rfl

theorem registered {x : Sid} (below : x < m.stack.made) (number : m.fd x ≠ none) :
    SessionTcp.Registered (m.own x) ∧ SessionTcp.Settled (m.own x) := by
  rcases accepted.either below with before | rfl
  · rw [accepted.oldFd before] at number
    rw [accepted.oldOwn before]
    exact apart.dialled x before number
  · rw [accepted.newOwn apart]
    rw [accepted.newFd] at number
    rcases accepted.kind with ⟨none_,-⟩ | ⟨-,-,same⟩
    · exact absurd none_ number
    · rw [same]; exact ⟨SessionTcp.startRegistered,SessionTcp.startSettled⟩

theorem undialled {x : Sid} (below : x < m.stack.made) (number : m.fd x = none) :
    (x,.add) ∉ m.tasks ∧ (m.stack.session x).fd = false := by
  rcases accepted.either below with before | rfl
  · rw [accepted.oldFd before] at number
    obtain ⟨unposted,closed⟩ := apart.undialled x before number
    rw [accepted.oldSession before]
    refine ⟨fun there => ?_,closed⟩
    rcases accepted.posted there with old | ⟨same,-⟩
    · exact unposted old
    · exact Nat.ne_of_lt before same
  · rw [accepted.newFd] at number
    rw [accepted.newSession]
    refine ⟨fun there => ?_,?_⟩
    · rcases accepted.posted there with old | ⟨-,-,some_⟩
      · exact Nat.lt_irrefl _ (apart.posted _ _ old)
      · exact some_ number
    · rcases accepted.kind with ⟨-,-,same⟩ | ⟨⟨n,some_⟩,-⟩
      · rw [same]; rfl
      · rw [number] at some_; cases some_

theorem ordered : m.tasks.Pairwise fun x y =>
    Registering x.2 → Registering y.2 → ∀ k, m.fd x.1 = some k → m.fd y.1 = some k → x.1 ≤ y.1 := by
  rw [accepted.tasks,List.pairwise_append]
  refine ⟨?_,?_,?_⟩
  · refine apart.ordered.imp_of_mem fun {x y} there there' order registering last k numberX numberY => ?_
    rw [accepted.oldFd (apart.posted x.1 x.2 there)] at numberX
    rw [accepted.oldFd (apart.posted y.1 y.2 there')] at numberY
    exact order registering last k numberX numberY
  · rcases accepted.kind with ⟨-,none_,-⟩ | ⟨-,one,-⟩
    · rw [none_]; exact List.Pairwise.nil
    · rw [one]; exact List.pairwise_singleton _ _
  · intro x old y there _ _ k _ _
    have newest : y.1 = l.stack.made := by
      rcases accepted.kind with ⟨-,none_,-⟩ | ⟨-,one,-⟩
      · rw [none_] at there; contradiction
      · rw [one,List.mem_singleton] at there
        rw [there]
    rw [newest]
    exact Nat.le_of_lt (apart.posted x.1 x.2 old)

theorem begun {a b : Sid} {k : Fd} (before : a < b) (below : b < m.stack.made) (numberA : m.fd a = some k)
    (numberB : m.fd b = some k) (unposted : (b,.add) ∉ m.tasks) :
    (∀ task, Registering task → (a,task) ∉ m.tasks) ∧ ∀ events, m.ioWatchers.lookup k ≠ some (a,events) := by
  rcases accepted.either below with beforeB | rfl
  · have beforeA := Nat.lt_trans before beforeB
    rw [accepted.oldFd beforeA] at numberA
    rw [accepted.oldFd beforeB] at numberB
    obtain ⟨none_,unwatched⟩ := apart.begun a b k before beforeB numberA numberB fun there => unposted (accepted.stays there)
    refine ⟨fun task registering there => ?_,fun events => ?_⟩
    · rcases accepted.posted there with old | ⟨same,-⟩
      · exact none_ task registering old
      · exact Nat.ne_of_lt beforeA same
    · rw [accepted.ioWatchers]; exact unwatched events
  · rw [accepted.newFd] at numberB
    refine absurd ?_ unposted
    rcases accepted.kind with ⟨none_,-⟩ | ⟨-,one,-⟩
    · rw [none_] at numberB; cases numberB
    · rw [accepted.tasks,one]
      exact List.mem_append_right _ List.mem_cons_self

theorem idle {x : Sid} (below : x < m.stack.made) (elsewhere : m.turn ≠ some x) : (m.stack.session x).pc = .idle := by
  rw [accepted.turn] at elsewhere
  rcases accepted.either below with before | rfl
  · rw [accepted.oldSession before]; exact apart.idle x before elsewhere
  · rw [accepted.newSession]
    rcases accepted.kind with ⟨-,-,same⟩ | ⟨-,-,same⟩ <;> rw [same] <;> rfl

theorem passed {x : Sid} (below : x < m.stack.made) : m.written x = (m.stack.session x).sent ∧ m.read x = (m.stack.session x).received := by
  rw [accepted.written,accepted.read]
  rcases accepted.either below with before | rfl
  · rw [accepted.oldSession before]; exact apart.passed x before
  · obtain ⟨written,read⟩ := apart.fresh _ (Nat.le_refl l.stack.made)
    rw [accepted.newSession,written,read]
    rcases accepted.kind with ⟨-,-,same⟩ | ⟨-,-,same⟩ <;> rw [same] <;> exact ⟨rfl,rfl⟩

section
variable (free : dialled.bind l.sockets.lookup = none)
include free

theorem opened (k : Fd) (x : Sid) : m.sockets.lookup k = some x ↔ x < m.stack.made ∧ m.fd x = some k ∧ (m.stack.session x).fd = true := by
  rw [accepted.sockets]
  constructor
  · intro found
    split at found
    · rename_i number
      cases found
      rw [accepted.made,accepted.newFd,accepted.newSession]
      refine ⟨Nat.lt_succ_self _,number,?_⟩
      rcases accepted.kind with ⟨none_,-⟩ | ⟨-,-,same⟩
      · rw [none_] at number; cases number
      · rw [same]; rfl
    · obtain ⟨before,number,opened⟩ := (apart.opened k x).1 found
      rw [accepted.oldFd before,accepted.oldSession before]
      exact ⟨accepted.below before,number,opened⟩
  · rintro ⟨below,number,opened⟩
    rcases accepted.either below with before | rfl
    · rw [accepted.oldFd before] at number
      rw [accepted.oldSession before] at opened
      rw [if_neg fun same => absurd opened (by rw [freeShut apart free before number same]; exact Bool.false_ne_true)]
      exact (apart.opened k x).2 ⟨before,number,opened⟩
    · rw [accepted.newFd] at number
      rw [if_pos number]

theorem earlier {a b : Sid} {k : Fd} (before : a < b) (below : b < m.stack.made) (numberA : m.fd a = some k)
    (numberB : m.fd b = some k) : (m.stack.session a).fd = false := by
  rcases accepted.either below with beforeB | rfl
  · have beforeA := Nat.lt_trans before beforeB
    rw [accepted.oldFd beforeA] at numberA
    rw [accepted.oldFd beforeB] at numberB
    rw [accepted.oldSession beforeA]
    exact apart.earlier a b k before beforeB numberA numberB
  · rw [accepted.oldFd before] at numberA
    rw [accepted.newFd] at numberB
    rw [accepted.oldSession before]
    exact freeShut apart free before numberA numberB

theorem kept : Apart m where
  posted x task there := by
    rcases accepted.posted there with old | ⟨rfl,-⟩
    · exact accepted.below (apart.posted x task old)
    · rw [accepted.made]; exact Nat.lt_succ_self _
  keyed k iw found := by
    rw [accepted.ioWatchers] at found
    obtain ⟨before,number⟩ := apart.keyed k iw found
    rw [accepted.oldFd before]
    exact ⟨accepted.below before,number⟩
  opened := accepted.opened apart free
  dialled _ below number := accepted.registered apart below number
  undialled _ below number := accepted.undialled apart below number
  earlier _ _ _ before below numberA numberB := accepted.earlier apart free before below numberA numberB
  ordered := accepted.ordered apart
  begun _ _ _ before below numberA numberB unposted := accepted.begun apart before below numberA numberB unposted
  idle _ below elsewhere := accepted.idle apart below elsewhere
  turning x turn := by
    rw [accepted.turn] at turn
    exact accepted.below (apart.turning x turn)
  passed _ below := accepted.passed apart below
  fresh x above := by
    rw [accepted.made] at above
    rw [accepted.written,accepted.read]
    exact apart.fresh x (Nat.le_of_succ_le above)

end

theorem extend : Extends l m := by
  refine ⟨by rw [accepted.made]; exact Nat.le_succ _,fun s before => accepted.oldFd before,fun s above below => ?_⟩
  rw [accepted.made] at below
  have same : s = l.stack.made := Nat.le_antisymm (Nat.le_of_lt_succ below) above
  rw [same,accepted.newOwn apart,TcpLandings.begun,accepted.newFd]
  rcases accepted.kind with ⟨none_,-,undialed⟩ | ⟨⟨n,some_⟩,-,start⟩
  · rw [none_]; exact undialed
  · rw [some_]; exact start

end

end Accepted

end

theorem acceptOwned (sound : Sound l) {newpcb : Pcb} {dialled : Option Fd} (free : dialled.bind l.sockets.lookup = none) :
    Apart (l.onAccept newpcb dialled) ∧
    (l.onAccept newpcb dialled).owned = TcpStack.onAccept l.owned newpcb dialled.isSome ∧
    Extends l (l.onAccept newpcb dialled) := by
  have apart := sound.apart
  cases running : l.stack.running with
  | false =>
    have still : l.owned.running = false := running
    simp only [State.onAccept,TcpStack.onAccept,running,still,Bool.not_false,if_true]
    exact ⟨apart,trivial,.same rfl rfl⟩
  | true =>
    obtain ⟨t,new,accepted,stack⟩ := @acceptAccepted l dialled newpcb running
    refine ⟨accepted.kept apart free,?_,accepted.extend apart⟩
    have still : l.owned.running = true := running
    have session : (l.onAccept newpcb dialled).owned.session = Function.update l.owned.session l.stack.made t := by
      funext x
      change (if x < (l.onAccept newpcb dialled).stack.made then (l.onAccept newpcb dialled).own x else
        (l.onAccept newpcb dialled).stack.session x) = _
      rw [accepted.made]
      rcases Nat.lt_trichotomy x l.stack.made with before | rfl | after
      · rw [if_pos (Nat.lt_succ_of_lt before),accepted.oldOwn before,Function.update_of_ne (Nat.ne_of_lt before),
          ownedAt before]
      · rw [if_pos (Nat.lt_succ_self _),accepted.newOwn apart,Function.update_self]
      · have other : x ≠ l.stack.made := Nat.ne_of_gt after
        rw [if_neg (Nat.not_lt.2 after),accepted.session,Function.update_of_ne other,Function.update_of_ne other]
        exact (if_neg (Nat.not_lt_of_gt after)).symm
    have start : t = if dialled.isSome then SessionTcp.State.start else TcpStack.undialed := by
      rcases accepted.kind with ⟨none_,-,same⟩ | ⟨⟨n,some_⟩,-,same⟩
      · rw [none_]; exact same
      · rw [some_]; exact same
    have owned : (l.onAccept newpcb dialled).owned = {(l.onAccept newpcb dialled).stack with
        session := Function.update l.owned.session l.stack.made t} := by rw [← session]; rfl
    rw [owned,stack,start]
    simp only [TcpStack.onAccept,running,still,Bool.not_true,Bool.false_eq_true,if_false]
    cases dialled.isSome <;> rfl

/- A step here is one of the stack whose sessions have the Reactor for themselves. -/
structure Follows (l m : State) : Prop where
  apart : Apart m
  stack : ∃ seen, TcpStack.step l.owned seen m.owned
  more : Extends l m

theorem reactorFollows (sound : Sound l) (made : s < l.stack.made) {e : SessionTcp.Event} (called : Called l s e)
    (reactor : e.onReactor = true) (acted : l.act s e = some m) : Follows l m := by
  obtain ⟨apart,seen,more⟩ := actOwned sound.apart made called acted
  exact ⟨apart,⟨.reactor s e,(if_pos ⟨made,reactor⟩).trans seen⟩,more⟩

theorem callbackFollows (sound : Sound l) {pcb : Pcb} {e : SessionTcp.Event} (seen : TcpStack.Event) (stack : e.onReactor = false)
    (here : (if l.stack.aborting.isSome then none else l.callback pcb e) = some m)
    (there : TcpStack.handle l.owned seen = if l.owned.aborting.isSome then none else TcpStack.callback l.owned pcb e) : Follows l m := by
  split at here <;> try contradiction
  rename_i calm
  obtain ⟨apart,called,more⟩ := callbackOwned sound stack here
  exact ⟨apart,⟨seen,there.trans ((if_neg (show ¬ l.owned.aborting.isSome = true from calm)).trans called)⟩,more⟩

theorem abortedFollows (sound : Sound l) (stepped : step l .aborted m) : Follows l m := by
  obtain ⟨pcb,aborting,called⟩ := Option.bind_eq_some_iff.1 stepped
  obtain ⟨n,acted,same⟩ := Option.map_eq_some_iff.1 called
  subst same
  obtain ⟨apart,seen,more⟩ := callbackOwned sound (by rfl) acted
  refine ⟨apart.beside rfl rfl,⟨.aborted,?_⟩,⟨more.made,more.fd,more.new⟩⟩
  have still : l.owned.aborting = some pcb := aborting
  simp only [TcpStack.step,TcpStack.handle,still,Option.bind_some,seen,Option.map_some]; rfl

theorem acceptFollows (sound : Sound l) {newpcb : Option Pcb} {dialled : Option Fd}
    (stepped : step l (.accept newpcb dialled) m) : Follows l m := by
  simp only [step,handle] at stepped
  split at stepped <;> try contradiction
  rename_i calm
  have calm' : ¬ l.owned.aborting.isSome = true := calm
  cases newpcb with
  | none =>
    cases Option.some.inj stepped
    exact ⟨sound.apart,⟨.accept none true,if_neg calm'⟩,.same rfl rfl⟩
  | some pcb =>
    simp only at stepped
    split at stepped <;> try contradiction
    rename_i able
    cases Option.some.inj stepped
    obtain ⟨apart,owned,more⟩ := @acceptOwned l sound pcb dialled able.2
    refine ⟨apart,⟨.accept (some pcb) dialled.isSome,?_⟩,more⟩
    rw [owned]
    exact (if_neg calm').trans (if_pos able.1)

theorem teardownFollows (sound : Sound l) (stepped : step l .teardown m) : Follows l m := by
  simp only [step,handle] at stepped
  split at stepped <;> try contradiction
  rename_i calm
  split at stepped <;> try contradiction
  rename_i stopped
  cases Option.some.inj stepped
  obtain ⟨apart,owned,more⟩ := teardownOwned sound
  refine ⟨apart,⟨.teardown,?_⟩,more⟩
  rw [owned]
  exact (if_neg (show ¬ l.owned.aborting.isSome = true from calm)).trans
    (if_neg (show ¬ l.owned.running = true from stopped))

theorem stepFollows {e : Event} (sound : Sound l) (stepped : step l e m) : Follows l m := by
  cases e with
  | shutdown =>
    cases Option.some.inj stepped
    exact ⟨sound.apart.beside rfl rfl,⟨.shutdown,rfl⟩,.same rfl rfl⟩
  | aborted => exact abortedFollows sound stepped
  | accept => exact acceptFollows sound stepped
  | teardown => exact teardownFollows sound stepped
  | recv pcb data => exact callbackFollows sound (.recv pcb data) (by rfl) stepped rfl
  | fin pcb => exact callbackFollows sound (.fin pcb) (by rfl) stepped rfl
  | sent pcb answers => exact callbackFollows sound (.sent pcb answers) (by rfl) stepped rfl
  | err pcb => exact callbackFollows sound (.err pcb) (by rfl) stepped rfl
  | stackRan s answers =>
    simp only [step,handle] at stepped
    split at stepped <;> try contradiction
    rename_i calm
    split at stepped <;> try contradiction
    rename_i made
    obtain ⟨apart,seen,more⟩ := @actOwned l m s sound.apart made (.stackRan answers) trivial stepped
    exact ⟨apart,⟨.stackRan s answers,(if_neg (show ¬ l.owned.aborting.isSome = true from calm)).trans ((if_pos made).trans seen)⟩,more⟩
  | polled n events =>
    simp only [step,handle] at stepped
    split at stepped <;> try contradiction
    rename_i turn
    obtain ⟨⟨s,interest⟩,found,acted⟩ := Option.bind_eq_some_iff.1 stepped
    obtain ⟨made,number⟩ := sound.apart.keyed n _ found
    have called : Called l s (.fdEvent events) := ⟨turn,interest,by rw [entryAt number,found]⟩
    exact reactorFollows sound made called rfl acted
  | goesOn e =>
    simp only [step,handle] at stepped
    split at stepped <;> try contradiction
    rename_i continuing
    obtain ⟨s,turn,acted⟩ := Option.bind_eq_some_iff.1 stepped
    have called : Called l s e ∧ e.onReactor = true := by
      cases e with
      | connected | read | paused | flushed => exact ⟨turn,rfl⟩
      | recv | fin | sent | err | teardown | stackRan | fdEvent | ran => contradiction
    exact reactorFollows sound (sound.apart.turning s turn) called.1 called.2 acted
  | ran sends =>
    simp only [step,handle] at stepped
    split at stepped <;> try contradiction
    rename_i turn
    obtain ⟨⟨s,task⟩,found,acted⟩ := Option.bind_eq_some_iff.1 stepped
    obtain ⟨rest,queue⟩ := List.head?_eq_some_iff.1 found
    have called : Called l s (.ran sends) := ⟨turn,task,rest,queue⟩
    exact reactorFollows sound (sound.apart.posted s task (by rw [queue]; exact List.mem_cons_self)) called rfl acted

theorem soundStep {e : Event} (sound : Sound l) (stepped : step l e m) :
    Sound m ∧ (∃ seen, TcpStack.step l.owned seen m.owned) ∧ Extends l m := by
  obtain ⟨apart,⟨seen,moved⟩,more⟩ := stepFollows sound stepped
  exact ⟨⟨apart,TcpStack.keptStep sound.kept moved⟩,⟨seen,moved⟩,more⟩

theorem initialSound : Sound initial := by
  refine ⟨?_,?_⟩
  · constructor
    case opened =>
      intro k s
      exact ⟨fun wrong => by contradiction,fun ⟨wrong,_⟩ => absurd wrong (Nat.not_lt_zero s)⟩
    case ordered => exact List.Pairwise.nil
    case posted => exact fun _ _ wrong => by contradiction
    case keyed => exact fun _ _ wrong => by contradiction
    case dialled => exact fun s wrong => absurd wrong (Nat.not_lt_zero s)
    case undialled => exact fun s wrong => absurd wrong (Nat.not_lt_zero s)
    case earlier => exact fun _ b _ _ wrong => absurd wrong (Nat.not_lt_zero b)
    case begun => exact fun _ b _ _ wrong => absurd wrong (Nat.not_lt_zero b)
    case idle => exact fun s wrong => absurd wrong (Nat.not_lt_zero s)
    case turning => exact fun _ wrong => by contradiction
    case passed => exact fun s wrong => absurd wrong (Nat.not_lt_zero s)
    case fresh => exact fun _ _ => ⟨rfl,rfl⟩
  · exact TcpStack.startKept

theorem sessionMoves {n k : NetStack} {e : TcpStack.Event} (kept : TcpStack.Kept n) (stepped : TcpStack.step n e k)
    (made : s < n.made) : k.session s = n.session s ∨ ∃ se, SessionTcp.step (n.session s) se (k.session s) := by
  have delivers {x : Sid} {se : SessionTcp.Event} {j : NetStack} (ok : TcpStack.deliver n x se = some j) :
      j.session s = n.session s ∨ ∃ se, SessionTcp.step (n.session s) se (j.session s) := by
    obtain ⟨stepped,others,-⟩ := TcpStack.deliverFrame ok
    by_cases same : s = x
    · subst same; exact .inr ⟨se,stepped⟩
    · exact .inl (others s same)
  have calls {pcb : Pcb} {se : SessionTcp.Event} {j : NetStack} (ok : TcpStack.callback n pcb se = some j) :
      j.session s = n.session s ∨ ∃ se, SessionTcp.step (n.session s) se (j.session s) := by
    obtain ⟨x,-,delivered⟩ := Option.bind_eq_some_iff.1 ok
    exact delivers delivered
  unfold TcpStack.step at stepped
  cases e with
  | shutdown =>
    cases Option.some.inj stepped
    exact .inl rfl
  | reactor x se =>
    simp only [TcpStack.handle] at stepped
    split at stepped <;> try contradiction
    exact delivers stepped
  | aborted =>
    obtain ⟨pcb,-,called⟩ := Option.bind_eq_some_iff.1 stepped
    obtain ⟨j,ok,same⟩ := Option.map_eq_some_iff.1 called
    subst same
    have moves := calls ok
    exact moves
  | accept newpcb dialed =>
    simp only [TcpStack.handle] at stepped
    split at stepped <;> try contradiction
    cases newpcb with
    | none => cases Option.some.inj stepped; exact .inl rfl
    | some pcb =>
      simp only at stepped
      split at stepped <;> try contradiction
      cases Option.some.inj stepped
      refine .inl ?_
      unfold TcpStack.onAccept
      split
      · rfl
      · simp only
        split <;> exact Function.update_of_ne (Nat.ne_of_lt made) ..
  | recv | fin | sent | err =>
    simp only [TcpStack.handle] at stepped
    split at stepped <;> try contradiction
    exact calls stepped
  | stackRan x answers =>
    simp only [TcpStack.handle] at stepped
    split at stepped <;> try contradiction
    split at stepped <;> try contradiction
    exact delivers stepped
  | teardown =>
    simp only [TcpStack.handle] at stepped
    split at stepped <;> try contradiction
    split at stepped <;> try contradiction
    cases Option.some.inj stepped
    have session := (TcpStack.shutdownAll (n.sessions.entries.map Sigma.snd) n).1 s
    rw [TcpStack.teardownStack,session]
    split
    · rename_i there
      obtain ⟨⟨pcb,x⟩,inside,same⟩ := List.mem_map.1 there
      cases same
      exact .inr ⟨.teardown,SessionTcp.stepOf (.teardown (kept.entered pcb _ (Table.lookupSome.2 inside)).2.2)⟩
    · exact .inl rfl

structure Ran (l : State) : Prop where
  sound : Sound l
  stack : ∃ seen, Run TcpStack.step NetStack.start seen l.owned
  sessions : ∀ s < l.stack.made, ∃ seen, Run SessionTcp.step (begun l s) seen (l.own s)

theorem ranRun {events : List Event} (run : Run step initial events l) : Ran l := by
  refine run.invariant ⟨initialSound,⟨[],.nil⟩,fun s wrong => absurd wrong (Nat.not_lt_zero s)⟩ ?_
  intro l e m ⟨sound,⟨seen,before⟩,sessions⟩ stepped
  obtain ⟨after,⟨event,step⟩,more⟩ := soundStep sound stepped
  refine ⟨after,⟨seen ++ [event],before.snoc step⟩,fun s below => ?_⟩
  rcases Nat.lt_or_ge s l.stack.made with made | above
  · obtain ⟨steps,run⟩ := sessions s made
    have start : begun m s = begun l s := by rw [begun,begun,more.fd s made]
    have moves := sessionMoves sound.kept step made
    rw [ownedAt made,ownedAt below] at moves
    rw [start]
    rcases moves with same | ⟨e,stepped⟩
    · exact ⟨steps,by rw [same]; exact run⟩
    · exact ⟨steps ++ [e],run.snoc stepped⟩
  · rw [more.new s above below]
    exact ⟨[],.nil⟩

/- The watcher of a closed session stays until its removal comes up, and add never finds an entry. -/
structure Landed (l : State) : Prop where
  sockets : ∀ n s, l.sockets.lookup n = some s ↔ s < l.stack.made ∧ l.fd s = some n ∧ (l.stack.session s).fd = true
  watchers : ∀ n s events, l.ioWatchers.lookup n = some (s,events) → l.fd s = some n ∧
    (l.sockets.lookup n = some s ∨ (l.stack.session s).closing = true ∧ (s,.del) ∈ l.tasks)
  unmet : ∀ s rest, l.tasks = (s,.add)::rest → l.entry s = none
  passed : ∀ s < l.stack.made, l.written s <+: (l.stack.session s).delivered ∧ l.read s = (l.stack.session s).received

theorem creditedRun {events : List SessionTcp.Event} {t : SessionTcp.State} (run : Run SessionTcp.step (begun l s) events t) :
    SessionTcp.Credited t := by
  refine run.invariant ?_ fun _ _ _ credited stepped => SessionTcp.creditedStep credited stepped
  unfold begun
  split <;> exact ⟨rfl,fun _ => ⟨0,rfl⟩,fun _ wrong => by contradiction⟩

theorem landedRan (ran : Ran l) : Landed l := by
  have apart := ran.sound.apart
  constructor
  case sockets => exact apart.opened
  case watchers =>
    intro n s events found
    obtain ⟨made,number⟩ := apart.keyed n _ found
    obtain ⟨registered,settled⟩ := apart.dialled s made (by rw [number]; exact Option.some_ne_none n)
    refine ⟨number,?_⟩
    cases opened : (l.stack.session s).fd with
    | true => exact .inl ((apart.opened n s).2 ⟨made,number,opened⟩)
    | false =>
      refine .inr ⟨?_,memPart.1 ((settled opened).resolve_left fun off => ?_)⟩
      · rcases Bool.eq_false_or_eq_true (l.stack.session s).closing with closing | still
        · exact closing
        · exact absurd ((registered.opened still).symm.trans opened) Bool.noConfusion
      · have watching := ownMine number found
        rw [off.watcher] at watching
        cases watching
  case unmet =>
    intro s rest queue
    have waiting : (s,Task.add) ∈ l.tasks := by rw [queue]; exact List.mem_cons_self
    have made := apart.posted s .add waiting
    cases found : l.entry s with
    | none => rfl
    | some iw =>
      obtain ⟨a,events⟩ := iw
      obtain ⟨n,number,there⟩ := Option.bind_eq_some_iff.1 found
      obtain ⟨registered,-⟩ := apart.dialled s made (by rw [number]; exact Option.some_ne_none n)
      by_cases same : a = s
      · subst same
        have watching := ownMine number there
        rw [(registered.adding (memPart.2 waiting)).1] at watching
        cases watching
      · rcases aliasCases apart made found same with ⟨-,unqueued⟩ | ⟨-,done⟩
        · exact absurd queue (unqueued .add rest)
        · exact absurd waiting (done .add (.inl rfl))
  case passed =>
    intro s made
    obtain ⟨written,read⟩ := apart.passed s made
    obtain ⟨seen,run⟩ := ran.sessions s made
    have whole : (l.stack.session s).sent ++ (l.stack.session s).forwardBuf = (l.stack.session s).delivered := (creditedRun run).whole
    exact ⟨⟨_,by rw [written]; exact whole⟩,read⟩

end

/- The client resets the first connection while its socket is watched, and the next dial gets the same descriptor. -/
def comesAgain : List Event := [.accept (some 5) (some 3),.ran [],.err 5,.accept (some 6) (some 3)]

end Candy.TcpLandings
