import Candy.TcpLandings

/-! Descriptors that come again. The error callback closes a descriptor before the
Reactor has stopped watching it, so for a while the table may have the watcher of a
closed session under the descriptor of a new one. The queue keeps them apart: what
the earlier session still wants of the Reactor comes before the later one is watched. -/
namespace Candy.TcpLandings
open Runs Shares
open TcpStack (NetStack Pcb Sid)
open SessionTcp (Task ReactorEvent)

namespace State

/- A session with its own watcher, if the table has it. -/
def own (l : State) (s : Sid) : SessionTcp.State :=
  {l.stack.session s with watcher := ((l.entry s).filter fun iw => iw.1 = s).map Prod.snd,tasks := part s l.tasks}

def owned (l : State) : NetStack :=
  {l.stack with session := fun s => if s < l.stack.made then l.own s else l.stack.session s}

end State

def Registering (task : Task) : Prop := task = .add ∨ task = .del

/- `begun` is the order of the queue once more: when the later session of a descriptor
is registered, the earlier one has nothing left in the Reactor. -/
structure Apart (l : State) : Prop where
  posted : ∀ s task, (s,task) ∈ l.tasks → s < l.stack.made
  keyed : ∀ n iw, l.ioWatchers.lookup n = some iw → iw.1 < l.stack.made ∧ l.fd iw.1 = some n
  opened : ∀ n s, l.sockets.lookup n = some s ↔ s < l.stack.made ∧ l.fd s = some n ∧ (l.stack.session s).fd = true
  dialled : ∀ s < l.stack.made, l.fd s ≠ none → SessionTcp.Registered (l.own s) ∧ SessionTcp.Settled (l.own s)
  undialled : ∀ s < l.stack.made, l.fd s = none → (s,.add) ∉ l.tasks ∧ (l.stack.session s).fd = false
  earlier : ∀ a b n, a < b → b < l.stack.made → l.fd a = some n → l.fd b = some n → (l.stack.session a).fd = false
  ordered : l.tasks.Pairwise fun x y => Registering x.2 → Registering y.2 → ∀ n, l.fd x.1 = some n → l.fd y.1 = some n → x.1 ≤ y.1
  begun : ∀ a b n, a < b → b < l.stack.made → l.fd a = some n → l.fd b = some n → (b,.add) ∉ l.tasks →
    (∀ task, Registering task → (a,task) ∉ l.tasks) ∧ ∀ events, l.ioWatchers.lookup n ≠ some (a,events)
  idle : ∀ s < l.stack.made, l.turn ≠ some s → (l.stack.session s).pc = .idle
  turning : ∀ s, l.turn = some s → s < l.stack.made
  passed : ∀ s < l.stack.made, l.written s = (l.stack.session s).sent ∧ l.read s = (l.stack.session s).received
  fresh : ∀ s, l.stack.made ≤ s → l.written s = [] ∧ l.read s = []

section
variable {l : State} {s : Sid}

theorem entryAt {n : Fd} (number : l.fd s = some n) : l.entry s = l.ioWatchers.lookup n := by
  rw [State.entry,number,Option.bind_some]

theorem entryNone (undialled : l.fd s = none) : l.entry s = none := by
  rw [State.entry,undialled,Option.bind_none]

theorem viewOwn (mine : ∀ iw, l.entry s = some iw → iw.1 = s) : l.view s = l.own s := by
  have same : (l.entry s).filter (fun iw => iw.1 = s) = l.entry s := by
    cases found : l.entry s with
    | none => rfl
    | some iw => rw [Option.filter_some,if_pos (by simpa using mine iw found)]
  rw [State.view,State.own,same]

theorem ownOther {a : Sid} {events : ReactorEvent} (found : l.entry s = some (a,events)) (other : a ≠ s) :
    l.own s = {l.view s with watcher := none} := by
  rw [State.own,found,Option.filter_some,if_neg (by simpa using other)]; rfl

theorem ownMine {n : Fd} {events : ReactorEvent} (number : l.fd s = some n) (found : l.ioWatchers.lookup n = some (s,events)) :
    (l.own s).watcher = some events := by
  rw [State.own,entryAt number,found,Option.filter_some,if_pos (by simp)]; rfl

/- Which steps the Reactor takes with a session: an event of its own descriptor and what
follows in this callback, and the first task. -/
def Called (l : State) (s : Sid) : SessionTcp.Event → Prop
  | .fdEvent _ => l.turn = none ∧ ∃ events, l.entry s = some (s,events)
  | .ran _ => l.turn = none ∧ ∃ task rest, l.tasks = (s,task)::rest
  | .connected _ | .read _ | .paused | .flushed _ => l.turn = some s
  | _ => True

theorem Called.queue {e : SessionTcp.Event} (called : Called l s e) :
    SessionTcp.taken e = 0 ∨ (SessionTcp.taken e = 1 ∧ ∃ task rest, l.tasks = (s,task)::rest) := by
  cases e with
  | ran => exact .inr ⟨rfl,called.2⟩
  | _ => exact .inl rfl

theorem Called.alone {e : SessionTcp.Event} (called : Called l s e) (reactor : e.onReactor = true) {x : Sid} (other : x ≠ s) :
    l.turn ≠ some x := by
  cases e with
  | recv | fin | sent | err | teardown | stackRan => contradiction
  | fdEvent | ran => simp [called.1]
  | connected | read | paused | flushed =>
    rw [show l.turn = some s from called]
    exact fun same => other (Option.some.inj same).symm

/- Another's watcher under a session's descriptor is that of an earlier session, before this
one is registered, or that of a later one, when nothing of this one is left. -/
theorem aliasCases (apart : Apart l) (made : s < l.stack.made) {a : Sid} {events : ReactorEvent}
    (found : l.entry s = some (a,events)) (other : a ≠ s) :
    ((s,.add) ∈ l.tasks ∧ ∀ task rest, l.tasks ≠ (s,task)::rest) ∨
    ((l.stack.session s).fd = false ∧ ∀ task, Registering task → (s,task) ∉ l.tasks) := by
  obtain ⟨n,number,there⟩ := Option.bind_eq_some_iff.1 found
  obtain ⟨madeA,numberA⟩ := apart.keyed n _ there
  obtain ⟨registered,-⟩ := apart.dialled s made (by rw [number]; exact Option.some_ne_none n)
  obtain ⟨registeredA,settledA⟩ := apart.dialled a madeA (by rw [numberA]; exact Option.some_ne_none n)
  have watching := ownMine numberA there
  rcases Nat.lt_or_gt_of_ne other with before | after
  · have waiting : (s,.add) ∈ l.tasks := by
      by_contra begun
      exact (apart.begun a s n before made numberA number begun).2 events there
    refine .inl ⟨waiting,fun task more first => ?_⟩
    obtain ⟨-,-,rest,queue,-⟩ := registered.adding (memPart.2 waiting)
    have removes : (a,.del) ∈ l.tasks := by
      refine memPart.1 ((settledA (apart.earlier a s n before made numberA number)).resolve_left fun off => ?_)
      rw [off.watcher] at watching
      cases watching
    have head : task = .add := by
      have mine := queue
      rw [State.own,first,partOwn] at mine
      exact (List.cons.inj mine).1
    have order := apart.ordered
    rw [first,head,List.pairwise_cons] at order
    rw [first,head] at removes
    rcases List.mem_cons.1 removes with same | later
    · exact other (congrArg Prod.fst same)
    · have late : s ≤ a := order.1 _ later (.inl rfl) (.inr rfl) n number numberA
      exact absurd late (Nat.not_le_of_lt before)
  · have begun : (a,.add) ∉ l.tasks := fun waiting => by
      rw [(registeredA.adding (memPart.2 waiting)).1] at watching
      cases watching
    exact .inr ⟨apart.earlier s a n after madeA number numberA,(apart.begun s a n after madeA number numberA begun).1⟩

theorem aliasBlind (apart : Apart l) (made : s < l.stack.made) {a : Sid} {events : ReactorEvent}
    (found : l.entry s = some (a,events)) (other : a ≠ s) {e : SessionTcp.Event} (called : Called l s e)
    {t : SessionTcp.State} (stepped : SessionTcp.step (l.view s) e t) :
    t.watcher = some events ∧ l.adds s e = false ∧ SessionTcp.step (l.own s) e {t with watcher := none} := by
  obtain ⟨n,number,-⟩ := Option.bind_eq_some_iff.1 found
  obtain ⟨registered,-⟩ := apart.dialled s made (by rw [number]; exact Option.some_ne_none n)
  have seen : (l.view s).watcher = some events := by rw [State.view,found]; rfl
  have unasked : ∀ events, e ≠ .fdEvent events := by
    rintro x rfl
    obtain ⟨-,y,mine⟩ := called
    exact other (congrArg Prod.fst (Option.some.inj (found.symm.trans mine)))
  rw [ownOther found other]
  rcases aliasCases apart made found other with ⟨waiting,unqueued⟩ | ⟨shut,done⟩
  · obtain ⟨-,idle,-⟩ := registered.adding (memPart.2 waiting)
    have stack : e.onReactor = false := by
      cases e with
      | recv | fin | sent | err | teardown | stackRan => rfl
      | fdEvent x => exact absurd rfl (unasked x)
      | ran =>
        obtain ⟨-,task,rest,queue⟩ := called
        exact absurd queue (unqueued task rest)
      | connected | read | paused | flushed =>
        have resting : (l.view s).pc = .idle := idle
        simp only [SessionTcp.step,SessionTcp.handle,resting] at stepped
        contradiction
    obtain ⟨kept,blind⟩ := SessionTcp.stackBlind none stack stepped
    refine ⟨kept.trans seen,?_,blind⟩
    cases e with
    | ran => contradiction
    | _ => rfl
  · have closing : (l.view s).closing = true := by
      rcases Bool.eq_false_or_eq_true (l.view s).closing with closing | opened
      · exact closing
      · exact absurd (registered.opened opened) (by rw [show (l.own s).fd = _ from shut]; decide)
    have plain : ∀ task rest, (l.view s).tasks = task::rest → task ≠ .add ∧ task ≠ .del := by
      intro task rest queue
      have queued : (s,task) ∈ l.tasks := memPart.1 (show task ∈ (l.view s).tasks by rw [queue]; exact List.mem_cons_self)
      exact ⟨fun same => done task (.inl same) queued,fun same => done task (.inr same) queued⟩
    obtain ⟨kept,blind⟩ := @SessionTcp.closedBlind (l.view s) t none e shut closing plain unasked stepped
    refine ⟨kept.trans seen,?_,blind⟩
    cases e with
    | ran =>
      rw [State.adds,beq_eq_false_iff_ne]
      intro first
      obtain ⟨rest,queue⟩ := List.head?_eq_some_iff.1 first
      exact (plain _ _ queue).1 rfl
    | _ => rfl

theorem storeTasks {e : SessionTcp.Event} (called : Called l s e) {n : NetStack} (stepped : SessionTcp.step (l.view s) e (n.session s)) :
    ∃ more, (l.store s e n).tasks = l.tasks.drop (SessionTcp.taken e) ++ more.map (fun task => (s,task)) ∧
      (n.session s).tasks = part s (l.tasks.drop (SessionTcp.taken e)) ++ more ∧
      .add ∉ more ∧ (.del ∈ more → (l.stack.session s).fd = true) := by
  obtain ⟨more,tasks,unadded,removing⟩ := SessionTcp.posted stepped
  have dropped : part s (l.tasks.drop (SessionTcp.taken e)) = (l.view s).tasks.drop (SessionTcp.taken e) := by
    rcases called.queue with none_ | ⟨one,task,rest,queue⟩
    · rw [none_,List.drop_zero,List.drop_zero]; rfl
    · rw [one,show (l.view s).tasks = part s l.tasks from rfl,queue,partOwn]; rfl
  refine ⟨more,?_,by rw [dropped]; exact tasks,unadded,removing⟩
  have new : (n.session s).tasks.drop ((l.view s).tasks.length - SessionTcp.taken e) = more := by
    rw [tasks,← List.length_drop]
    exact List.drop_left
  rw [State.store,new]

theorem dropOther {e : SessionTcp.Event} (called : Called l s e) {x : Sid} (other : s ≠ x) :
    part x (l.tasks.drop (SessionTcp.taken e)) = part x l.tasks := by
  rcases called.queue with none_ | ⟨one,task,rest,queue⟩
  · rw [none_,List.drop_zero]
  · rw [one,queue,partOther other]; rfl

theorem watchAt (added : Bool) (w : Option ReactorEvent) (k : Fd) : (l.watch s added w).lookup k =
    if l.fd s = some k then w.map (fun events => (l.handler s added,events)) else l.ioWatchers.lookup k := by
  unfold State.watch
  cases number : l.fd s with
  | none => simp only [reduceCtorEq,if_false]
  | some n =>
    cases w with
    | none => simp only [Table.lookupErase,Option.some.injEq,Option.map_none,eq_comm]
    | some events => simp only [Table.lookupInsert,Option.some.injEq,Option.map_some,eq_comm]

theorem handlerMine (mine : ∀ iw, l.entry s = some iw → iw.1 = s) (added : Bool) : l.handler s added = s := by
  unfold State.handler
  split
  · rfl
  · cases found : l.entry s with
    | none => rfl
    | some iw => exact mine iw found

structure Storing (l : State) (s : Sid) (e : SessionTcp.Event) (n : NetStack) : Prop where
  apart : Apart l
  made : s < l.stack.made
  called : Called l s e
  count : n.made = l.stack.made
  frame : ∀ x, x ≠ s → n.session x = l.stack.session x
  stepped : SessionTcp.step (l.view s) e (n.session s)

/- Every session's own watcher after the step: this one's is as its own step leaves it. -/
structure Stored (l : State) (s : Sid) (e : SessionTcp.Event) (m : State) : Prop where
  self : SessionTcp.step (l.own s) e (m.own s)
  others : ∀ x, x ≠ s → m.own x = l.own x
  watchers : ∀ k iw, m.ioWatchers.lookup k = some iw → l.ioWatchers.lookup k = some iw ∨
    (iw.1 = s ∧ l.fd s = some k ∧ (l.adds s e = true ∨ ∃ events, l.ioWatchers.lookup k = some (s,events)))

theorem storedEntry (e : SessionTcp.Event) (n : NetStack) (x : Sid) :
    (l.store s e n).entry x = (l.fd x).bind (l.store s e n).ioWatchers.lookup := rfl

theorem storedTable (e : SessionTcp.Event) (n : NetStack) (k : Fd) : (l.store s e n).ioWatchers.lookup k =
    if l.fd s = some k then (n.session s).watcher.map (fun events => (l.handler s (l.adds s e),events)) else l.ioWatchers.lookup k :=
  watchAt ..

theorem closeAt (closed : Bool) (k : Fd) : (l.close s closed).lookup k =
    if closed = true ∧ l.fd s = some k then none else l.sockets.lookup k := by
  unfold State.close
  cases number : l.fd s with
  | none => simp
  | some n => cases closed <;> simp [Table.lookupErase,eq_comm]

theorem passAt {history : Sid → Bytes} {more : Bytes} (through : more ≠ [] → l.socket s = some s) (x : Sid) :
    l.pass s history more x = if x = s then history s ++ more else history x := by
  by_cases nothing : more = []
  · rw [nothing,List.append_nil]
    have same : (if x = s then history s else history x) = history x := by split <;> simp_all
    rw [same,State.pass]
    cases l.socket s with
    | none => rfl
    | some dialled => simp only [List.append_nil,Function.update_eq_self]
  · rw [State.pass,through nothing]
    exact Function.update_apply ..

theorem othersMine (mine : ∀ iw, l.entry s = some iw → iw.1 = s) (e : SessionTcp.Event) (n : NetStack) {x : Sid} (other : x ≠ s) :
    ((l.store s e n).entry x).filter (fun iw => iw.1 = x) = (l.entry x).filter (fun iw => iw.1 = x) := by
  rw [storedEntry]
  cases number : l.fd x with
  | none => rw [entryNone number]; rfl
  | some k =>
    rw [Option.bind_some,storedTable,entryAt number]
    by_cases same : l.fd s = some k
    · rw [if_pos same,handlerMine mine]
      have gone : ∀ w : Option ReactorEvent, (w.map fun events => (s,events)).filter (fun iw => iw.1 = x) = none := by
        intro w
        cases w with
        | none => rfl
        | some events => rw [Option.map_some,Option.filter_some,if_neg (by simpa using other.symm)]
      rw [gone]
      cases found : l.ioWatchers.lookup k with
      | none => rfl
      | some iw =>
        rw [Option.filter_some,if_neg]
        rw [mine iw (by rw [entryAt same,found])]
        simpa using other.symm
    · rw [if_neg same]

namespace Storing
variable {e : SessionTcp.Event} {n : NetStack} (storing : Storing l s e n)
include storing

theorem ownTasks : part s (l.store s e n).tasks = (n.session s).tasks := by
  obtain ⟨more,queue,tasks,-,-⟩ := storeTasks storing.called storing.stepped
  rw [queue,partAppend,partAll,tasks]

theorem otherTasks {x : Sid} (other : x ≠ s) : part x (l.store s e n).tasks = part x l.tasks := by
  obtain ⟨more,queue,-,-,-⟩ := storeTasks storing.called storing.stepped
  rw [queue,partAppend,partAllOther other.symm,List.append_nil,dropOther storing.called other.symm]

theorem other {x : Sid} (other : x ≠ s) (same : ((l.store s e n).entry x).filter (fun iw => iw.1 = x) =
    (l.entry x).filter (fun iw => iw.1 = x)) : (l.store s e n).own x = l.own x := by
  rw [State.own,State.own,same,storing.otherTasks other,show (l.store s e n).stack.session x = _ from storing.frame x other]

theorem unseen (absent : l.entry s = none) (unadded : ¬ l.adds s e = true) : (n.session s).watcher = none := by
  have unseen : (l.view s).watcher = none := by rw [State.view,absent]; rfl
  refine (SessionTcp.outwardStep (fun later queued => ?_) storing.stepped).unwatched unseen
  cases e with
  | ran sends =>
    refine absurd ?_ unadded
    have queue : part s l.tasks = .add::later := queued
    rw [State.adds,queue]; rfl
  | _ => rfl

section
variable (mine : ∀ iw, l.entry s = some iw → iw.1 = s)
include mine

theorem mineWatcher : ((l.store s e n).entry s).filter (fun iw => iw.1 = s) = (n.session s).watcher.map (fun events => (s,events)) := by
  rw [storedEntry]
  cases number : l.fd s with
  | none =>
    have unadded : ¬ l.adds s e = true := by
      intro adds
      cases e with
      | ran =>
        obtain ⟨rest,queue⟩ := List.head?_eq_some_iff.1 (beq_iff_eq.1 adds)
        exact (storing.apart.undialled s storing.made number).1 (memPart.1 (by rw [queue]; exact List.mem_cons_self))
      | _ => contradiction
    rw [storing.unseen (entryNone number) unadded]; rfl
  | some k =>
    rw [Option.bind_some,storedTable,if_pos number,handlerMine mine]
    cases (n.session s).watcher with
    | none => rfl
    | some events => rw [Option.map_some,Option.filter_some,if_pos (by simp)]

theorem mineSelf : (l.store s e n).own s = n.session s := by
  rw [State.own,storing.mineWatcher mine,storing.ownTasks,Option.map_map]
  have plain : (Prod.snd ∘ fun events : ReactorEvent => (s,events)) = id := rfl
  rw [plain,Option.map_id]; rfl

theorem mineTable {k : Fd} {iw : IoWatcher} (found : (l.store s e n).ioWatchers.lookup k = some iw) :
    l.ioWatchers.lookup k = some iw ∨
      (iw.1 = s ∧ l.fd s = some k ∧ (l.adds s e = true ∨ ∃ events, l.ioWatchers.lookup k = some (s,events))) := by
  rw [storedTable] at found
  split at found
  · rename_i number
    obtain ⟨events,watcher,same⟩ := Option.map_eq_some_iff.1 found
    cases same
    rw [handlerMine mine]
    refine .inr ⟨rfl,number,?_⟩
    cases here : l.ioWatchers.lookup k with
    | some iw =>
      obtain ⟨owner,before⟩ := iw
      have same : owner = s := mine (owner,before) (by rw [entryAt number,here])
      exact .inr ⟨before,by rw [same]⟩
    | none =>
      refine .inl ?_
      by_contra unadded
      rw [storing.unseen ((entryAt number).trans here) unadded] at watcher
      cases watcher
  · exact .inl found

end

/- Under another's watcher the table stays as it is. -/
theorem stored : Stored l s e (l.store s e n) := by
  by_cases mine : ∀ iw, l.entry s = some iw → iw.1 = s
  · refine ⟨?_,fun x other => storing.other other (othersMine mine e n other),fun k iw found => storing.mineTable mine found⟩
    rw [storing.mineSelf mine,← viewOwn mine]
    exact storing.stepped
  · obtain ⟨⟨a,events⟩,shared⟩ := not_forall.1 mine
    obtain ⟨found,other⟩ := Classical.not_imp.1 shared
    obtain ⟨k,number,there⟩ := Option.bind_eq_some_iff.1 found
    obtain ⟨watcher,unadded,blind⟩ := aliasBlind storing.apart storing.made found other storing.called storing.stepped
    have same : ∀ j, (l.store s e n).ioWatchers.lookup j = l.ioWatchers.lookup j := by
      intro j
      rw [storedTable]
      split
      · rename_i here
        cases Option.some.inj (number.symm.trans here)
        rw [watcher,unadded,there,State.handler,found]; rfl
      · rfl
    have entries : ∀ x, (l.store s e n).entry x = l.entry x := fun x => by
      rw [storedEntry,State.entry,show (l.store s e n).ioWatchers.lookup = l.ioWatchers.lookup from funext same]
    refine ⟨?_,fun x apart => storing.other apart (by rw [entries]),fun j iw here => .inl (by rw [← same]; exact here)⟩
    have self : (l.store s e n).own s = {n.session s with watcher := none} := by
      rw [State.own,entries,found,Option.filter_some,if_neg (by simpa using other),storing.ownTasks]; rfl
    rw [self]
    exact blind

theorem stays {x : Sid} (opened : (n.session x).fd = true) : (l.stack.session x).fd = true := by
  by_cases same : x = s
  · subst same; exact (SessionTcp.throughStep storing.stepped).fd opened
  · rw [← storing.frame x same]; exact opened

theorem shut {x : Sid} (shut : (l.stack.session x).fd = false) : (n.session x).fd = false :=
  Bool.eq_false_iff.2 fun opened => absurd (storing.stays opened) (by rw [shut]; exact Bool.false_ne_true)

theorem socket (opened : (l.stack.session s).fd = true) : l.socket s = some s := by
  cases number : l.fd s with
  | none => rw [(storing.apart.undialled s storing.made number).2] at opened; contradiction
  | some k =>
    rw [State.socket,number,Option.bind_some]
    exact (storing.apart.opened k s).2 ⟨storing.made,number,opened⟩

theorem posted {x : Sid} {task : Task} (there : (x,task) ∈ (l.store s e n).tasks) :
    (x,task) ∈ l.tasks ∨ (x = s ∧ task ≠ .add ∧ (Registering task → (l.stack.session s).fd = true)) := by
  obtain ⟨more,queue,-,unadded,removing⟩ := storeTasks storing.called storing.stepped
  rw [queue] at there
  rcases List.mem_append.1 there with old | new
  · exact .inl (List.drop_subset _ _ old)
  · obtain ⟨_,inside,same⟩ := List.mem_map.1 new
    cases same
    refine .inr ⟨rfl,fun adds => unadded (adds ▸ inside),fun registering => ?_⟩
    rcases registering with rfl | rfl
    · exact absurd inside unadded
    · exact removing inside

theorem sockets (k : Fd) (x : Sid) : (l.store s e n).sockets.lookup k = some x ↔
    x < l.stack.made ∧ l.fd x = some k ∧ (n.session x).fd = true := by
  have table : (l.store s e n).sockets.lookup k = _ := closeAt ((l.view s).fd && !(n.session s).fd) k
  rw [table]
  split
  · rename_i closed
    obtain ⟨closes,number⟩ := closed
    obtain ⟨was,now⟩ := (Bool.and_eq_true _ _).mp closes
    refine ⟨fun wrong => (by cases wrong),fun ⟨madeX,numberX,open_⟩ => absurd open_ ?_⟩
    have here := (storing.apart.opened k s).2 ⟨storing.made,number,was⟩
    by_cases same : x = s
    · subst same
      rw [Bool.not_eq_true'] at now
      exact fun open_ => absurd (now.symm.trans open_) Bool.false_ne_true
    · intro still
      have there := (storing.apart.opened k x).2 ⟨madeX,numberX,storing.stays still⟩
      exact same (Option.some.inj (there.symm.trans here))
  · rename_i kept
    rw [storing.apart.opened k x]
    refine and_congr_right fun madeX => and_congr_right fun number => ?_
    by_cases same : x = s
    · subst same
      refine ⟨fun was => ?_,storing.stays⟩
      by_contra shut
      have shut : (n.session x).fd = false := Bool.eq_false_iff.2 shut
      exact kept ⟨by rw [show (l.view x).fd = true from was,shut]; rfl,number⟩
    · rw [storing.frame x same]

theorem dialled {x : Sid} (made : x < l.stack.made) (number : l.fd x ≠ none) :
    SessionTcp.Registered ((l.store s e n).own x) ∧ SessionTcp.Settled ((l.store s e n).own x) := by
  obtain ⟨self,others,-⟩ := storing.stored
  obtain ⟨registered,settled⟩ := storing.apart.dialled x made number
  by_cases same : x = s
  · subst same
    exact ⟨(SessionTcp.registeredStep registered self).1,SessionTcp.settledStep registered settled self⟩
  · rw [others x same]; exact ⟨registered,settled⟩

theorem ordered : (l.store s e n).tasks.Pairwise fun x y =>
    Registering x.2 → Registering y.2 → ∀ k, l.fd x.1 = some k → l.fd y.1 = some k → x.1 ≤ y.1 := by
  obtain ⟨more,queue,-,unadded,removing⟩ := storeTasks storing.called storing.stepped
  rw [queue,List.pairwise_append]
  refine ⟨storing.apart.ordered.sublist (List.drop_sublist _ _),?_,?_⟩
  · rw [List.pairwise_map]
    exact List.pairwise_of_forall_mem_list fun _ _ _ _ _ _ _ _ _ => le_refl s
  · rintro ⟨x,task⟩ old y new registering last k numberX numberY
    have before := List.drop_subset _ _ old
    obtain ⟨task,inside,same⟩ := List.mem_map.1 new
    cases same
    by_contra after
    have shut := storing.apart.earlier s x k (Nat.lt_of_not_le after) (storing.apart.posted x _ before) numberY numberX
    rcases last with rfl | rfl
    · exact unadded inside
    · rw [removing inside] at shut
      contradiction

/- The registration of the later session is the task of this step: whatever else the
earlier one wanted of the Reactor has been done. -/
theorem begunNow {a : Sid} {k : Fd} (before : a < s) (numberA : l.fd a = some k) (numberS : l.fd s = some k) {rest : List (Sid × Task)}
    (first : l.tasks = (s,.add)::rest) (takes : SessionTcp.taken e = 1) :
    (∀ task, Registering task → (a,task) ∉ (l.store s e n).tasks) ∧ ∀ events, (l.store s e n).ioWatchers.lookup k ≠ some (a,events) := by
  obtain ⟨more,queue,-,-,-⟩ := storeTasks storing.called storing.stepped
  have drops : l.tasks.drop (SessionTcp.taken e) = rest := by rw [takes,first]; rfl
  have order := storing.apart.ordered
  rw [first,List.pairwise_cons] at order
  have none_ {task} (registering : Registering task) (later : (a,task) ∈ rest) : False :=
    absurd (show s ≤ a from order.1 _ later (.inl rfl) registering k numberS numberA) (Nat.not_le_of_lt before)
  refine ⟨fun task registering there => ?_,fun events watched => ?_⟩
  · rw [queue,drops] at there
    rcases List.mem_append.1 there with old | new
    · exact none_ registering old
    · obtain ⟨_,-,same⟩ := List.mem_map.1 new
      exact absurd (congrArg Prod.fst same).symm (Nat.ne_of_lt before)
  · rcases storing.stored.watchers k _ watched with old | ⟨owner,-⟩
    · have watching := @ownMine l a k events numberA old
      have madeA := Nat.lt_trans before storing.made
      obtain ⟨-,settled⟩ := storing.apart.dialled a madeA (by rw [numberA]; exact Option.some_ne_none k)
      rcases settled (storing.apart.earlier a s k before storing.made numberA numberS) with off | removes
      · rw [off.watcher] at watching
        cases watching
      · have queued := memPart.1 removes
        rw [first] at queued
        rcases List.mem_cons.1 queued with same | later
        · cases same
        · exact none_ (.inr rfl) later
    · exact absurd owner (Nat.ne_of_lt before)

theorem begunBefore {a b : Sid} {k : Fd} (before : a < b) (made : b < l.stack.made) (numberA : l.fd a = some k)
    (numberB : l.fd b = some k) (waiting : (b,.add) ∉ l.tasks) :
    (∀ task, Registering task → (a,task) ∉ (l.store s e n).tasks) ∧ ∀ events, (l.store s e n).ioWatchers.lookup k ≠ some (a,events) := by
  obtain ⟨none_,unwatched⟩ := storing.apart.begun a b k before made numberA numberB waiting
  refine ⟨fun task registering there => ?_,fun events watched => ?_⟩
  · rcases storing.posted there with old | ⟨rfl,-,removes⟩
    · exact none_ task registering old
    · have shut := storing.apart.earlier a b k before made numberA numberB
      rw [removes registering] at shut
      contradiction
  · rcases storing.stored.watchers k _ watched with old | ⟨owner,-,added | ⟨events,old⟩⟩
    · exact unwatched events old
    · cases owner
      have first : (part a l.tasks).head? = some .add := by
        cases e with
        | ran => exact beq_iff_eq.1 added
        | _ => contradiction
      obtain ⟨rest,own⟩ := List.head?_eq_some_iff.1 first
      exact none_ .add (.inl rfl) (memPart.1 (by rw [own]; exact List.mem_cons_self))
    · cases owner
      exact unwatched events old

theorem begun {a b : Sid} {k : Fd} (before : a < b) (made : b < l.stack.made) (numberA : l.fd a = some k)
    (numberB : l.fd b = some k) (unposted : (b,.add) ∉ (l.store s e n).tasks) :
    (∀ task, Registering task → (a,task) ∉ (l.store s e n).tasks) ∧ ∀ events, (l.store s e n).ioWatchers.lookup k ≠ some (a,events) := by
  by_cases waiting : (b,.add) ∈ l.tasks
  · obtain ⟨more,queue,-,-,-⟩ := storeTasks storing.called storing.stepped
    obtain ⟨one,task,rest,first⟩ : SessionTcp.taken e = 1 ∧ ∃ task rest, l.tasks = (s,task)::rest := by
      refine storing.called.queue.resolve_left fun none_ => unposted ?_
      rw [queue,none_,List.drop_zero]
      exact List.mem_append_left _ waiting
    have head : (b,Task.add) = (s,task) := by
      rw [first] at waiting
      refine (List.mem_cons.1 waiting).resolve_right fun later => unposted ?_
      rw [queue,one,first]
      exact List.mem_append_left _ later
    cases head
    exact storing.begunNow before numberA numberB first one
  · exact storing.begunBefore before made numberA numberB waiting

theorem idle {x : Sid} (made : x < l.stack.made) (elsewhere : (l.store s e n).turn ≠ some x) : (n.session x).pc = .idle := by
  by_cases same : x = s
  · subst same
    cases reactor : e.onReactor with
    | false =>
      rw [(SessionTcp.stackAside reactor storing.stepped).1]
      refine storing.apart.idle x made fun turn => elsewhere ?_
      rw [State.store,reactor]
      exact turn
    | true =>
      by_contra busy
      refine elsewhere ?_
      simp only [State.store,reactor,if_true,if_neg busy]
  · rw [storing.frame x same]
    refine storing.apart.idle x made fun turn => ?_
    cases reactor : e.onReactor with
    | false =>
      refine elsewhere ?_
      rw [State.store,reactor]
      exact turn
    | true => exact storing.called.alone reactor same turn

theorem turning {x : Sid} (turn : (l.store s e n).turn = some x) : x < l.stack.made := by
  simp only [State.store] at turn
  split at turn
  · split at turn
    · contradiction
    · cases turn; exact storing.made
  · exact storing.apart.turning x turn

theorem histories : ∃ wrote got, (n.session s).sent = (l.stack.session s).sent ++ wrote ∧
    (n.session s).received = (l.stack.session s).received ++ got ∧
    ∀ x, (l.store s e n).written x = (if x = s then l.written s ++ wrote else l.written x) ∧
      (l.store s e n).read x = if x = s then l.read s ++ got else l.read x := by
  obtain ⟨-,⟨wrote,sent,writable⟩,got,received,readable⟩ := SessionTcp.throughStep storing.stepped
  have new : (n.session s).sent.drop (l.view s).sent.length = wrote := by rw [sent]; exact List.drop_left
  have new' : (n.session s).received.drop (l.view s).received.length = got := by rw [received]; exact List.drop_left
  refine ⟨wrote,got,sent,received,fun x => ?_⟩
  rw [State.store,new,new']
  exact ⟨passAt (fun more => storing.socket (writable more)) x,passAt (fun more => storing.socket (readable more)) x⟩

theorem passed {x : Sid} (made : x < l.stack.made) : (l.store s e n).written x = (n.session x).sent ∧
    (l.store s e n).read x = (n.session x).received := by
  obtain ⟨wrote,got,sent,received,at_⟩ := storing.histories
  obtain ⟨written,read⟩ := storing.apart.passed x made
  rw [(at_ x).1,(at_ x).2]
  by_cases same : x = s
  · subst same
    rw [if_pos rfl,if_pos rfl,written,read,sent,received]
    exact ⟨rfl,rfl⟩
  · rw [if_neg same,if_neg same,storing.frame x same]
    exact ⟨written,read⟩

theorem fresh {x : Sid} (above : l.stack.made ≤ x) : (l.store s e n).written x = [] ∧ (l.store s e n).read x = [] := by
  obtain ⟨wrote,got,-,-,at_⟩ := storing.histories
  have other : x ≠ s := (Nat.ne_of_lt (Nat.lt_of_lt_of_le storing.made above)).symm
  rw [(at_ x).1,(at_ x).2,if_neg other,if_neg other]
  exact storing.apart.fresh x above

theorem kept : Apart (l.store s e n) := by
  have lower : (l.store s e n).stack.made = l.stack.made := storing.count
  constructor
  all_goals try simp only [lower]
  case posted =>
    intro x task there
    rcases storing.posted there with old | ⟨rfl,-⟩
    · exact storing.apart.posted x task old
    · exact storing.made
  case keyed =>
    intro k iw found
    rcases storing.stored.watchers k iw found with old | ⟨owner,number,-⟩
    · exact storing.apart.keyed k iw old
    · rw [owner]; exact ⟨storing.made,number⟩
  case opened => exact storing.sockets
  case dialled => exact fun _ made number => storing.dialled made number
  case undialled =>
    intro x made number
    obtain ⟨unposted,shut⟩ := storing.apart.undialled x made number
    refine ⟨fun there => ?_,storing.shut shut⟩
    rcases storing.posted there with old | ⟨-,other,-⟩
    · exact unposted old
    · exact other rfl
  case earlier => exact fun a b k before made numberA numberB => storing.shut (storing.apart.earlier a b k before made numberA numberB)
  case ordered => exact storing.ordered
  case begun => exact fun _ _ _ before made numberA numberB unposted => storing.begun before made numberA numberB unposted
  case idle => exact fun _ made elsewhere => storing.idle made elsewhere
  case turning => exact fun _ turn => storing.turning turn
  case passed => exact fun _ made => storing.passed made
  case fresh => exact fun _ above => storing.fresh above

end Storing

end

end Candy.TcpLandings
