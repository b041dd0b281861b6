import Candy.Runs
import Candy.SessionTcp

/-! The landing fd in the poll set. Whoever sets closing first closes the fd, so it
is closed once; on the reactor thread it is taken out of the poll set before. The
error callback of lwIP closes it on the NetStack thread, where the removal is only
posted. The close then comes first unless the fd was at its end already. -/
namespace Candy.SessionTcp
open Runs

structure Off (s : State) : Prop where
  watcher : s.watcher = none
  added : Task.add ∉ s.tasks
  unread : ∀ writable, s.pc ≠ .reading writable

/- Closed at most once, and only when it is out of the poll set. The destructor has nothing to close. -/
structure Deregistered (s : State) : Prop where
  once : s.netCloses ≤ 1
  before : 0 < s.netCloses → s.watcher = none ∧ Task.add ∉ s.tasks
  destroyed : s.self = false → s.fd = false

/- The error callback finds the close begun, or the end of the stream read. -/
def Departed (s : State) : Event → Prop
  | .err => s.closing = true ∨ s.ended = true
  | _ => True

structure Registered (s : State) : Prop where
  count : s.netCloses = if s.fd then 0 else 1
  opened : s.closing = false → s.fd = true
  destroyed : s.self = false → s.fd = false
  adding : Task.add ∈ s.tasks → s.watcher = none ∧ s.pc = .idle ∧ ∃ rest, s.tasks = .add::rest ∧ Task.add ∉ rest
  leaving : Task.del ∈ s.tasks ∨ Task.drop ∈ s.tasks → s.closing = true
  ended : s.ended = true → Off s
  present : s.closing = false → s.ended = false → s.watcher.isSome = true ∨ Task.add ∈ s.tasks

def Outcome (s t : State) : Prop := Registered t ∧ ((t.fd = s.fd ∧ (Off s → Off t)) ∨ Off t)

structure Unclosed (s t : State) : Prop where
  fd : t.fd = s.fd
  self : t.self = s.self
  closing : t.closing = s.closing
  netCloses : t.netCloses = s.netCloses

theorem Off.posted {s t : State} {more : List Task} (off : Off s) (watcher : t.watcher = s.watcher) (pc : t.pc = s.pc)
    (tasks : t.tasks = s.tasks ++ more) (plain : Task.add ∉ more) : Off t where
  watcher := watcher.trans off.watcher
  added := by rw [tasks,List.mem_append,not_or]; exact ⟨off.added,plain⟩
  unread writable := by rw [pc]; exact off.unread writable

theorem Registered.addingPosted {s t : State} {more : List Task} (registered : Registered s) (watcher : t.watcher = s.watcher)
    (pc : t.pc = s.pc) (tasks : t.tasks = s.tasks ++ more) (plain : Task.add ∉ more) (adds : Task.add ∈ t.tasks) :
    t.watcher = none ∧ t.pc = .idle ∧ ∃ rest, t.tasks = .add::rest ∧ Task.add ∉ rest := by
  rw [tasks,List.mem_append] at adds
  obtain ⟨unwatched,idle,rest,queue,last⟩ := registered.adding (adds.resolve_right plain)
  refine ⟨watcher.trans unwatched,pc.trans idle,rest ++ more,by rw [tasks,queue]; rfl,?_⟩
  rw [List.mem_append,not_or]
  exact ⟨last,plain⟩

theorem postedRegistered {s t : State} {more : List Task} (registered : Registered s) (unclosed : Unclosed s t)
    (ended : t.ended = s.ended) (watcher : t.watcher = s.watcher) (pc : t.pc = s.pc) (tasks : t.tasks = s.tasks ++ more)
    (plain : ∀ task ∈ more, task ≠ .add ∧ task ≠ .del ∧ task ≠ .drop) : Outcome s t := by
  have noAdd : Task.add ∉ more := fun member => (plain _ member).1 rfl
  have still (off : Off s) : Off t := off.posted watcher pc tasks noAdd
  refine ⟨⟨?_,?_,?_,registered.addingPosted watcher pc tasks noAdd,fun leaves => ?_,
    fun past => still (registered.ended (ended ▸ past)),?_⟩,.inl ⟨unclosed.fd,still⟩⟩
  · rw [unclosed.netCloses,unclosed.fd]; exact registered.count
  · rw [unclosed.closing,unclosed.fd]; exact registered.opened
  · rw [unclosed.self,unclosed.fd]; exact registered.destroyed
  · rw [unclosed.closing]
    rw [tasks,List.mem_append,List.mem_append] at leaves
    exact registered.leaving (leaves.imp (Or.resolve_right · fun member => (plain _ member).2.1 rfl)
      (Or.resolve_right · fun member => (plain _ member).2.2 rfl))
  · rw [unclosed.closing,ended,watcher,tasks]
    exact fun opened still => (registered.present opened still).imp_right (List.mem_append_left _)

theorem besideRegistered {s t : State} (registered : Registered s) (beside : Beside s t) (self : t.self = s.self)
    (netCloses : t.netCloses = s.netCloses) : Outcome s t := by
  obtain ⟨more,tasks,posted⟩ := beside.tasks
  refine postedRegistered registered ⟨beside.fd,self,beside.closing,netCloses⟩ beside.ended beside.watcher
    beside.pc tasks fun task member => ?_
  rcases posted task member with ⟨same,_⟩ | ⟨_,same⟩ <;> simp [same]

theorem turnedRegistered {s t : State} (registered : Registered s) (unclosed : Unclosed s t) (added : Task.add ∉ s.tasks)
    (fewer : t.tasks.Sublist s.tasks) (ended : t.ended = true → t.watcher = none ∧ ∀ writable, t.pc ≠ .reading writable)
    (present : t.closing = false → t.ended = false → t.watcher.isSome = true) : Registered t := by
  have noAdd : Task.add ∉ t.tasks := fun member => added (fewer.subset member)
  refine ⟨?_,?_,?_,fun adds => absurd adds noAdd,fun leaves => ?_,fun past => ?_,fun opened still => ?_⟩
  · rw [unclosed.netCloses,unclosed.fd]; exact registered.count
  · rw [unclosed.closing,unclosed.fd]; exact registered.opened
  · rw [unclosed.self,unclosed.fd]; exact registered.destroyed
  · rw [unclosed.closing]
    exact registered.leaving (leaves.imp (fewer.subset ·) (fewer.subset ·))
  · exact ⟨(ended past).1,noAdd,(ended past).2⟩
  · exact .inl (present opened still)

theorem keptRegistered {s t : State} (registered : Registered s) (unclosed : Unclosed s t) (added : Task.add ∉ s.tasks)
    (fewer : t.tasks.Sublist s.tasks) (ended : t.ended = s.ended) (watcher : t.watcher.isSome = s.watcher.isSome)
    (reading : ∀ writable, t.pc = .reading writable → ¬ Off s) : Outcome s t := by
  have still (off : Off s) : Off t := by
    rw [off.watcher,Option.isSome_none,Option.isSome_eq_false_iff,Option.isNone_iff_eq_none] at watcher
    exact ⟨watcher,fun member => added (fewer.subset member),fun writable here => reading writable here off⟩
  refine ⟨turnedRegistered registered unclosed added fewer (fun past => ?_) fun opened open_ => ?_,
    .inl ⟨unclosed.fd,still⟩⟩
  · have off := still (registered.ended (ended ▸ past))
    exact ⟨off.watcher,off.unread⟩
  · rw [watcher]
    rw [unclosed.closing] at opened
    rw [ended] at open_
    exact (registered.present opened open_).resolve_right added

theorem addRegistered {s : State} {rest : List Task} (registered : Registered s) (queue : s.tasks = .add::rest) :
    Outcome s {s with tasks := rest, watcher := some .WRITE} := by
  have adds : Task.add ∈ s.tasks := by rw [queue]; exact List.mem_cons_self ..
  obtain ⟨_,_,rest',same,last⟩ := registered.adding adds
  rw [queue] at same
  cases same
  refine ⟨⟨registered.count,registered.opened,registered.destroyed,fun member => absurd member last,fun leaves => ?_,
    fun past => absurd adds (registered.ended past).added,fun _ _ => .inl rfl⟩,
    .inl ⟨rfl,fun off => absurd adds off.added⟩⟩
  refine registered.leaving (leaves.imp (fun member => ?_) fun member => ?_)
  all_goals rw [queue]; exact List.mem_cons_of_mem _ member

theorem Registered.unadded {s t : State} {e : Event} (registered : Registered s) (reactor : e.onReactor = true) (stepped : step s e t) :
    Task.add ∉ s.tasks ∨ ∃ rest, s.tasks = .add::rest ∧ t = {s with tasks := rest, watcher := some .WRITE} := by
  by_cases adds : Task.add ∈ s.tasks
  · obtain ⟨unwatched,idle,rest,queue,-⟩ := registered.adding adds
    cases stepCases stepped with
    | recv | fin | sent | err | teardown | stackRan => contradiction
    | fdEvent _ watched => rw [unwatched] at watched; contradiction
    | connected here | read here | paused here | flushed here => rw [here] at idle; cases idle
    | ran _ first taken =>
      rw [queue] at first
      cases first
      cases Option.some.inj taken
      exact .inr ⟨rest,queue,rfl⟩
  · exact .inl adds

theorem Registered.unclosed {s : State} (registered : Registered s) (fd : s.fd = true) : s.netCloses = 0 := by
  have count := registered.count
  rwa [if_pos fd] at count

theorem reactorRegistered {s t : State} {e : Event} (registered : Registered s) (reactor : e.onReactor = true)
    (stepped : step s e t) : Outcome s t := by
  obtain added | ⟨rest,queue,same⟩ := registered.unadded reactor stepped
  case inr => subst same; exact addRegistered registered queue
  have fewer : t.tasks.Sublist s.tasks := by rw [reactorTasks reactor stepped]; exact List.drop_sublist ..
  have noAdd : Task.add ∉ t.tasks := fun member => added (fewer.subset member)
  have unread (idle : s.pc = .idle) (writable : Bool) : s.pc ≠ .reading writable := by rw [idle]; nofun
  cases reactedOf reactor stepped with
  | turned turns =>
    refine keptRegistered registered ⟨rfl,rfl,rfl,rfl⟩ added fewer rfl rfl fun writable at_ off => ?_
    cases turns with
    | reported _ watched => rw [off.watcher] at watched; contradiction
    | full => cases at_
    | wouldBlock => exact (afterReadingRests _).2 writable at_
  | connected => exact keptRegistered registered ⟨rfl,rfl,rfl,rfl⟩ added fewer rfl Option.isSome_map nofun
  | data here => exact keptRegistered registered ⟨rfl,rfl,rfl,rfl⟩ added fewer rfl rfl fun _ _ off => off.unread _ here
  | @eof writable =>
    have unread := (afterReadingRests writable).2
    exact ⟨turnedRegistered registered ⟨rfl,rfl,rfl,rfl⟩ added fewer (fun _ => ⟨rfl,unread⟩)
      fun _ wrong => by contradiction,.inr ⟨rfl,noAdd,unread⟩⟩
  | paused =>
    exact keptRegistered registered ⟨rfl,rfl,rfl,rfl⟩ added fewer rfl (keptPresent s .NONE) fun writable at_ =>
      absurd at_ ((afterReadingRests _).2 writable)
  | void => exact keptRegistered registered ⟨rfl,rfl,rfl,rfl⟩ added fewer rfl rfl nofun
  | blocked => exact keptRegistered registered ⟨rfl,rfl,rfl,rfl⟩ added fewer rfl Option.isSome_map nofun
  | drained =>
    refine keptRegistered registered ⟨rfl,rfl,rfl,rfl⟩ added fewer rfl ?_ nofun
    simp only
    split
    · exact Option.isSome_map
    · rfl
  | add _ queue => exact absurd (by rw [queue]; exact List.mem_cons_self) added
  | resumed idle =>
    exact keptRegistered registered ⟨rfl,rfl,rfl,rfl⟩ added fewer rfl Option.isSome_map fun writable at_ => absurd at_ (unread idle writable)
  | kept idle =>
    exact keptRegistered registered ⟨rfl,rfl,rfl,rfl⟩ added fewer rfl rfl fun writable at_ => absurd at_ (unread idle writable)
  | del idle queue =>
    have closing : s.closing = true := registered.leaving (.inl (by rw [queue]; exact List.mem_cons_self))
    exact ⟨turnedRegistered registered ⟨rfl,rfl,rfl,rfl⟩ added fewer (fun _ => ⟨rfl,unread idle⟩) fun opened =>
      absurd (closing.symm.trans opened) Bool.noConfusion,.inr ⟨rfl,noAdd,unread idle⟩⟩
  | drop idle queue =>
    have closing : s.closing = true := registered.leaving (.inr (by rw [queue]; exact List.mem_cons_self))
    have opened {P : Prop} (wrong : s.closing = false) : P := by rw [wrong] at closing; contradiction
    rcases Bool.eq_false_or_eq_true s.fd with fd | fd
    · rw [fd,registered.unclosed fd]
      exact ⟨⟨rfl,opened,fun _ => rfl,fun adds => absurd adds noAdd,fun _ => closing,fun _ => ⟨rfl,noAdd,unread idle⟩,opened⟩,
        .inr ⟨rfl,noAdd,unread idle⟩⟩
    · have count := registered.count
      rw [fd] at count ⊢
      exact ⟨⟨count,opened,fun _ => rfl,fun adds => absurd adds noAdd,fun _ => closing,
        fun past => ⟨(registered.ended past).watcher,noAdd,unread idle⟩,opened⟩,
        .inl ⟨fd.symm,fun off => ⟨off.watcher,noAdd,unread idle⟩⟩⟩
  | late closes =>
    exact keptRegistered registered ⟨rfl,rfl,rfl,rfl⟩ added fewer rfl rfl fun writable at_ => absurd at_ (closes.rests.2 writable)
  | closed closes opened =>
    have fd := registered.opened opened
    have unread := closes.rests.2
    rw [fd,registered.unclosed fd]
    exact ⟨⟨rfl,fun wrong => by contradiction,fun _ => rfl,fun adds => absurd adds noAdd,fun _ => rfl,
      fun _ => ⟨rfl,noAdd,unread⟩,fun wrong => by contradiction⟩,.inr ⟨rfl,noAdd,unread⟩⟩

theorem errClosed {s : State} (closing : s.closing = true) :
    onErr s = {s with pcb := false, listed := s.listed && !s.pcb} := if_pos closing

theorem errOpened {s : State} (opened : s.closing = false) (fd : s.fd = true) : onErr s = {s with
    pcb := false, listed := s.listed && !s.pcb, closing := true, fd := false, self := false,
    tasks := s.tasks ++ [.del], netCloses := s.netCloses + 1} := by
  rw [onErr,closeEq false (by exact opened)]
  simp [fd]

theorem errRegistered {s : State} (registered : Registered s) : Registered (onErr s) ∧ (Off s → Off (onErr s)) := by
  rcases Bool.eq_false_or_eq_true s.closing with closing | opened
  · rw [errClosed closing]
    have still (off : Off s) : Off {s with pcb := false, listed := s.listed && !s.pcb} :=
      ⟨off.watcher,off.added,off.unread⟩
    exact ⟨⟨registered.count,registered.opened,registered.destroyed,registered.adding,registered.leaving,
      fun past => still (registered.ended past),registered.present⟩,still⟩
  · have fd := registered.opened opened
    rw [errOpened opened fd,registered.unclosed fd]
    have still (off : Off s) : Off {s with
        pcb := false, listed := s.listed && !s.pcb, closing := true, fd := false, self := false,
        tasks := s.tasks ++ [.del], netCloses := 0 + 1} := off.posted rfl rfl rfl (by simp)
    exact ⟨⟨rfl,fun wrong => by contradiction,fun _ => rfl,registered.addingPosted rfl rfl rfl (by simp),fun _ => rfl,
      fun past => still (registered.ended past),fun wrong => by contradiction⟩,still⟩

theorem registeredStep {s t : State} {e : Event} (registered : Registered s) (stepped : step s e t) :
    Registered t ∧ (e = .err ∧ t = onErr s ∨ (t.fd = s.fd ∧ (Off s → Off t)) ∨ Off t) := by
  suffices outcome : e ≠ .err → Outcome s t by
    by_cases err : e = .err
    · subst err
      cases stepCases stepped
      exact ⟨(errRegistered registered).1,.inl ⟨rfl,rfl⟩⟩
    · exact ⟨(outcome err).1,.inr (outcome err).2⟩
  intro other
  cases reactor : e.onReactor with
  | true => exact reactorRegistered registered reactor stepped
  | false =>
    cases answeredOf reactor stepped with
    | recv | fin => exact postedRegistered registered ⟨rfl,rfl,rfl,rfl⟩ rfl rfl rfl rfl (by simp)
    | sent _ pumped =>
      have side := pumpSide pumped
      exact besideRegistered registered (pumpBeside pumped) side.self side.netCloses
    | errLate | err => exact absurd rfl other
    | teardownLate =>
      exact postedRegistered registered ⟨rfl,rfl,rfl,rfl⟩ rfl rfl rfl (List.append_nil _).symm (by simp)
    | teardown =>
      have still (off : Off s) : Off {s with pcb := false, listed := false, closing := true, tasks := s.tasks ++ [.drop]} :=
        off.posted rfl rfl rfl (by simp)
      exact ⟨⟨registered.count,fun wrong => by contradiction,registered.destroyed,
        registered.addingPosted rfl rfl rfl (by simp),fun _ => rfl,fun past => still (registered.ended past),
        fun wrong => by contradiction⟩,.inl ⟨rfl,still⟩⟩
    | stackRan _ taken =>
      have side := stackTaskSide taken
      exact besideRegistered registered ((Beside.quiet (s := s) rfl).trans (stackTaskBeside taken)) side.self side.netCloses

theorem startRegistered : Registered State.start :=
  ⟨rfl,fun _ => rfl,fun wrong => by contradiction,fun _ => ⟨rfl,rfl,[],rfl,by simp⟩,by decide,
    fun wrong => by contradiction,fun _ _ => .inr (by decide)⟩

def Cleared (s : State) : Prop := Registered s ∧ (s.fd = false → Off s)

theorem deregisteredExact (events : List Event) (s : State) :
    Run (Guarded step Departed) State.start events s ↔ Run (Keeping step Deregistered) State.start events s := by
  have start : Cleared State.start := ⟨startRegistered,fun wrong => by contradiction⟩
  refine guardExact start ?_ ?_ ?_
  · intro s ⟨registered,shut⟩
    have count := registered.count
    cases fd : s.fd with
    | true =>
      rw [fd,if_pos rfl] at count
      exact ⟨by omega,fun closed => by omega,registered.destroyed⟩
    | false =>
      rw [fd,if_neg (by simp)] at count
      exact ⟨by omega,fun _ => ⟨(shut fd).watcher,(shut fd).added⟩,registered.destroyed⟩
  · intro s e t ⟨registered,shut⟩ departed stepped
    obtain ⟨kept,⟨err,same⟩ | ⟨fd,still⟩ | off⟩ := registeredStep registered stepped
    · refine ⟨kept,fun closed => ?_⟩
      subst err
      have still := (errRegistered registered).2
      rw [same]
      rcases departed with closing | ended
      · rw [same,errClosed closing] at closed
        exact still (shut closed)
      · exact still (registered.ended ended)
    · exact ⟨kept,fun closed => still (shut (fd ▸ closed))⟩
    · exact ⟨kept,fun _ => off⟩
  · intro s e t ⟨registered,_⟩ undeparted stepped good
    cases e with
    | err =>
      simp only [Departed,not_or,Bool.not_eq_true] at undeparted
      obtain ⟨opened,open_⟩ := undeparted
      cases stepCases stepped
      rw [errOpened opened (registered.opened opened)] at good
      obtain ⟨unwatched,added⟩ := good.before (Nat.succ_pos _)
      rcases registered.present opened open_ with watched | adds
      · rw [show s.watcher = none from unwatched] at watched
        contradiction
      · exact added (List.mem_append_left _ adds)
    | _ => exact undeparted trivial

theorem resetRegistered : ∃ s, Run step State.start [.ran [],.err] s ∧ ¬ Deregistered s := by
  have outcome : (execute handle State.start [.ran [],.err]).map (fun s => (s.netCloses,s.watcher)) =
      some (1,some .WRITE) := by decide
  obtain ⟨s,ok,same⟩ := Option.map_eq_some_iff.mp outcome
  obtain ⟨closed,watched⟩ := Prod.mk.inj same
  refine ⟨s,executeRun (fun _ _ _ h => h) ok,fun good => ?_⟩
  have unwatched := (good.before (by rw [closed]; exact Nat.one_pos)).1
  rw [watched] at unwatched
  contradiction

end Candy.SessionTcp
