import Candy.Runs
import Candy.SessionTcp

/-! Data on its way to the landing socket, when nothing fails. It waits in forwardBuf
for the connect and for room in the socket, but the close that follows the client's
FIN does not wait for it: the tail is written first exactly if the connect is done
and no write is blocked when that close comes. -/
namespace Candy.SessionTcp
open Runs

/- The landing connection does not fail, and neither lwIP nor the stack drops the session. -/
def Healthy (s : State) : Event → Prop
  | .err | .teardown => False
  | .fdEvent events => s.connected = false → events.failure = false
  | .connected ok => ok = true
  | .read answer => answer ≠ .failed
  | .flushed sends | .ran sends => ∀ send ∈ sends, send ≠ .failed ∧ send ≠ .wrote 0
  | _ => True

/- Everything delivered before the FIN is written before the fd is closed. -/
def TailKept (s : State) : Prop := s.fd = false → s.finned = true → s.sent = s.delivered

/- When the close behind the FIN is made, nothing is held back. -/
def Drained (s : State) : Event → Prop
  | .ran _ => s.tasks.head? = some .closeFromReactor → s.closing = false → s.finned = true →
    s.delivered = [] ∨ (s.connected = true ∧ s.wantWrite = false)
  | _ => True

structure Flowing (s : State) : Prop where
  whole : s.sent ++ s.forwardBuf = s.delivered
  blocked : s.wantWrite = true → s.connected = true ∧ s.forwardBuf ≠ []
  unsent : s.connected = false → s.sent = []
  pending : s.fd = true → s.connected = true → s.wantWrite = false → s.forwardBuf ≠ [] →
    Task.flushForward ∈ s.tasks ∨ s.pc = .writing
  last : s.pcb = true → Task.closeFromReactor ∉ s.tasks
  ordered : s.tasks.Pairwise fun a b => a = .closeFromReactor → b ≠ .flushForward
  calm : Task.drop ∉ s.tasks
  opened : s.closing = false → s.fd = true
  gone : s.fd = false → s.pcb = false
  kept : TailKept s

theorem besideFlowing {s t : State} (flowing : Flowing s) (beside : Beside s t) : Flowing t := by
  obtain ⟨more,tasks,posted⟩ := beside.tasks
  refine ⟨?_,?_,?_,?_,fun opened member => ?_,?_,fun member => ?_,?_,fun shut => ?_,?_⟩
  · rw [beside.sent,beside.forwardBuf,beside.delivered]; exact flowing.whole
  · rw [beside.wantWrite,beside.connected,beside.forwardBuf]; exact flowing.blocked
  · rw [beside.connected,beside.sent]; exact flowing.unsent
  · rw [beside.fd,beside.connected,beside.wantWrite,beside.forwardBuf,beside.pc,tasks]
    exact fun fd connected want left => (flowing.pending fd connected want left).imp_left (List.mem_append_left _)
  · rw [tasks] at member
    rcases List.mem_append.mp member with early | late
    · exact flowing.last (beside.pcb opened) early
    · rcases posted _ late with ⟨_,shut⟩ | ⟨_,wrong⟩
      · rw [shut] at opened; contradiction
      · contradiction
  · have noFlush (task : Task) (late : task ∈ more) : task ≠ .flushForward := by
      rcases posted task late with ⟨same,_⟩ | ⟨_,same⟩ <;> simp [same]
    rw [tasks]
    exact List.pairwise_append.mpr ⟨flowing.ordered,
      List.pairwise_of_forall_mem_list fun _ _ b late _ => noFlush b late,fun _ _ b late _ => noFlush b late⟩
  · exact flowing.calm (beside.old member (by simp) (by simp))
  · rw [beside.closing,beside.fd]; exact flowing.opened
  · rw [beside.fd] at shut
    cases opened : t.pcb with
    | false => rfl
    | true => rw [← flowing.gone shut,beside.pcb opened]
  · unfold TailKept
    rw [beside.fd,beside.finned,beside.sent,beside.delivered]
    exact flowing.kept

theorem flushHealthy {buf written left : Bytes} {sends : List Send} {how : FlushEnd}
    (ok : flushLoop buf sends = some (written,left,how))
    (healthy : ∀ send ∈ sends, send ≠ .failed ∧ send ≠ .wrote 0) : how ≠ .failed := by
  induction sends generalizing buf written left with
  | nil =>
    cases buf with
    | nil => cases Option.some.inj ok; simp
    | cons _ _ => contradiction
  | cons send rest ih =>
    cases buf with
    | nil => cases Option.some.inj ok; simp
    | cons b bs =>
      have here := healthy send (List.mem_cons_self ..)
      cases send with
      | wrote n =>
        have positive : n ≠ 0 := fun zero => here.2 (by rw [zero])
        simp only [flushLoop,if_neg positive] at ok
        split at ok <;> try contradiction
        obtain ⟨⟨w,l,h⟩,tail,same⟩ := Option.map_eq_some_iff.mp ok
        cases same
        exact ih tail fun send member => healthy send (List.mem_cons_of_mem _ member)
      | wouldBlock => cases Option.some.inj ok; simp
      | failed => exact absurd rfl here.1

theorem movedFlowing {s t : State} (flowing : Flowing s) (same : t = {s with
    pc := t.pc, tasks := t.tasks, watcher := t.watcher, stackTasks := t.stackTasks, backwardBytes := t.backwardBytes,
    received := t.received, ended := t.ended, readPaused := t.readPaused}) (fewer : t.tasks.Sublist s.tasks)
    (pending : s.fd = true → s.connected = true → Task.flushForward ∈ s.tasks ∨ s.pc = .writing →
      Task.flushForward ∈ t.tasks ∨ t.pc = .writing) : Flowing t := by
  rw [same]
  exact ⟨flowing.whole,flowing.blocked,flowing.unsent,
    fun fd connected want left => pending fd connected (flowing.pending fd connected want left),
    fun opened member => flowing.last opened (fewer.subset member),flowing.ordered.sublist fewer,
    fun member => flowing.calm (fewer.subset member),flowing.opened,flowing.gone,flowing.kept⟩

theorem recvFlowing {s : State} {data : Bytes} (flowing : Flowing s) (opened : s.pcb = true) :
    Flowing (onRecv s data) := by
  have behind (task : Task) (member : task ∈ s.tasks ++ [.flushForward]) (other : task ≠ .flushForward) :
      task ∈ s.tasks := (List.mem_append.mp member).resolve_right fun late => other (List.mem_singleton.mp late)
  have fd : s.fd = true := by
    cases fd : s.fd with
    | true => rfl
    | false => rw [flowing.gone fd] at opened; contradiction
  have noClose := flowing.last opened
  refine ⟨?_,fun want => ?_,flowing.unsent,fun _ _ _ _ => .inl (by simp [onRecv]),
    fun _ member => noClose (behind _ member (by simp)),?_,fun member => flowing.calm (behind _ member (by simp)),
    flowing.opened,flowing.gone,fun shut => by rw [show s.fd = false from shut] at fd; contradiction⟩
  · change s.sent ++ (s.forwardBuf ++ data) = s.delivered ++ data
    rw [← List.append_assoc,flowing.whole]
  · obtain ⟨connected,left⟩ := flowing.blocked want
    exact ⟨connected,List.append_ne_nil_of_left_ne_nil left data⟩
  · refine List.pairwise_append.mpr ⟨flowing.ordered,List.pairwise_singleton _ _,fun a early _ _ close => ?_⟩
    exact absurd (close ▸ early) noClose

theorem healthyCloses {s : State} {e : Event} {pc : ReactorPc} {tasks : List Task} {written left : Bytes} (healthy : Healthy s e)
    (closes : Closes s e pc tasks written left) : s.pc = .idle ∧ s.tasks = .closeFromReactor::tasks ∧ written = [] ∧ left = s.forwardBuf ∧
    ∃ sends, e = .ran sends := by
  cases closes with
  | failure _ _ fresh failed => rw [healthy fresh] at failed; contradiction
  | refused => contradiction
  | unread => exact absurd rfl healthy
  | unwritten flushing _ loop =>
    refine absurd rfl (flushHealthy loop ?_)
    cases flushing
    all_goals exact healthy
  | task idle queue => exact ⟨idle,queue,rfl,rfl,_,rfl⟩

theorem Flowing.unflushed {s : State} {rest : List Task} (flowing : Flowing s) (queue : s.tasks = .closeFromReactor::rest) :
    Task.flushForward ∉ s.tasks := by
  have ordered := flowing.ordered
  rw [queue,List.pairwise_cons] at ordered
  rw [queue,List.mem_cons,not_or]
  exact ⟨nofun,fun member => ordered.1 _ member rfl rfl⟩

/- The close task comes when every flush posted before it has run. -/
theorem Flowing.closed {s : State} {rest : List Task} (flowing : Flowing s) (queue : s.tasks = .closeFromReactor::rest) (idle : s.pc = .idle)
    (opened : s.closing = false) (drained : s.finned = true → s.delivered = [] ∨ (s.connected = true ∧ s.wantWrite = false))
    (finned : s.finned = true) : s.sent = s.delivered := by
  rcases drained finned with nothing | ⟨connected,want⟩
  · have parts := flowing.whole
    rw [nothing,List.append_eq_nil_iff] at parts
    exact parts.1.trans nothing.symm
  · have empty : s.forwardBuf = [] := by
      by_contra left
      rcases flowing.pending (flowing.opened opened) connected want left with flush | writing
      · exact flowing.unflushed queue flush
      · rw [idle] at writing; cases writing
    have parts := flowing.whole
    rw [empty,List.append_nil] at parts
    exact parts

/- After a flush the tail is written or a write is blocked; none need be pending before it. -/
theorem reactorFlowing {s t : State} {e : Event} (flowing : Flowing s) (healthy : Healthy s e) (drained : Drained s e)
    (reactor : e.onReactor = true) (stepped : step s e t) : Flowing t := by
  have fewer : t.tasks.Sublist s.tasks := by rw [reactorTasks reactor stepped]; exact List.drop_sublist ..
  have last (opened : s.pcb = true) : Task.closeFromReactor ∉ t.tasks := fun member => flowing.last opened (fewer.subset member)
  have ordered := flowing.ordered.sublist fewer
  have calm : Task.drop ∉ t.tasks := fun member => flowing.calm (fewer.subset member)
  have turned {pc : ReactorPc} (elsewhere : s.pc ≠ .writing) (due : Task.flushForward ∈ s.tasks ∨ s.pc = .writing) :
      Task.flushForward ∈ s.tasks ∨ pc = .writing := .inl (due.resolve_right elsewhere)
  cases reactedOf reactor stepped with
  | turned turns =>
    refine movedFlowing flowing rfl fewer fun _ _ => turned ?_
    cases turns with
    | reported here | full here | wouldBlock here => rw [here]; nofun
  | connected =>
    exact ⟨flowing.whole,fun want => ⟨rfl,(flowing.blocked want).2⟩,fun wrong => by contradiction,fun _ _ _ _ => .inr rfl,
      last,ordered,calm,flowing.opened,flowing.gone,flowing.kept⟩
  | data here | eof here | paused here =>
    exact movedFlowing flowing rfl fewer fun _ _ => turned (by rw [here]; nofun)
  | void _ unable =>
    refine movedFlowing flowing rfl fewer fun fd connected => ?_
    rcases unable with unable | unable
    · exact absurd (fd.symm.trans unable) Bool.noConfusion
    · exact absurd (connected.symm.trans unable) Bool.noConfusion
  | blocked _ opened ready loop =>
    have parts := flushLoopSpec loop
    refine ⟨?_,fun _ => ⟨ready,parts.2.2 rfl⟩,fun un => absurd (ready.symm.trans un) Bool.noConfusion,
      fun _ _ want => by contradiction,last,ordered,calm,flowing.opened,flowing.gone,
      fun shut => absurd (opened.symm.trans shut) Bool.noConfusion⟩
    rw [List.append_assoc,parts.1]
    exact flowing.whole
  | drained _ opened ready loop =>
    have parts := flushLoopSpec loop
    refine ⟨?_,fun want => by contradiction,fun un => absurd (ready.symm.trans un) Bool.noConfusion,
      fun _ _ _ more => absurd (parts.2.1 rfl) more,last,ordered,calm,flowing.opened,flowing.gone,
      fun shut => absurd (opened.symm.trans shut) Bool.noConfusion⟩
    rw [List.append_assoc,parts.1]
    exact flowing.whole
  | add _ queue | resumed _ queue | kept _ queue | del _ queue =>
    exact movedFlowing flowing rfl fewer fun _ _ due => due.imp_left (memBehind queue nofun)
  | drop _ queue => exact absurd (by rw [queue]; exact List.mem_cons_self) flowing.calm
  | late closes =>
    obtain ⟨idle,queue,rfl,rfl,-⟩ := healthyCloses healthy closes
    rw [List.append_nil]
    refine movedFlowing flowing rfl fewer fun _ _ due => ?_
    rcases due with flush | writing
    · exact absurd flush (flowing.unflushed queue)
    · rw [idle] at writing; cases writing
  | closed closes opened =>
    obtain ⟨idle,queue,rfl,rfl,sends,rfl⟩ := healthyCloses healthy closes
    rw [List.append_nil]
    have shut : s.pcb = false := Bool.eq_false_iff.2 fun opened =>
      flowing.last opened (by rw [queue]; exact List.mem_cons_self)
    exact ⟨flowing.whole,flowing.blocked,flowing.unsent,fun wrong => by contradiction,last,ordered,calm,
      fun wrong => by contradiction,fun _ => shut,fun _ => flowing.closed queue idle opened (drained (by rw [queue]; rfl) opened)⟩

theorem flowingStep {s t : State} {e : Event} (flowing : Flowing s) (healthy : Healthy s e) (drained : Drained s e)
    (stepped : step s e t) : Flowing t := by
  cases reactor : e.onReactor with
  | true => exact reactorFlowing flowing healthy drained reactor stepped
  | false =>
    cases answeredOf reactor stepped with
    | recv opened => exact recvFlowing flowing opened
    | fin opened =>
      have told : Flowing {s with finned := true} := ⟨flowing.whole,flowing.blocked,flowing.unsent,flowing.pending,
        flowing.last,flowing.ordered,flowing.calm,flowing.opened,flowing.gone,fun shut => by
          rw [flowing.gone shut] at opened; contradiction⟩
      exact besideFlowing told (closeFromStackBeside _)
    | sent _ pumped => exact besideFlowing flowing (pumpBeside pumped)
    | errLate | err | teardownLate | teardown => exact absurd healthy id
    | stackRan _ taken => exact besideFlowing flowing ((Beside.quiet (s := s) rfl).trans (stackTaskBeside taken))

theorem startFlowing : Flowing State.start :=
  ⟨rfl,fun want => by contradiction,fun _ => rfl,fun _ connected => by contradiction,fun _ => by decide,
    by decide,by decide,fun _ => rfl,fun shut => by contradiction,fun shut => by contradiction⟩

theorem undrainedStep {s t : State} {e : Event} (flowing : Flowing s) (undrained : ¬ Drained s e)
    (stepped : step s e t) : ¬ TailKept t := by
  cases stepCases stepped with
  | @ran _ _ rest _ _ queue taken =>
    simp only [Drained,Classical.not_imp,not_or,not_and,Bool.not_eq_false] at undrained
    obtain ⟨first,closing,finned,nonempty,unready⟩ := undrained
    rw [queue] at first
    cases Option.some.inj first
    cases Option.some.inj taken
    rw [closeEq true (s := {s with tasks := rest}) closing]
    intro kept
    have sent : s.sent = s.delivered := kept rfl finned
    have parts := flowing.whole
    rcases Bool.eq_false_or_eq_true s.connected with connected | connected
    · have left := (flowing.blocked (unready connected)).2
      rw [sent] at parts
      exact left (List.append_right_eq_self.mp parts)
    · rw [flowing.unsent connected] at sent
      exact nonempty sent.symm
  | _ => exact absurd trivial undrained

theorem tailExact (events : List Event) (s : State) :
    Run (Guarded (Guarded step Healthy) Drained) State.start events s ↔
      Run (Keeping (Guarded step Healthy) TailKept) State.start events s :=
  guardExact startFlowing (fun _ flowing => flowing.kept)
    (fun _ _ _ flowing drained stepped => flowingStep flowing stepped.2 drained stepped.1)
    fun _ _ _ flowing undrained stepped => undrainedStep flowing undrained stepped.1

instance (s : State) : (e : Event) → Decidable (Healthy s e)
  | .err | .teardown => isFalse id
  | .fdEvent events => inferInstanceAs (Decidable (s.connected = false → events.failure = false))
  | .connected ok => inferInstanceAs (Decidable (ok = true))
  | .read answer => inferInstanceAs (Decidable (answer ≠ .failed))
  | .flushed sends | .ran sends => inferInstanceAs (Decidable (∀ send ∈ sends, send ≠ .failed ∧ send ≠ .wrote 0))
  | .recv _ | .fin | .sent _ | .stackRan _ | .paused => isTrue trivial

/- The socket takes one byte of two, and the client is done sending. -/
def finished : List Event :=
  [.ran [],.fdEvent .WRITE,.connected true,.flushed [],.recv [1,2],.ran [.wrote 1,.wouldBlock],.fin,.ran []]

theorem tailLost : ∃ s, Run (Guarded step Healthy) State.start finished s ∧ s.connected = true ∧ ¬ TailKept s := by
  have outcome : (execute (fun s e => if Healthy s e then handle s e else none) State.start finished).map (fun s =>
      (s.connected,s.fd,s.finned,s.sent,s.delivered)) = some (true,false,true,[1],[1,2]) := by decide +kernel
  obtain ⟨s,ok,same⟩ := Option.map_eq_some_iff.mp outcome
  simp only [Prod.mk.injEq] at same
  obtain ⟨connected,shut,finned,sent,delivered⟩ := same
  have run : Run (Guarded step Healthy) State.start finished s :=
    executeGuarded (fun _ _ _ h => h) (fun _ _ healthy => healthy) ok
  refine ⟨s,run,connected,fun kept => ?_⟩
  have whole := kept shut finned
  rw [sent,delivered] at whole
  contradiction

end Candy.SessionTcp
