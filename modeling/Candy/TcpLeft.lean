import Candy.TcpShared

/-! What is left of the landing connections when the stack has gone down. A session
without its pcb is being closed, and a session that closes has given up its fd and
itself or has a task for it; so once the queue is empty nothing is left, whatever was
in flight. -/
namespace Candy.SessionTcp

structure Ending (s : State) : Prop where
  shut : s.pcb = false → s.closing = true ∨ .closeFromReactor ∈ s.tasks
  gone : s.closing = true → (s.fd = false ∧ s.self = false) ∨ .drop ∈ s.tasks

section
variable {s t : State}

def Hands (s t : State) : Prop := t.pcb = s.pcb ∨ .closeFromReactor ∈ t.tasks

theorem closeIfHands (c : Bool) (hands : Hands s t) : Hands s (if c then closeFromStack t else t) := by
  split
  · exact .inr (List.mem_append_right _ List.mem_cons_self)
  · exact hands

theorem interestPcb (s : State) : (updateReadInterest s).pcb = s.pcb := by
  unfold updateReadInterest
  split <;> rfl

theorem pumpHands {answers : List TcpWrite} (ok : pumpToLwip s answers = some t) : Hands s t := by
  unfold pumpToLwip at ok
  split at ok
  · cases Option.some.inj ok; exact .inl rfl
  · obtain ⟨⟨written,left,failed⟩,_,same⟩ := Option.map_eq_some_iff.mp ok
    subst same
    cases failed with
    | true => exact .inl rfl
    | false =>
      simp only [afterPump,Bool.false_eq_true,if_false]
      exact closeIfHands _ (.inl (interestPcb _))

theorem stackTaskHands {answers : List TcpWrite} {task : StackTask} (ok : runStackTask s answers task = some t) : Hands s t := by
  cases task with
  | writeToLwip data =>
    simp only [runStackTask,writeToLwip] at ok
    split at ok
    · cases Option.some.inj ok; exact .inl rfl
    · have hands := pumpHands ok
      exact hands
  | onFdEof =>
    simp only [runStackTask,onFdEofFromStack] at ok
    obtain ⟨u,pumped,same⟩ := Option.map_eq_some_iff.mp ok
    subst same
    have hands := pumpHands pumped
    exact closeIfHands u.backwardBuf.isEmpty hands
  | closeFromStack =>
    cases Option.some.inj ok
    exact .inr (List.mem_append_right _ List.mem_cons_self)
  | ackRecved =>
    simp only [runStackTask,ackRecvedToLwip] at ok
    split at ok <;> cases Option.some.inj ok <;> exact .inl rfl

theorem besideEnding (ending : Ending s) (hands : Hands s t) (beside : Beside s t) (self : t.self = s.self) : Ending t := by
  obtain ⟨more,tasks,-⟩ := beside.tasks
  refine ⟨fun shut => ?_,fun closing => ?_⟩
  · rw [beside.closing]
    rcases hands with same | posted
    · refine (ending.shut (same ▸ shut)).imp_right fun there => ?_
      rw [tasks]; exact List.mem_append_left _ there
    · exact .inr posted
  · rw [beside.closing] at closing
    rw [beside.fd,self,tasks]
    exact (ending.gone closing).imp_right (List.mem_append_left _)

/- The reactor thread closes the fd and the session together, and takes a task that does only by doing it. -/
theorem reactorEnding {e : Event} (ending : Ending s) (reactor : e.onReactor = true) (stepped : step s e t) : Ending t := by
  have keeps (pcb : t.pcb = s.pcb) (closing : t.closing = s.closing) (fd : t.fd = s.fd) (self : t.self = s.self)
      (stays : ∀ task, task = .closeFromReactor ∨ task = .drop → task ∈ s.tasks → task ∈ t.tasks) : Ending t := by
    refine ⟨fun shut => ?_,fun ends => ?_⟩
    · rw [closing]
      exact (ending.shut (pcb ▸ shut)).imp_right (stays _ (.inl rfl))
    · rw [fd,self]
      exact (ending.gone (closing ▸ ends)).imp_right (stays _ (.inr rfl))
  cases reactedOf reactor stepped with
  | turned | connected | data | eof | paused => exact keeps rfl rfl rfl rfl fun _ _ there => there
  | void flushing | blocked flushing | drained flushing =>
    exact keeps rfl rfl rfl rfl fun _ ends => flushing.others (by rcases ends with rfl | rfl <;> nofun)
  | add _ queue | resumed _ queue | kept _ queue | del _ queue =>
    exact keeps rfl rfl rfl rfl fun _ ends => memBehind queue (by rcases ends with rfl | rfl <;> nofun)
  | drop _ queue => exact ⟨fun shut => (ending.shut shut).imp_right (memBehind queue nofun),fun _ => .inl ⟨rfl,rfl⟩⟩
  | late closes closing => exact ⟨fun _ => .inl closing,fun _ => (ending.gone closing).imp_right (closes.others nofun nofun)⟩
  | closed => exact ⟨fun _ => .inl rfl,fun _ => .inl ⟨rfl,rfl⟩⟩

theorem endingStep {e : Event} (ending : Ending s) (stepped : step s e t) : Ending t := by
  cases reactor : e.onReactor with
  | true => exact reactorEnding ending reactor stepped
  | false =>
    cases answeredOf reactor stepped with
    | recv => exact ⟨fun shut => (ending.shut shut).imp_right (List.mem_append_left _),
        fun closing => (ending.gone closing).imp_right (List.mem_append_left _)⟩
    | fin => exact ⟨fun _ => .inr (List.mem_append_right _ List.mem_cons_self),
        fun closing => (ending.gone closing).imp_right (List.mem_append_left _)⟩
    | sent _ pumped => exact besideEnding ending (pumpHands pumped) (pumpBeside pumped) (pumpSide pumped).self
    | stackRan _ ran =>
      have hands := stackTaskHands ran
      exact besideEnding ending hands ((Beside.quiet (s := s) rfl).trans (stackTaskBeside ran)) (stackTaskSide ran).self
    | errLate closing | teardownLate closing => exact ⟨fun _ => .inl closing,ending.gone⟩
    | err => exact ⟨fun _ => .inl rfl,fun _ => .inl ⟨rfl,rfl⟩⟩
    | teardown => exact ⟨fun _ => .inl rfl,fun _ => .inr (List.mem_append_right _ List.mem_cons_self)⟩

theorem endingDrained (ending : Ending s) (shut : s.pcb = false) (drained : s.tasks = []) : s.fd = false ∧ s.self = false := by
  have nothing (task : Task) : task ∉ s.tasks := by rw [drained]; exact List.not_mem_nil
  have closing := (ending.shut shut).resolve_right (nothing _)
  exact (ending.gone closing).resolve_right (nothing _)

end

end Candy.SessionTcp

namespace Candy.TcpLandings
open Runs Shares
open TcpStack (NetStack Pcb Sid)
open SessionTcp (Task ReactorEvent)

structure Down (n : NetStack) : Prop where
  stopped : n.running = false
  calm : n.aborting = none
  shut : ∀ s < n.made, (n.session s).pcb = false

theorem teardownDown {n : NetStack} (kept : TcpStack.Kept (TcpStack.teardownStack n)) (stopped : n.running = false) (calm : n.aborting = none) :
    Down (TcpStack.teardownStack n) := by
  have frame (sids : List Sid) (n : NetStack) : (sids.foldl TcpStack.shutdownSession n).running = n.running ∧
      (sids.foldl TcpStack.shutdownSession n).aborting = n.aborting := by
    induction sids generalizing n with
    | nil => exact ⟨rfl,rfl⟩
    | cons s sids ih => exact ih (TcpStack.shutdownSession n s)
  obtain ⟨running,aborting⟩ := frame (n.sessions.entries.map Sigma.snd) n
  refine ⟨running.trans stopped,aborting.trans calm,fun s made => Bool.eq_false_iff.2 fun opened => ?_⟩
  rcases kept.kept s made opened with listed | ⟨aborts,-⟩
  · have found := (kept.listed s made listed).2
    rw [TcpStack.teardownStack,AList.lookup_empty] at found
    cases found
  · rw [show (TcpStack.teardownStack n).aborting = _ from aborting.trans calm] at aborts
    cases aborts

theorem deliverRunning {n m : NetStack} {s : Sid} {e : SessionTcp.Event} (ok : TcpStack.deliver n s e = some m) :
    m.running = n.running := by
  rw [deliverSettles] at ok
  obtain ⟨t,-,same⟩ := Option.map_eq_some_iff.1 ok
  rw [← same,settle]
  simp only
  split <;> rfl

theorem downStep {n m : NetStack} {e : TcpStack.Event} (kept : TcpStack.Kept n) (down : Down n) (stepped : TcpStack.step n e m) : Down m := by
  have moves (s : Sid) (made : s < n.made) : (m.session s).pcb = false := by
    have before := down.shut s made
    rcases sessionMoves kept stepped made with same | ⟨se,step⟩
    · rw [same]; exact before
    · by_cases last : se = .teardown
      · subst last
        generalize m.session s = t at step
        cases SessionTcp.stepCases step with
        | teardown => exact TcpStack.shutDownPcb _
      · refine Bool.eq_false_iff.2 fun opened => ?_
        rw [(TcpStack.sessionStep last step).1 opened] at before
        cases before
  suffices frame : m.running = n.running ∧ m.aborting = n.aborting ∧ m.made = n.made from
    ⟨frame.1.trans down.stopped,frame.2.1.trans down.calm,fun s made => moves s (frame.2.2 ▸ made)⟩
  have delivers {s : Sid} {se : SessionTcp.Event} (ok : TcpStack.deliver n s se = some m) :
      m.running = n.running ∧ m.aborting = n.aborting ∧ m.made = n.made := by
    obtain ⟨-,-,-,made,aborting⟩ := TcpStack.deliverFrame ok
    exact ⟨deliverRunning ok,aborting,made⟩
  have calls {pcb : Pcb} {se : SessionTcp.Event} (ok : TcpStack.callback n pcb se = some m) :
      m.running = n.running ∧ m.aborting = n.aborting ∧ m.made = n.made := by
    obtain ⟨s,-,delivered⟩ := Option.bind_eq_some_iff.1 ok
    exact delivers delivered
  unfold TcpStack.step at stepped
  cases e with
  | shutdown =>
    cases Option.some.inj stepped
    exact ⟨down.stopped.symm,rfl,rfl⟩
  | reactor x se =>
    simp only [TcpStack.handle] at stepped
    split at stepped <;> try contradiction
    exact delivers stepped
  | aborted =>
    simp only [TcpStack.handle,down.calm,Option.bind_none] at stepped
    contradiction
  | accept newpcb dialed =>
    simp only [TcpStack.handle] at stepped
    split at stepped <;> try contradiction
    cases newpcb with
    | none => cases Option.some.inj stepped; exact ⟨rfl,rfl,rfl⟩
    | some pcb =>
      simp only at stepped
      split at stepped <;> try contradiction
      cases Option.some.inj stepped
      simp only [TcpStack.onAccept,down.stopped,Bool.not_false,if_true]
      exact ⟨trivial,trivial,trivial⟩
  | recv | fin | sent | err =>
    simp only [TcpStack.handle] at stepped
    split at stepped <;> try contradiction
    exact calls stepped
  | stackRan x answers =>
    simp only [TcpStack.handle] at stepped
    split at stepped <;> try contradiction
    split at stepped <;> try contradiction
    exact delivers stepped
  | teardown =>
    simp only [TcpStack.handle] at stepped
    split at stepped <;> try contradiction
    split at stepped <;> try contradiction
    cases Option.some.inj stepped
    obtain ⟨-,-,-,made⟩ := TcpStack.shutdownAll (n.sessions.entries.map Sigma.snd) n
    have again := teardownDown (TcpStack.teardownKept kept down.calm) down.stopped down.calm
    exact ⟨again.stopped.trans down.stopped.symm,again.calm.trans down.calm.symm,made⟩

theorem downRun {events : List Event} {l : State} (run : Run step initial events l) : .teardown ∈ events → Down l.owned := by
  induction run with
  | nil => intro wrong; contradiction
  | @snoc events l e m before last ih =>
    intro there
    have sound := (ranRun before).sound
    obtain ⟨after,⟨seen,stepped⟩,-⟩ := soundStep sound last
    rcases List.mem_append.1 there with earlier | now
    · exact downStep sound.kept (ih earlier) stepped
    · cases List.mem_singleton.1 now
      obtain ⟨-,owned,-⟩ := teardownOwned sound
      simp only [step,handle] at last
      split at last <;> try contradiction
      rename_i calm
      split at last <;> try contradiction
      rename_i stopped
      cases Option.some.inj last
      have kept := after.kept
      rw [owned] at kept ⊢
      have running : l.stack.running = false := by simpa using stopped
      have aborting : l.stack.aborting = none := by simpa using calm
      exact teardownDown kept running aborting

theorem ranEnding {l : State} {s : Sid} (ran : Ran l) (made : s < l.stack.made) : SessionTcp.Ending (l.own s) := by
  obtain ⟨seen,steps⟩ := ran.sessions s made
  refine steps.invariant ?_ fun _ _ _ ending stepped => SessionTcp.endingStep ending stepped
  unfold begun
  split <;> exact ⟨fun wrong => by contradiction,fun wrong => by contradiction⟩

theorem landingsLeft {events : List Event} {l : State} (run : Run step initial events l) (down : .teardown ∈ events) (drained : l.tasks = []) :
    (∀ n, l.sockets.lookup n = none) ∧ (∀ n, l.ioWatchers.lookup n = none) ∧ (∀ pcb, l.stack.tcpArg.lookup pcb = none) ∧
    ∀ s < l.stack.made, (l.stack.session s).pcb = false ∧ (l.stack.session s).fd = false ∧ (l.stack.session s).self = false := by
  have ran := ranRun run
  have landed := landedRan ran
  have torn := downRun run down
  have ended (s : Sid) (made : s < l.stack.made) :
      (l.stack.session s).pcb = false ∧ (l.stack.session s).fd = false ∧ (l.stack.session s).self = false := by
    have pcb : (l.own s).pcb = false := by rw [← ownedAt made]; exact torn.shut s made
    have queue : (l.own s).tasks = [] := by rw [State.own,drained]; rfl
    have gone := SessionTcp.endingDrained (ranEnding ran made) pcb queue
    exact ⟨pcb,gone⟩
  have unopened (n : Fd) : l.sockets.lookup n = none := by
    cases found : l.sockets.lookup n with
    | none => rfl
    | some s =>
      obtain ⟨made,-,opened⟩ := (landed.sockets n s).1 found
      rw [(ended s made).2.1] at opened
      cases opened
  refine ⟨unopened,fun n => ?_,fun pcb => ?_,ended⟩
  · cases found : l.ioWatchers.lookup n with
    | none => rfl
    | some iw =>
      rcases (landed.watchers n iw.1 iw.2 found).2 with opened | ⟨-,queued⟩
      · rw [unopened n] at opened; cases opened
      · rw [drained] at queued; contradiction
  · cases found : l.stack.tcpArg.lookup pcb with
    | none => rfl
    | some s =>
      obtain ⟨made,-,opened⟩ := ran.sound.kept.argued pcb s found
      have shut := torn.shut s made
      rw [opened] at shut
      cases shut

/- Both connections of one descriptor, the second still connecting when the stack goes down. -/
def goesDown : List Event := comesAgain ++ [.shutdown,.ran [],.teardown,.ran [],.ran []]

theorem downLeft : ∃ l, Run step initial goesDown l ∧ l.stack.made = 2 ∧ ∀ n, l.sockets.lookup n = none := by
  have outcome : (execute handle initial goesDown).map (fun l => (l.stack.made,l.tasks)) = some (2,[]) := by decide +kernel
  obtain ⟨l,ok,same⟩ := Option.map_eq_some_iff.mp outcome
  obtain ⟨made,tasks⟩ := Prod.mk.inj same
  have run : Run step initial goesDown l := executeRun (fun _ _ _ taken => taken) ok
  exact ⟨l,run,made,(landingsLeft run (by decide) tasks).1⟩

end Candy.TcpLandings
