import Candy.TcpDeregister

/-! What a session asks of the reactor, step by step. Registering and removing are
posted in the order of their being wanted, a session whose fd is closed wants its
removal at most, and one that waits for its registration or is closed does not look
at what the poll set has under its fd. -/
namespace Candy.SessionTcp

theorem posted {s t : State} {e : Event} (stepped : step s e t) : ∃ more, t.tasks = s.tasks.drop (taken e) ++ more ∧
    .add ∉ more ∧ (.del ∈ more → s.fd = true) := by
  cases reactor : e.onReactor with
  | true => exact ⟨[],by rw [reactorTasks reactor stepped,List.append_nil],by simp,by simp⟩
  | false =>
    have beside {t : State} (beside : Beside s t) : ∃ more, t.tasks = s.tasks ++ more ∧ .add ∉ more ∧ (.del ∈ more → s.fd = true) := by
      obtain ⟨more,tasks,each⟩ := beside.tasks
      refine ⟨more,tasks,fun adds => ?_,fun removes => ?_⟩
      · rcases each _ adds with ⟨same,_⟩ | ⟨_,same⟩ <;> cases same
      · rcases each _ removes with ⟨same,_⟩ | ⟨_,same⟩ <;> cases same
    cases answeredOf reactor stepped with
    | recv => exact ⟨[.flushForward],rfl,by simp,by simp⟩
    | fin => exact ⟨[.closeFromReactor],rfl,by simp,by simp⟩
    | sent _ pumped => exact beside (pumpBeside pumped)
    | errLate | teardownLate => exact ⟨[],(List.append_nil _).symm,by simp,by simp⟩
    | err => exact ⟨_,rfl,by split <;> simp,by split <;> simp_all⟩
    | teardown => exact ⟨[.drop],rfl,by simp,by simp⟩
    | stackRan _ taken => exact beside ((Beside.quiet (s := s) rfl).trans (stackTaskBeside taken))

structure Through (s t : State) : Prop where
  fd : t.fd = true → s.fd = true
  sent : ∃ more, t.sent = s.sent ++ more ∧ (more ≠ [] → s.fd = true)
  received : ∃ more, t.received = s.received ++ more ∧ (more ≠ [] → s.fd = true)

structure Outward (s t : State) : Prop where
  through : Through s t
  unwatched : s.watcher = none → t.watcher = none

section
variable {s t : State}

theorem Outward.wrote {written : Bytes} (fd : t.fd = true → s.fd = true) (sent : t.sent = s.sent ++ written)
    (able : written ≠ [] → s.fd = true) (received : t.received = s.received) (unwatched : s.watcher = none → t.watcher = none) :
    Outward s t :=
  ⟨⟨fd,⟨written,sent,able⟩,⟨[],by rw [received,List.append_nil],absurd rfl⟩⟩,unwatched⟩

theorem Outward.quiet (fd : t.fd = true → s.fd = true) (sent : t.sent = s.sent) (received : t.received = s.received)
    (unwatched : s.watcher = none → t.watcher = none) : Outward s t :=
  .wrote fd (sent.trans (List.append_nil _).symm) (absurd rfl) received unwatched

theorem Outward.beside (beside : Beside s t) (received : t.received = s.received) : Outward s t :=
  .quiet (fun opened => by rwa [beside.fd] at opened) beside.sent received fun none_ => by rw [beside.watcher]; exact none_

theorem reactorOutward {e : Event} (registered : ∀ rest, s.tasks = .add::rest → taken e = 0) (reactor : e.onReactor = true)
    (stepped : step s e t) : Outward s t := by
  cases reactedOf reactor stepped with
  | turned | void | kept => exact .quiet (fun h => h) rfl rfl fun h => h
  | connected | paused | resumed => exact .quiet (fun h => h) rfl rfl fun none_ => by simp [none_]
  | eof | del => exact .quiet (fun h => h) rfl rfl fun _ => rfl
  | data _ _ opened => exact ⟨⟨fun h => h,⟨[],(List.append_nil _).symm,absurd rfl⟩,⟨_,rfl,fun _ => opened⟩⟩,fun h => h⟩
  | blocked _ opened | drained _ opened => exact .wrote (fun h => h) rfl (fun _ => opened) rfl fun none_ => by simp [none_]
  | add _ queue => exact absurd (registered _ queue) Nat.one_ne_zero
  | drop => exact .quiet nofun rfl rfl fun none_ => by simp [none_]
  | late closes => exact .wrote (fun h => h) rfl closes.wrote rfl fun h => h
  | closed closes => exact .wrote nofun rfl closes.wrote rfl fun none_ => by simp [none_]

theorem outwardStep {e : Event} (registered : ∀ rest, s.tasks = .add::rest → taken e = 0) (stepped : step s e t) : Outward s t := by
  cases reactor : e.onReactor with
  | true => exact reactorOutward registered reactor stepped
  | false =>
    cases answeredOf reactor stepped with
    | recv | fin => exact .quiet (fun h => h) rfl rfl fun h => h
    | sent _ pumped => exact .beside (pumpBeside pumped) (pumpSide pumped).received
    | errLate | teardownLate | teardown => exact .quiet (fun h => h) rfl rfl fun h => h
    | err => exact .quiet nofun rfl rfl fun h => h
    | stackRan _ ran =>
      exact .beside ((Beside.quiet (s := s) rfl).trans (stackTaskBeside ran)) (stackTaskSide ran).received

end

theorem throughStep {s t : State} {e : Event} (stepped : step s e t) : Through s t := by
  by_cases registering : ∀ rest, s.tasks = .add::rest → taken e = 0
  · exact (outwardStep registering stepped).through
  · obtain ⟨rest,first⟩ := not_forall.1 registering
    obtain ⟨queue,takes⟩ := Classical.not_imp.1 first
    cases stepCases stepped with
    | ran _ queue' ran =>
      rw [queue] at queue'
      cases queue'
      cases Option.some.inj ran
      exact ⟨fun h => h,⟨[],(List.append_nil _).symm,absurd rfl⟩,⟨[],(List.append_nil _).symm,absurd rfl⟩⟩
    | _ => exact absurd rfl takes

theorem stackAside {s t : State} {e : Event} (stack : e.onReactor = false) (stepped : step s e t) : t.pc = s.pc ∧ t.watcher = s.watcher := by
  cases answeredOf stack stepped with
  | sent _ pumped =>
    have beside := pumpBeside pumped
    exact ⟨beside.pc,beside.watcher⟩
  | stackRan _ taken =>
    have beside := stackTaskBeside taken
    exact ⟨beside.pc,beside.watcher⟩
  | _ => exact ⟨rfl,rfl⟩

/- The registration of a closed fd is over, or its removal is still to come. -/
def Settled (s : State) : Prop := s.fd = false → Off s ∨ Task.del ∈ s.tasks

theorem settledStep {s t : State} {e : Event} (registered : Registered s) (settled : Settled s) (stepped : step s e t) :
    Settled t := by
  intro shut
  have queued : Task.del ∈ s.tasks → Off t ∨ Task.del ∈ t.tasks := by
    intro removes
    obtain ⟨more,tasks,_⟩ := posted stepped
    cases stepCases stepped with
    | @ran sends task rest _ idle queue ran =>
      by_cases first : task = .del
      · subst first
        have added : Task.add ∉ s.tasks := fun adds => by
          obtain ⟨_,_,_,same,_⟩ := registered.adding adds
          rw [queue] at same
          cases same
        cases Option.some.inj ran
        rw [queue,List.mem_cons,not_or] at added
        exact .inl ⟨rfl,added.2,fun writable wrong => by rw [show s.pc = _ from wrong] at idle; cases idle⟩
      · rw [queue] at tasks removes
        rw [tasks]
        exact .inr (List.mem_append_left _ ((List.mem_cons.mp removes).resolve_left (Ne.symm first)))
    | _ => exact .inr (by rw [tasks]; exact List.mem_append_left _ removes)
  obtain ⟨_,⟨err,same⟩ | ⟨fd,still⟩ | off⟩ := registeredStep registered stepped
  · subst same
    rcases Bool.eq_false_or_eq_true s.closing with closing | opened
    · rw [errClosed closing] at shut
      exact (settled shut).elim (fun off => .inl ((errRegistered registered).2 off)) queued
    · rw [errOpened opened (registered.opened opened)]
      exact .inr (List.mem_append_right _ (List.mem_singleton.mpr rfl))
  · exact (settled (fd ▸ shut)).elim (fun off => .inl (still off)) queued
  · exact .inl off

theorem startSettled : Settled State.start := fun wrong => by contradiction

theorem stepOf {s t : State} {e : Event} (stepped : Stepped s e t) : step s e t := by
  cases stepped with
  | recv opened | fin opened | err opened | teardown opened => exact if_pos opened
  | sent opened pumped => exact (if_pos opened).trans pumped
  | stackRan queue taken => simpa only [step,handle,queue] using taken
  | fdEvent idle watched => exact if_pos ⟨idle,watched⟩
  | connected dialing opened => exact if_pos ⟨dialing,opened⟩
  | read here answered => simpa only [step,handle,here] using answered
  | paused here => simp only [step,handle,here]
  | flushed here flushed => exact (if_pos here).trans flushed
  | ran idle queue taken => simpa only [step,handle,idle,queue] using taken

section
variable {s t : State} (w : Option ReactorEvent)

theorem updateReadInterestBlind : updateReadInterest {s with watcher := w} = {updateReadInterest s with watcher := w} := by
  unfold updateReadInterest
  split <;> rfl

theorem closeIfBlind (c : Bool) : (if c then closeFromStack {s with watcher := w} else {s with watcher := w}) =
    {(if c then closeFromStack s else s) with watcher := w} := by
  split <;> rfl

theorem afterPumpBlind (written left : Bytes) (failed : Bool) :
    afterPump {s with watcher := w} written left failed = {afterPump s written left failed with watcher := w} := by
  cases failed with
  | true => rfl
  | false =>
    have interest := fun n => @updateReadInterestBlind {s with
      accepted := s.accepted ++ written, backwardBuf := left, backwardBytes := n} w
    simp only [afterPump,Bool.false_eq_true,if_false]
    rw [interest]
    exact closeIfBlind w _

theorem pumpBlind {answers : List TcpWrite} (ok : pumpToLwip s answers = some t) :
    pumpToLwip {s with watcher := w} answers = some {t with watcher := w} := by
  unfold pumpToLwip at ok ⊢
  split at ok
  · rename_i shut
    cases Option.some.inj ok
    rw [if_pos shut]
  · rename_i opened
    obtain ⟨⟨written,left,failed⟩,loop,same⟩ := Option.map_eq_some_iff.mp ok
    subst same
    rw [if_neg opened,loop]
    exact congrArg some (afterPumpBlind w written left failed)

theorem stackTaskBlind {answers : List TcpWrite} {task : StackTask} (ok : runStackTask s answers task = some t) :
    runStackTask {s with watcher := w} answers task = some {t with watcher := w} := by
  cases task with
  | writeToLwip data =>
    simp only [runStackTask,writeToLwip] at ok ⊢
    split at ok
    · rename_i shut
      cases Option.some.inj ok
      rw [if_pos shut]
    · rename_i opened
      rw [if_neg opened]
      exact pumpBlind w ok
  | onFdEof =>
    simp only [runStackTask,onFdEofFromStack] at ok ⊢
    obtain ⟨u,pumped,same⟩ := Option.map_eq_some_iff.mp ok
    have blind := pumpBlind w pumped
    simp only at blind
    rw [blind,Option.map_some,← same]
    exact congrArg some (closeIfBlind w _)
  | closeFromStack => cases Option.some.inj ok; rfl
  | ackRecved =>
    simp only [runStackTask,ackRecvedToLwip] at ok ⊢
    split at ok
    · rename_i shut
      cases Option.some.inj ok
      rw [if_pos shut]
    · rename_i opened
      cases Option.some.inj ok
      rw [if_neg opened]

theorem errBlind : onErr {s with watcher := w} = {onErr s with watcher := w} := by
  rcases Bool.eq_false_or_eq_true s.closing with closing | opened
  · rw [errClosed closing,errClosed (by exact closing)]
  · rw [onErr,onErr,closeEq false (by exact opened),closeEq false (by exact opened)]
    simp

theorem stackBlind {e : Event} (stack : e.onReactor = false) (stepped : step s e t) :
    t.watcher = s.watcher ∧ step {s with watcher := w} e {t with watcher := w} := by
  refine ⟨(stackAside stack stepped).2,?_⟩
  cases stepCases stepped with
  | fdEvent | connected | read | paused | flushed | ran => contradiction
  | recv opened | fin opened => exact if_pos opened
  | sent opened pumped => exact (if_pos opened).trans (pumpBlind w pumped)
  | err opened => exact (if_pos opened).trans (congrArg some (errBlind w))
  | teardown listed =>
    refine (if_pos listed).trans (congrArg some ?_)
    simp only [shutdownFromStack]
    split <;> rfl
  | stackRan queue ran =>
    have blind := stackTaskBlind w ran
    exact stepOf (.stackRan queue blind)

theorem closedBlind {e : Event} (shut : s.fd = false) (closing : s.closing = true)
    (plain : ∀ task rest, s.tasks = task::rest → task ≠ .add ∧ task ≠ .del) (other : ∀ events, e ≠ .fdEvent events)
    (stepped : step s e t) : t.watcher = s.watcher ∧ step {s with watcher := w} e {t with watcher := w} := by
  have closed (b : Bool) (pc : ReactorPc) : closeFromReactor b {s with pc := pc} = {s with pc := pc} := closedEq b closing
  have unflushed (u : State) (fd : u.fd = false) (sends : List Send) : flushForwardLocked u sends = some u := by
    rw [flushForwardLocked,fd]; rfl
  cases reactor : e.onReactor with
  | false => exact stackBlind w reactor stepped
  | true =>
    cases stepCases stepped with
    | recv | fin | sent | err | teardown | stackRan => contradiction
    | fdEvent => exact absurd rfl (other _)
    | @connected done dialing opened =>
      cases done with
      | true => rw [opened rfl] at shut; contradiction
      | false =>
        have same (v : Option ReactorEvent) : onConnected {s with watcher := v} false = {s with watcher := v, pc := .idle} :=
          closedEq true closing
        rw [show onConnected s false = _ from same s.watcher]
        exact ⟨rfl,(if_pos ⟨dialing,opened⟩).trans (congrArg some (same w))⟩
    | @read answer writable _ here answered =>
      have able {P : Prop} (wrong : s.fd = true) : P := by rw [shut] at wrong; contradiction
      suffices same : ∃ pc, t = {s with pc := pc} ∧ onFdReadable {s with watcher := w} writable answer =
          some {s with watcher := w, pc := pc} by
        obtain ⟨pc,same,blind⟩ := same
        rw [same]
        exact ⟨rfl,stepOf (.read here blind)⟩
      unfold onFdReadable at answered ⊢
      split at answered
      · rename_i high
        cases Option.some.inj answered
        exact ⟨_,rfl,if_pos high⟩
      · rename_i low
        simp only [if_neg low]
        cases answer with
        | data bytes =>
          simp only at answered
          split at answered <;> try contradiction
          rename_i fits
          exact able fits.1
        | eof | wouldBlock =>
          simp only at answered
          split at answered <;> try contradiction
          rename_i opened
          exact able opened
        | failed =>
          cases Option.some.inj answered
          exact ⟨_,closed true _,congrArg some (closedEq true closing)⟩
    | @paused writable here =>
      have same (v : Option ReactorEvent) : pauseRead {s with watcher := v} writable =
          {s with watcher := v, readPaused := true, pc := afterReading writable} := by
        rw [pauseRead,mod,if_neg]
        simp [shut]
      rw [show pauseRead s writable = _ from same s.watcher]
      have paused := @Stepped.paused {s with watcher := w} writable here
      rw [same w] at paused
      exact ⟨rfl,stepOf paused⟩
    | @flushed sends _ here flushed =>
      have same := unflushed {s with pc := .idle} shut sends
      cases Option.some.inj (same.symm.trans flushed)
      have blind := unflushed {s with watcher := w, pc := .idle} shut sends
      exact ⟨rfl,stepOf (.flushed here blind)⟩
    | @ran sends task rest _ idle queue ran =>
      obtain ⟨unadded,undeleted⟩ := plain task rest queue
      suffices same : t.watcher = s.watcher ∧ runTask {s with watcher := w, tasks := rest} sends task = some {t with watcher := w} by
        exact ⟨same.1,stepOf (.ran idle queue same.2)⟩
      cases task with
      | add => exact absurd rfl unadded
      | del => exact absurd rfl undeleted
      | flushForward =>
        cases Option.some.inj ((unflushed {s with tasks := rest} shut sends).symm.trans ran)
        exact ⟨rfl,unflushed {s with watcher := w, tasks := rest} shut sends⟩
      | resumeRead fd =>
        simp only [runTask,closing,Bool.not_true,Bool.and_false,Bool.false_eq_true,if_false] at ran ⊢
        cases Option.some.inj ran
        exact ⟨rfl,rfl⟩
      | closeFromReactor =>
        have same : closeFromReactor true {s with tasks := rest} = {s with tasks := rest} := closedEq true closing
        cases Option.some.inj ((congrArg some same).symm.trans ran)
        exact ⟨rfl,congrArg some (closedEq true closing)⟩
      | drop =>
        simp only [runTask,shut,Bool.false_eq_true,if_false] at ran ⊢
        cases Option.some.inj ran
        exact ⟨rfl,rfl⟩

end

end Candy.SessionTcp
