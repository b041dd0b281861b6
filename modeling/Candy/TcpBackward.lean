import Candy.TcpDeregister

/-! Data on its way to the client. It is posted to the NetStack thread chunk by
chunk, waits in backwardBuf for room in lwIP, and what tcp_write took is erased
when the loop ends. Only a failed tcp_write leaves bytes in the buffer that lwIP
already has; no write succeeds after it, so they are not sent again. -/
namespace Candy.SessionTcp
open Runs

/- What the calls of tcp_write in pumpToLwip return. -/
def pumpWrites : Bytes → List TcpWrite → List WriteResult
  | [],_ => []
  | _::_,[] => []
  | buf@(_::_),a::rest =>
    if a.space = 0 then [] else match a.result with
      | .mem => [.mem]
      | .other => [.other]
      | .ok => .ok::pumpWrites (buf.drop (min a.space.toNat buf.length)) rest

def tcpWrites (s : State) : Event → List WriteResult
  | .sent answers => if s.pcb then pumpWrites s.backwardBuf answers else []
  | .stackRan answers => if s.pcb then match s.stackTasks with
      | .writeToLwip data::_ => pumpWrites (s.backwardBuf ++ data) answers
      | .onFdEof::_ => pumpWrites s.backwardBuf answers
      | _ => [] else []
  | _ => []

/- After an error other than ERR_MEM every later tcp_write fails too. -/
def Final (results : List WriteResult) : Prop := results.Pairwise fun a b => a = .other → b ≠ .ok

/- The session together with all results of tcp_write so far. -/
structure Traced where
  session : State
  results : List WriteResult

def Traced.start : Traced := ⟨State.start,[]⟩

def traced (s : Traced) (e : Event) (t : Traced) : Prop :=
  step s.session e t.session ∧ t.results = s.results ++ tcpWrites s.session e

/- The step closes the pcb, with the fd at its end and nothing left in the buffer. -/
def ClosedByEof (s t : State) : Prop := s.pcb = true ∧ t.pcb = false ∧ t.fdEof = true ∧ t.backwardBuf = []

theorem pumpSpec {buf written left : Bytes} {answers : List TcpWrite} {failed : Bool}
    (ok : pumpLoop buf answers = some (written,left,failed)) :
    written ++ left = buf ∧ (failed = true ↔ .other ∈ pumpWrites buf answers) ∧ (failed = true → left ≠ []) ∧
    (written ≠ [] → .ok ∈ pumpWrites buf answers) := by
  induction answers generalizing buf written left with
  | nil =>
    cases buf with
    | nil => cases Option.some.inj ok; simp [pumpWrites]
    | cons _ _ => contradiction
  | cons a rest ih =>
    cases buf with
    | nil => cases Option.some.inj ok; simp [pumpWrites]
    | cons b bs =>
      simp only [pumpLoop] at ok
      simp only [pumpWrites]
      split at ok
      · rename_i full
        cases Option.some.inj ok
        simp [full]
      · rename_i room
        rw [if_neg room]
        cases result : a.result with
        | mem | other =>
          simp only [result] at ok
          cases Option.some.inj ok
          simp
        | ok =>
          simp only [result] at ok
          obtain ⟨⟨w,l,f⟩,tail,same⟩ := Option.map_eq_some_iff.mp ok
          cases same
          obtain ⟨whole,other,stays,_⟩ := ih tail
          refine ⟨?_,?_,stays,fun _ => List.mem_cons_self ..⟩
          · rw [List.append_assoc,whole,List.take_append_drop]
          · rw [other,List.mem_cons,or_iff_right (by simp)]

theorem Final.front {results more : List WriteResult} (final : Final (results ++ more)) : Final results :=
  (List.pairwise_append.mp final).1

/- With the pcb open: what was read is what lwIP took, then the buffer, then the
queue, in which nothing is behind the end of the stream. After a failed write only
the buffer is known not to empty again. -/
structure Feeding (s : State) (results : List WriteResult) : Prop where
  whole : .other ∉ results → s.received = s.accepted ++ (s.backwardBuf ++ s.stackTasks.flatMap carried)
  stuck : .other ∈ results → s.backwardBuf ≠ []
  ordered : s.stackTasks.Pairwise fun a b => a = .onFdEof → ∀ data, b ≠ .writeToLwip data
  past : s.fdEof = true ∨ .onFdEof ∈ s.stackTasks → s.ended = true
  last : s.fdEof = true → ∀ data, .writeToLwip data ∉ s.stackTasks

structure Landing (s : State) (results : List WriteResult) : Prop where
  kept : s.accepted <+: s.received
  feeding : s.pcb = true → Feeding s results
  waiting : s.pcb = true → s.fdEof = true → s.backwardBuf ≠ []

theorem closedLanding {s t : State} {results : List WriteResult} (more : List WriteResult) (landing : Landing s results)
    (shut : t.pcb = false) (accepted : t.accepted = s.accepted) (received : t.received = s.received) :
    Landing t (results ++ more) := by
  have opened {P : Prop} (wrong : t.pcb = true) : P := by rw [shut] at wrong; contradiction
  refine ⟨?_,opened,opened⟩
  rw [accepted,received]
  exact landing.kept

theorem updateReadInterestEq (s : State) : updateReadInterest s =
    {s with readPaused := (updateReadInterest s).readPaused, tasks := (updateReadInterest s).tasks} := by
  unfold updateReadInterest
  split <;> rfl

theorem pumpedEq (s : State) (written left : Bytes) : ∃ u,
    afterPump s written left false = (if s.fdEof && left.isEmpty then closeFromStack u else u) ∧
    u = {s with
      accepted := s.accepted ++ written, backwardBuf := left,
      backwardBytes := u.backwardBytes, readPaused := u.readPaused, tasks := u.tasks} := by
  have same := updateReadInterestEq {s with
    accepted := s.accepted ++ written
    backwardBuf := left
    backwardBytes := if written.isEmpty then s.backwardBytes else fetchSub s.backwardBytes written.length}
  simp only [afterPump,Bool.false_eq_true,if_false]
  generalize updateReadInterest _ = u at same ⊢
  refine ⟨u,?_,?_⟩
  · rw [show u.fdEof = s.fdEof by rw [same],show u.backwardBuf = left by rw [same]]
  · rw [show u.backwardBytes = _ by rw [same]]
    exact same

theorem nothingCarried {tasks : List StackTask} (none_ : ∀ data, .writeToLwip data ∉ tasks) : tasks.flatMap carried = [] := by
  refine List.flatMap_eq_nil_iff.mpr fun task member => ?_
  cases task with
  | writeToLwip data => exact absurd member (none_ data)
  | _ => rfl

theorem pumpLanding {s t : State} {results : List WriteResult} {answers : List TcpWrite} (feeding : Feeding s results)
    (kept : s.accepted <+: s.received) (opened : s.pcb = true) (final : Final (results ++ pumpWrites s.backwardBuf answers))
    (ok : pumpToLwip s answers = some t) :
    Landing t (results ++ pumpWrites s.backwardBuf answers) ∧ t.fdEof = s.fdEof ∧
    (t.pcb = false → t.accepted = t.received) := by
  simp only [pumpToLwip,opened,Bool.not_true,Bool.false_eq_true,if_false] at ok
  obtain ⟨⟨written,left,failed⟩,loop,same⟩ := Option.map_eq_some_iff.mp ok
  obtain ⟨whole,other,stays,took⟩ := pumpSpec loop
  have broken (before : .other ∈ results) : written = [] := by
    by_contra some_
    exact (List.pairwise_append.mp final).2.2 _ before _ (took some_) rfl rfl
  have prefix_ : s.accepted ++ written <+: s.received := by
    by_cases before : .other ∈ results
    · rw [broken before,List.append_nil]; exact kept
    · rw [feeding.whole before,← whole,List.append_assoc,← List.append_assoc]
      exact List.prefix_append _ _
  have nonempty (stuck : .other ∈ results) : left ≠ [] := by
    have same := whole
    rw [broken stuck,List.nil_append] at same
    rw [same]
    exact feeding.stuck stuck
  cases failed with
  | true =>
    subst same
    have full : s.backwardBuf ≠ [] := by rw [← whole]; simp [stays rfl]
    refine ⟨⟨prefix_,fun _ => ⟨fun wrong => ?_,fun _ => full,feeding.ordered,feeding.past,feeding.last⟩,
      fun _ _ => full⟩,rfl,fun shut => ?_⟩
    · exact absurd (List.mem_append_right _ (other.mp rfl)) wrong
    · rw [show s.pcb = false from shut] at opened; contradiction
  | false =>
    have fresh : .other ∉ pumpWrites s.backwardBuf answers := fun wrong => by have := other.mpr wrong; contradiction
    obtain ⟨u,after,frame⟩ := pumpedEq s written left
    simp only at same
    rw [after] at same
    subst same
    have accepted : u.accepted = s.accepted ++ written := by rw [frame]
    have received : u.received = s.received := by rw [frame]
    have fdEof : u.fdEof = s.fdEof := by rw [frame]
    split
    · rename_i past
      obtain ⟨eof,empty⟩ : s.fdEof = true ∧ left = [] := by simpa using past
      have unbroken : .other ∉ results := fun stuck => nonempty stuck empty
      refine ⟨⟨?_,fun wrong => by contradiction,fun wrong => by contradiction⟩,fdEof,fun _ => ?_⟩
      · rw [show (closeFromStack u).accepted = _ from accepted,show (closeFromStack u).received = _ from received]
        exact prefix_
      · rw [show (closeFromStack u).accepted = _ from accepted,show (closeFromStack u).received = _ from received,
          feeding.whole unbroken,nothingCarried (feeding.last eof),← whole,empty,List.append_nil,List.append_nil]
    · rename_i still
      have pcb : u.pcb = true := by rw [frame]; exact opened
      have buffer : u.backwardBuf = left := by rw [frame]
      refine ⟨⟨by rw [accepted,received]; exact prefix_,fun _ => ⟨fun unbroken => ?_,fun stuck => ?_,?_,?_,?_⟩,
        fun _ eof => ?_⟩,fdEof,fun shut => ?_⟩
      · rw [accepted,received,buffer,feeding.whole fun stuck => unbroken (List.mem_append_left _ stuck),← whole,frame]
        simp only [List.append_assoc]
      · rw [buffer]
        exact nonempty ((List.mem_append.mp stuck).resolve_right fresh)
      · rw [frame]; exact feeding.ordered
      · rw [frame]; exact feeding.past
      · rw [frame]; exact feeding.last
      · rw [fdEof] at eof
        rw [buffer]
        simpa [eof] using still
      · rw [pcb] at shut; contradiction

theorem shutTask {s t : State} {answers : List TcpWrite} {task : StackTask} (shut : s.pcb = false)
    (ok : runStackTask s answers task = some t) : t.accepted = s.accepted := by
  cases task with
  | writeToLwip data =>
    rw [runStackTask,writeToLwip,if_pos (by simp [shut])] at ok
    cases Option.some.inj ok; rfl
  | onFdEof =>
    rw [runStackTask,onFdEofFromStack,pumpToLwip,if_pos (by simp [shut])] at ok
    cases Option.some.inj ok
    simp only
    split <;> rfl
  | closeFromStack => cases Option.some.inj ok; rfl
  | ackRecved =>
    rw [runStackTask,ackRecvedToLwip,if_pos (by simp [shut])] at ok
    cases Option.some.inj ok; rfl

theorem taskLanding {s t : State} {results : List WriteResult} {answers : List TcpWrite} {task : StackTask}
    {rest : List StackTask} (landing : Landing s results) (queue : s.stackTasks = task::rest)
    (final : Final (results ++ tcpWrites s (.stackRan answers)))
    (ok : runStackTask {s with stackTasks := rest} answers task = some t) :
    Landing t (results ++ tcpWrites s (.stackRan answers)) ∧
    (ClosedByEof s t → t.accepted = t.received) := by
  rcases Bool.eq_false_or_eq_true s.pcb with opened | shut
  · have feeding := landing.feeding opened
    have ordered := feeding.ordered
    rw [queue,List.pairwise_cons] at ordered
    obtain ⟨first,behind⟩ := ordered
    have past (here : s.fdEof = true ∨ .onFdEof ∈ rest) : s.ended = true :=
      feeding.past (here.imp_right fun member => by rw [queue]; exact List.mem_cons_of_mem _ member)
    have last (eof : s.fdEof = true) (data : Bytes) : .writeToLwip data ∉ rest := fun member =>
      feeding.last eof data (by rw [queue]; exact List.mem_cons_of_mem _ member)
    simp only [tcpWrites,opened,if_true,queue] at final ⊢
    cases task with
    | writeToLwip data =>
      rw [runStackTask,writeToLwip,if_neg (by simp [opened])] at ok
      have appended : Feeding {s with stackTasks := rest, backwardBuf := s.backwardBuf ++ data} results := by
        refine ⟨fun unbroken => ?_,fun stuck => ?_,behind,past,last⟩
        · rw [feeding.whole unbroken,queue,List.flatMap_cons,List.append_assoc s.backwardBuf]; rfl
        · exact List.append_ne_nil_of_left_ne_nil (feeding.stuck stuck) data
      obtain ⟨landed,_,closed⟩ := pumpLanding appended landing.kept opened final ok
      exact ⟨landed,fun byEof => closed byEof.2.1⟩
    | onFdEof =>
      obtain ⟨u,pumped,same⟩ := Option.map_eq_some_iff.mp (show (pumpToLwip _ answers).map _ = some t from ok)
      have ended : s.ended = true := feeding.past (.inr (by rw [queue]; exact List.mem_cons_self ..))
      have unwritten (data : Bytes) : .writeToLwip data ∉ rest := fun member =>
        first _ member rfl data rfl
      have marked : Feeding {s with stackTasks := rest, fdEof := true} results := by
        refine ⟨fun unbroken => ?_,feeding.stuck,behind,fun _ => ended,fun _ => unwritten⟩
        rw [feeding.whole unbroken,queue]; rfl
      obtain ⟨landed,eof,closed⟩ := pumpLanding marked landing.kept opened final pumped
      subst same
      -- what is left open has bytes in the buffer, so that the second look closes nothing
      cases still : u.pcb with
      | true =>
        have full : u.backwardBuf.isEmpty = false := by simpa using landed.waiting still eof
        rw [full]
        exact ⟨landed,fun byEof => closed byEof.2.1⟩
      | false =>
        split
        · have after := closedLanding (t := closeFromStack u) [] landed rfl rfl rfl
          rw [List.append_nil] at after
          exact ⟨after,fun _ => closed still⟩
        · exact ⟨landed,fun _ => closed still⟩
    | closeFromStack =>
      cases Option.some.inj ok
      refine ⟨closedLanding [] landing rfl rfl rfl,fun byEof => ?_⟩
      exact absurd byEof.2.2.2 (landing.waiting opened byEof.2.2.1)
    | ackRecved =>
      rw [runStackTask,ackRecvedToLwip,if_neg (by simp [opened])] at ok
      cases Option.some.inj ok
      refine ⟨⟨landing.kept,fun _ => ⟨fun unbroken => ?_,fun stuck => ?_,behind,past,last⟩,landing.waiting⟩,
        fun byEof => ?_⟩
      · rw [List.append_nil] at unbroken
        rw [feeding.whole unbroken,queue]; rfl
      · rw [List.append_nil] at stuck
        exact feeding.stuck stuck
      · rw [show s.pcb = false from byEof.2.1] at opened; contradiction
  · have side := stackTaskSide ok
    have closed : t.pcb = false := by
      cases still : t.pcb with
      | false => rfl
      | true => rw [← side.pcb still]; exact shut
    exact ⟨closedLanding _ landing closed (shutTask (s := {s with stackTasks := rest}) shut ok) side.received,fun byEof => by
      rw [byEof.1] at shut; contradiction⟩

theorem acrossLanding {s t : State} {results : List WriteResult} (registered : Registered s) (landing : Landing s results)
    (across : Across s t) : Landing t results := by
  obtain ⟨more,queue,received,single,posted⟩ := across.stackTasks
  have kept : s.received <+: t.received := by rw [received]; exact List.prefix_append _ _
  refine ⟨?_,fun opened => ?_,?_⟩
  · rw [across.accepted]; exact landing.kept.trans kept
  · have feeding := landing.feeding (across.pcb ▸ opened)
    have unread (ended : s.ended = true) (data : Bytes) : .writeToLwip data ∉ more := fun member => by
      obtain ⟨writable,reading⟩ := (posted _ member).2 data rfl
      exact (registered.ended ended).unread writable reading
    refine ⟨fun unbroken => ?_,?_,?_,?_,?_⟩
    · rw [received,feeding.whole unbroken,across.accepted,across.backwardBuf,queue,List.flatMap_append]
      simp only [List.append_assoc]
    · rw [across.backwardBuf]; exact feeding.stuck
    · rw [queue]
      refine List.pairwise_append.mpr ⟨feeding.ordered,?_,fun a early b late eof data write => ?_⟩
      · match more,single with
        | [],_ => exact .nil
        | [_],_ => exact List.pairwise_singleton ..
      · exact unread (feeding.past (.inr (eof ▸ early))) data (write ▸ late)
    · rw [across.fdEof,queue,List.mem_append]
      rintro (eof | early | late)
      · exact across.ended (feeding.past (.inl eof))
      · exact across.ended (feeding.past (.inr early))
      · exact (posted _ late).1 rfl
    · rw [across.fdEof,queue]
      intro eof data member
      rcases List.mem_append.mp member with early | late
      · exact feeding.last eof data early
      · exact unread (feeding.past (.inl eof)) data late
  · rw [across.pcb,across.fdEof,across.backwardBuf]; exact landing.waiting

theorem landingStep {s t : State} {results : List WriteResult} {e : Event} (registered : Registered s)
    (landing : Landing s results) (final : Final (results ++ tcpWrites s e)) (stepped : step s e t) :
    Landing t (results ++ tcpWrites s e) ∧ (ClosedByEof s t → t.accepted = t.received) := by
  -- a pcb closed for another reason had something waiting if the fd was at its end
  have dropped {u : State} (fdEof : u.fdEof = s.fdEof) (backwardBuf : u.backwardBuf = s.backwardBuf) :
      ClosedByEof s u → u.accepted = u.received := fun ⟨opened,_,eof,empty⟩ =>
    absurd (backwardBuf ▸ empty) (landing.waiting opened (fdEof ▸ eof))
  have idle (same : tcpWrites s e = []) (landed : Landing t results) : Landing t (results ++ tcpWrites s e) := by
    rw [same,List.append_nil]; exact landed
  cases reactor : e.onReactor with
  | true =>
    have across := acrossStep reactor stepped
    refine ⟨idle ?_ (acrossLanding registered landing across),dropped across.fdEof across.backwardBuf⟩
    cases e <;> first | rfl | contradiction
  | false =>
    cases answeredOf reactor stepped with
    | recv =>
      refine ⟨idle rfl ⟨landing.kept,fun opened => ?_,landing.waiting⟩,dropped rfl rfl⟩
      have feeding := landing.feeding opened
      exact ⟨feeding.whole,feeding.stuck,feeding.ordered,feeding.past,feeding.last⟩
    | fin => exact ⟨closedLanding _ landing rfl rfl rfl,dropped rfl rfl⟩
    | sent opened pumped =>
      simp only [tcpWrites,opened,if_true] at final ⊢
      obtain ⟨landed,_,closed⟩ := pumpLanding (landing.feeding opened) landing.kept opened final pumped
      exact ⟨landed,fun byEof => closed byEof.2.1⟩
    | errLate | err | teardownLate | teardown => exact ⟨closedLanding _ landing rfl rfl rfl,dropped rfl rfl⟩
    | stackRan queue taken => exact taskLanding landing queue final taken

theorem towardsClient {events : List Event} {s : Traced} (run : Run traced Traced.start events s)
    (final : Final s.results) : s.session.accepted <+: s.session.received ∧
    ∀ e t, traced s e t → Final t.results → ClosedByEof s.session t.session → t.session.accepted = t.session.received := by
  have invariant : Registered s.session ∧ Landing s.session s.results := by
    induction run with
    | nil =>
      refine ⟨startRegistered,List.prefix_refl _,fun _ => ?_,fun _ wrong => by contradiction⟩
      exact ⟨fun _ => rfl,fun wrong => absurd wrong (List.not_mem_nil),.nil,by decide,fun wrong => by contradiction⟩
    | snoc before last ih =>
      obtain ⟨stepped,results⟩ := last
      rw [results] at final ⊢
      obtain ⟨registered,landing⟩ := ih final.front
      exact ⟨(registeredStep registered stepped).1,(landingStep registered landing final stepped).1⟩
  refine ⟨invariant.2.kept,fun e t ⟨stepped,results⟩ final byEof => ?_⟩
  rw [results] at final
  exact (landingStep invariant.1 invariant.2 final stepped).2 byEof

def trace (s : Traced) (e : Event) : Option Traced :=
  (handle s.session e).map fun t => ⟨t,s.results ++ tcpWrites s.session e⟩

/- Two of three bytes find room in lwIP before the landing side is done. -/
def halfRead : List Event :=
  [.ran [],.fdEvent .WRITE,.connected true,.flushed [],.fdEvent .READ,.read (.data [1,2,3]),.read .eof,
    .stackRan [⟨2,.ok⟩,⟨0,.ok⟩],.stackRan [⟨4,.mem⟩]]

theorem tailSent : ∃ s t, Run traced Traced.start halfRead s ∧ traced s (.sent [⟨4,.ok⟩]) t ∧
    s.session.accepted = [1,2] ∧ s.session.accepted <+: s.session.received ∧ ClosedByEof s.session t.session ∧
    t.session.accepted = t.session.received := by
  have sound (s e t) (taken : trace s e = some t) : traced s e t := by
    obtain ⟨u,stepped,same⟩ := Option.map_eq_some_iff.mp taken
    cases same
    exact ⟨stepped,rfl⟩
  obtain ⟨s,ok,accepted,results,t,last,shut,results'⟩ : ∃ s, execute trace Traced.start halfRead = some s ∧
      s.session.accepted = [1,2] ∧ s.results = [.ok,.mem] ∧ ∃ t, trace s (.sent [⟨4,.ok⟩]) = some t ∧
      ClosedByEof s.session t.session ∧ t.results = [.ok,.mem,.ok] :=
    ⟨_,rfl,by decide,by decide,_,rfl,by unfold ClosedByEof; decide,by decide⟩
  have run : Run traced Traced.start halfRead s := executeRun sound ok
  have moved : traced s (.sent [⟨4,.ok⟩]) t := sound s _ t last
  obtain ⟨kept,closed⟩ := towardsClient run (by rw [results]; unfold Final; decide)
  exact ⟨s,t,run,moved,accepted,kept,shut,closed _ t moved (by rw [results']; unfold Final; decide) shut⟩

end Candy.SessionTcp
