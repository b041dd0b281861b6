import Candy.Net

/-! A TCP connection that lwIP terminates, landed on a kernel socket. Two threads
share it: the NetStack thread makes every tcp call, the reactor thread every call
on the fd, and each posts tasks to the other. A step is a callback, a task, or a
turn of onFdReadable; what lwIP and the socket answer is part of the event. -/
namespace Candy.SessionTcp

def highWater : Nat := 256*1024
def lowWater : Nat := 64*1024

structure ReactorEvent where
  read : Bool
  write : Bool
  failure : Bool
  deriving DecidableEq, Repr

def ReactorEvent.NONE : ReactorEvent := ⟨false,false,false⟩
def ReactorEvent.READ : ReactorEvent := ⟨true,false,false⟩
def ReactorEvent.WRITE : ReactorEvent := ⟨false,true,false⟩

instance : OrOp ReactorEvent := ⟨fun a b => ⟨a.read || b.read,a.write || b.write,a.failure || b.failure⟩⟩

/- What is posted to the reactor. The lambda of updateReadInterest has captured
whether fd was valid; `drop` is the lambda of shutdownFromStack. -/
inductive Task where
  | add
  | flushForward
  | resumeRead (fd : Bool)
  | del
  | closeFromReactor
  | drop
  deriving DecidableEq, Repr

inductive StackTask where
  | writeToLwip (data : Bytes)
  | onFdEof
  | closeFromStack
  | ackRecved
  deriving DecidableEq, Repr

/- Where the reactor thread stands in onFdEvent. The flag says that WRITE was
reported too, so that onFdWritable follows. -/
inductive ReactorPc where
  | idle
  | connecting
  | reading (writable : Bool)
  | pausing (writable : Bool)
  | writing
  deriving DecidableEq, Repr

/- Behind the fields of the session: its entry in the reactor (ioWatchers), both
task queues, and what went in and out at either end. -/
structure State where
  pcb : Bool
  listed : Bool
  self : Bool
  fd : Bool
  connected : Bool
  wantWrite : Bool
  readPaused : Bool
  fdEof : Bool
  closing : Bool
  forwardBuf : Bytes
  backwardBuf : Bytes
  pendingRecved : Nat
  backwardBytes : Nat
  watcher : Option ReactorEvent
  tasks : List Task
  stackTasks : List StackTask
  pc : ReactorPc
  delivered : Bytes
  finned : Bool
  sent : Bytes
  received : Bytes
  accepted : Bytes
  recved : List Nat
  ended : Bool
  netCloses : Nat
  deriving DecidableEq, Repr

/- SessionTcp::start with the dial begun. -/
def State.start : State where
  pcb := true
  listed := true
  self := true
  fd := true
  connected := false
  wantWrite := false
  readPaused := false
  fdEof := false
  closing := false
  forwardBuf := []
  backwardBuf := []
  pendingRecved := 0
  backwardBytes := 0
  watcher := none
  tasks := [.add]
  stackTasks := []
  pc := .idle
  delivered := []
  finned := false
  sent := []
  received := []
  accepted := []
  recved := []
  ended := false
  netCloses := 0

/- size_t arithmetic of the two atomic counters. -/
def fetchAdd (a n : Nat) : Nat := (a + n) % 2^64
def fetchSub (a n : Nat) : Nat := (a + (2^64 - n % 2^64)) % 2^64

/- Reactor::mod on the reactor thread, and with this->fd for its argument. -/
def applyMod (s : State) (events : ReactorEvent) : State :=
  {s with watcher := s.watcher.map fun iw => if iw = events then iw else events}

def mod (s : State) (events : ReactorEvent) : State := if s.fd then applyMod s events else s

/- onErr calls this on the NetStack thread, where del is only posted. -/
def closeFromReactor (onLoopThread : Bool) (s : State) : State :=
  if s.closing then s else
    let s := {s with closing := true}
    let s := if s.fd then
        let s := if onLoopThread then {s with watcher := none} else {s with tasks := s.tasks ++ [.del]}
        {s with fd := false, netCloses := s.netCloses + 1}
      else s
    let s := if s.pcb then {s with stackTasks := s.stackTasks ++ [.closeFromStack]} else s
    {s with self := false}

def closeFromStack (s : State) : State :=
  {s with pcb := false, listed := s.listed && !s.pcb, tasks := s.tasks ++ [.closeFromReactor]}

/- One turn of the loop in pumpToLwip: tcp_sndbuf, then tcp_write unless it is 0. -/
inductive WriteResult where
  | ok
  | mem
  | other
  deriving DecidableEq, Repr

structure TcpWrite where
  space : BitVec 16
  result : WriteResult
  deriving DecidableEq, Repr

/- What lwIP took, what is left, and whether tcp_write failed for good. No result
if the answers do not last for the loop. -/
def pumpLoop : Bytes → List TcpWrite → Option (Bytes × Bytes × Bool)
  | [],_ => some ([],[],false)
  | _::_,[] => none
  | buf@(_::_),a::rest =>
    if a.space = 0 then some ([],buf,false) else match a.result with
      | .mem => some ([],buf,false)
      | .other => some ([],buf,true)
      | .ok =>
        let chunk := min a.space.toNat buf.length
        (pumpLoop (buf.drop chunk) rest).map fun (written,left,failed) => (buf.take chunk ++ written,left,failed)

def updateReadInterest (s : State) : State :=
  if s.readPaused && decide (s.backwardBytes ≤ lowWater) then
    {s with readPaused := false, tasks := s.tasks ++ [.resumeRead s.fd]} else s

/- A failed tcp_write leaves the buffer as it was, written bytes included. -/
def afterPump (s : State) (written left : Bytes) (failed : Bool) : State :=
  let s := {s with accepted := s.accepted ++ written}
  if failed then s else
    let s := {s with
      backwardBuf := left
      backwardBytes := if written.isEmpty then s.backwardBytes else fetchSub s.backwardBytes written.length}
    let s := updateReadInterest s
    if s.fdEof && s.backwardBuf.isEmpty then closeFromStack s else s

def pumpToLwip (s : State) (answers : List TcpWrite) : Option State :=
  if !s.pcb then some s else
    (pumpLoop s.backwardBuf answers).map fun (written,left,failed) => afterPump s written left failed

def writeToLwip (s : State) (data : Bytes) (answers : List TcpWrite) : Option State :=
  if !s.pcb then some s else pumpToLwip {s with backwardBuf := s.backwardBuf ++ data} answers

def onFdEofFromStack (s : State) (answers : List TcpWrite) : Option State :=
  (pumpToLwip {s with fdEof := true} answers).map fun s => if s.backwardBuf.isEmpty then closeFromStack s else s

/- The arguments of tcp_recved. -/
def ackChunks (acked : Nat) : List Nat :=
  if acked = 0 then [] else min acked 0xffff::ackChunks (acked - min acked 0xffff)
  termination_by acked

def ackRecvedToLwip (s : State) : State :=
  if !s.pcb then s else {s with pendingRecved := 0, recved := s.recved ++ ackChunks s.pendingRecved}

def onRecv (s : State) (data : Bytes) : State :=
  {s with
    forwardBuf := s.forwardBuf ++ data
    delivered := s.delivered ++ data
    tasks := s.tasks ++ [.flushForward]}

def onErr (s : State) : State :=
  closeFromReactor false {s with pcb := false, listed := s.listed && !s.pcb}

def shutdownFromStack (s : State) : State :=
  let s := {s with pcb := false}
  if s.closing then s else {s with closing := true, tasks := s.tasks ++ [.drop]}

/- netSend: a count, would-block, or any other error. A count of 0 is handled as an error. -/
inductive Send where
  | wrote (n : Nat)
  | wouldBlock
  | failed
  deriving DecidableEq, Repr

inductive FlushEnd where
  | drained
  | blocked
  | failed
  deriving DecidableEq, Repr

def flushLoop : Bytes → List Send → Option (Bytes × Bytes × FlushEnd)
  | [],_ => some ([],[],.drained)
  | _::_,[] => none
  | buf@(_::_),.wrote n::rest =>
    if n = 0 then some ([],buf,.failed)
    else if buf.length < n then none
    else (flushLoop (buf.drop n) rest).map fun (written,left,how) => (buf.take n ++ written,left,how)
  | buf@(_::_),.wouldBlock::_ => some ([],buf,.blocked)
  | buf@(_::_),.failed::_ => some ([],buf,.failed)

/- The bytes written are confirmed to lwIP later, on its thread; after an error they are not. -/
def acknowledge (s : State) (acked : Nat) : State :=
  if acked = 0 then s else
    {s with pendingRecved := fetchAdd s.pendingRecved acked, stackTasks := s.stackTasks ++ [.ackRecved]}

def afterFlush (s : State) (written left : Bytes) (how : FlushEnd) : State :=
  let s := {s with forwardBuf := left, sent := s.sent ++ written}
  match how with
  | .failed => closeFromReactor true s
  | .blocked => acknowledge (mod {s with wantWrite := true} (.READ ||| .WRITE)) written.length
  | .drained => acknowledge (if s.wantWrite then mod {s with wantWrite := false} .READ else s) written.length

def flushForwardLocked (s : State) (sends : List Send) : Option State :=
  if !s.fd || !s.connected then some s else
    (flushLoop s.forwardBuf sends).map fun (written,left,how) => afterFlush s written left how

/- netRecv: 1 to 65536 bytes, end of stream, would-block, or any other error. -/
inductive Recv where
  | data (bytes : Bytes)
  | eof
  | wouldBlock
  | failed
  deriving DecidableEq, Repr

/- onFdEvent goes on with onFdWritable, or is over. -/
def afterReading (writable : Bool) : ReactorPc := if writable then .writing else .idle

/- A turn of onFdReadable. Over the high water mark it does not read but is about
to pause: the load of backwardBytes is a step of its own. -/
def onFdReadable (s : State) (writable : Bool) (answer : Recv) : Option State :=
  if highWater ≤ s.backwardBytes then some {s with pc := .pausing writable} else match answer with
    | .data bytes => if s.fd = true ∧ 0 < bytes.length ∧ bytes.length ≤ 65536 then
        some {s with
          backwardBytes := fetchAdd s.backwardBytes bytes.length
          received := s.received ++ bytes
          stackTasks := s.stackTasks ++ [.writeToLwip bytes]} else none
    | .eof => if s.fd then
        some {s with
          stackTasks := s.stackTasks ++ [.onFdEof]
          watcher := none
          ended := true
          pc := afterReading writable} else none
    | .wouldBlock => if s.fd then some {s with pc := afterReading writable} else none
    | .failed => some (closeFromReactor true {s with pc := afterReading writable})

def pauseRead (s : State) (writable : Bool) : State :=
  mod {s with readPaused := true, pc := afterReading writable} .NONE

/- FAILURE counts only while the connect is pending; later it is read like READ. -/
def onFdEvent (s : State) (events : ReactorEvent) : State :=
  if !s.connected then
    if events.failure then closeFromReactor true s
    else if events.write then {s with pc := .connecting} else s
  else if events.read || events.failure then {s with pc := .reading events.write}
  else if events.write then {s with pc := .writing} else s

/- With getsockopt's verdict; the flush that follows is the step of `writing`. -/
def onConnected (s : State) (ok : Bool) : State :=
  if ok then mod {s with connected := true, pc := .writing} .READ
  else closeFromReactor true {s with pc := .idle}

def runTask (s : State) (sends : List Send) : Task → Option State
  | .add => some {s with watcher := some .WRITE}
  | .flushForward => flushForwardLocked s sends
  | .resumeRead fd => some (if fd && !s.closing then applyMod s .READ else s)
  | .del => some {s with watcher := none}
  | .closeFromReactor => some (closeFromReactor true s)
  | .drop =>
    let s := if s.fd then {s with watcher := none, fd := false, netCloses := s.netCloses + 1} else s
    some {s with self := false}

def runStackTask (s : State) (answers : List TcpWrite) : StackTask → Option State
  | .writeToLwip data => writeToLwip s data answers
  | .onFdEof => onFdEofFromStack s answers
  | .closeFromStack => some (closeFromStack s)
  | .ackRecved => some (ackRecvedToLwip s)

/- lwIP calls back while the pcb is open. Poll reports an fd it watches, perhaps
with more than was asked for. -/
inductive Event where
  | recv (data : Bytes)
  | fin
  | sent (answers : List TcpWrite)
  | err
  | teardown
  | stackRan (answers : List TcpWrite)
  | fdEvent (events : ReactorEvent)
  | connected (ok : Bool)
  | read (answer : Recv)
  | paused
  | flushed (sends : List Send)
  | ran (sends : List Send)
  deriving DecidableEq, Repr

def handle (s : State) : Event → Option State
  | .recv data => if s.pcb then some (onRecv s data) else none
  | .fin => if s.pcb then some (closeFromStack {s with finned := true}) else none
  | .sent answers => if s.pcb then pumpToLwip s answers else none
  | .err => if s.pcb then some (onErr s) else none
  | .teardown => if s.listed then some (shutdownFromStack {s with listed := false}) else none
  | .stackRan answers => match s.stackTasks with
    | task::rest => runStackTask {s with stackTasks := rest} answers task
    | [] => none
  | .fdEvent events => if s.pc = .idle ∧ s.watcher.isSome then some (onFdEvent s events) else none
  | .connected ok => if s.pc = .connecting ∧ (ok = true → s.fd = true) then some (onConnected s ok) else none
  | .read answer => match s.pc with
    | .reading writable => onFdReadable s writable answer
    | _ => none
  | .paused => match s.pc with
    | .pausing writable => some (pauseRead s writable)
    | _ => none
  | .flushed sends => if s.pc = .writing then flushForwardLocked {s with pc := .idle} sends else none
  | .ran sends => match s.pc,s.tasks with
    | .idle,task::rest => runTask {s with tasks := rest} sends task
    | _,_ => none

def step (s : State) (e : Event) (t : State) : Prop := handle s e = some t

def Event.onReactor : Event → Bool
  | .fdEvent _ | .connected _ | .read _ | .paused | .flushed _ | .ran _ => true
  | .recv _ | .fin | .sent _ | .err | .teardown | .stackRan _ => false

def taken : Event → Nat
  | .ran _ => 1
  | _ => 0

inductive Stepped (s : State) : Event → State → Prop
  | recv {data : Bytes} (opened : s.pcb = true) : Stepped s (.recv data) (onRecv s data)
  | fin (opened : s.pcb = true) : Stepped s .fin (closeFromStack {s with finned := true})
  | sent {answers : List TcpWrite} {t : State} (opened : s.pcb = true) (pumped : pumpToLwip s answers = some t) :
      Stepped s (.sent answers) t
  | err (opened : s.pcb = true) : Stepped s .err (onErr s)
  | teardown (listed : s.listed = true) : Stepped s .teardown (shutdownFromStack {s with listed := false})
  | stackRan {answers : List TcpWrite} {task : StackTask} {rest : List StackTask} {t : State}
      (queue : s.stackTasks = task::rest) (taken : runStackTask {s with stackTasks := rest} answers task = some t) :
      Stepped s (.stackRan answers) t
  | fdEvent {events : ReactorEvent} (idle : s.pc = .idle) (watched : s.watcher.isSome) :
      Stepped s (.fdEvent events) (onFdEvent s events)
  | connected {ok : Bool} (dialing : s.pc = .connecting) (opened : ok = true → s.fd = true) :
      Stepped s (.connected ok) (onConnected s ok)
  | read {answer : Recv} {writable : Bool} {t : State} (here : s.pc = .reading writable)
      (answered : onFdReadable s writable answer = some t) : Stepped s (.read answer) t
  | paused {writable : Bool} (here : s.pc = .pausing writable) : Stepped s .paused (pauseRead s writable)
  | flushed {sends : List Send} {t : State} (here : s.pc = .writing)
      (flushed : flushForwardLocked {s with pc := .idle} sends = some t) : Stepped s (.flushed sends) t
  | ran {sends : List Send} {task : Task} {rest : List Task} {t : State} (idle : s.pc = .idle) (queue : s.tasks = task::rest)
      (taken : runTask {s with tasks := rest} sends task = some t) : Stepped s (.ran sends) t

theorem stepCases {s t : State} {e : Event} (ok : step s e t) : Stepped s e t := by
  unfold step at ok
  cases e with
  | recv data | fin | err | teardown =>
    simp only [handle] at ok
    split at ok <;> try contradiction
    rename_i able
    cases Option.some.inj ok
    constructor
    exact able
  | sent answers =>
    simp only [handle] at ok
    split at ok <;> try contradiction
    rename_i opened
    exact .sent opened ok
  | stackRan answers =>
    simp only [handle] at ok
    split at ok <;> try contradiction
    rename_i queue
    exact .stackRan queue ok
  | fdEvent events =>
    simp only [handle] at ok
    split at ok <;> try contradiction
    rename_i ready
    cases Option.some.inj ok
    exact .fdEvent ready.1 ready.2
  | connected done =>
    simp only [handle] at ok
    split at ok <;> try contradiction
    rename_i ready
    cases Option.some.inj ok
    exact .connected ready.1 ready.2
  | read answer =>
    simp only [handle] at ok
    split at ok <;> try contradiction
    rename_i here
    exact .read here ok
  | paused =>
    simp only [handle] at ok
    split at ok <;> try contradiction
    rename_i here
    cases Option.some.inj ok
    exact .paused here
  | flushed sends =>
    simp only [handle] at ok
    split at ok <;> try contradiction
    rename_i here
    exact .flushed here ok
  | ran sends =>
    simp only [handle] at ok
    split at ok <;> try contradiction
    rename_i idle queue
    exact .ran idle queue ok

theorem applyModEq (s : State) (events : ReactorEvent) :
    applyMod s events = {s with watcher := s.watcher.map fun _ => events} := by
  have overwritten : (fun iw : ReactorEvent => if iw = events then iw else events) = fun _ => events := by
    funext iw
    split
    · assumption
    · rfl
  rw [applyMod,overwritten]

theorem modEq (s : State) (events : ReactorEvent) :
    mod s events = {s with watcher := if s.fd then s.watcher.map (fun _ => events) else s.watcher} := by
  unfold mod
  split
  · exact applyModEq s events
  · rfl

theorem modOpen {s : State} {events : ReactorEvent} (opened : s.fd = true) :
    mod s events = {s with watcher := s.watcher.map fun _ => events} := by
  rw [modEq,if_pos opened]

theorem keptPresent (s : State) (events : ReactorEvent) :
    (if s.fd then s.watcher.map (fun _ => events) else s.watcher).isSome = s.watcher.isSome := by
  split
  · exact Option.isSome_map
  · rfl

theorem acknowledgeEq (s : State) (acked : Nat) : acknowledge s acked = {s with
    pendingRecved := if acked = 0 then s.pendingRecved else fetchAdd s.pendingRecved acked
    stackTasks := s.stackTasks ++ if acked = 0 then [] else [.ackRecved]} := by
  unfold acknowledge
  split
  · rw [List.append_nil]
  · rfl

theorem closedEq {s : State} (b : Bool) (closing : s.closing = true) : closeFromReactor b s = s := if_pos closing

theorem closeEq {s : State} (b : Bool) (opened : s.closing = false) : closeFromReactor b s = {s with
    closing := true
    fd := false
    self := false
    tasks := s.tasks ++ (if s.fd && !b then [.del] else [])
    watcher := if s.fd && b then none else s.watcher
    netCloses := if s.fd then s.netCloses + 1 else s.netCloses
    stackTasks := if s.pcb then s.stackTasks ++ [.closeFromStack] else s.stackTasks} := by
  simp only [closeFromReactor,opened,Bool.false_eq_true,if_false]
  by_cases fd : s.fd = true <;> by_cases pcb : s.pcb = true <;> cases b <;> simp [fd,pcb]

theorem flushLoopSpec {buf written left : Bytes} {sends : List Send} {how : FlushEnd}
    (ok : flushLoop buf sends = some (written,left,how)) :
    written ++ left = buf ∧ (how = .drained → left = []) ∧ (how = .blocked → left ≠ []) := by
  induction sends generalizing buf written left with
  | nil =>
    cases buf with
    | nil => cases Option.some.inj ok; simp
    | cons _ _ => contradiction
  | cons send rest ih =>
    cases buf with
    | nil => cases Option.some.inj ok; simp
    | cons b bs =>
      cases send with
      | wrote n =>
        simp only [flushLoop] at ok
        split at ok
        · cases Option.some.inj ok; simp
        · split at ok <;> try contradiction
          obtain ⟨⟨w,l,h⟩,tail,same⟩ := Option.map_eq_some_iff.mp ok
          cases same
          obtain ⟨whole,drained,blocked⟩ := ih tail
          refine ⟨?_,drained,blocked⟩
          rw [List.append_assoc,whole,List.take_append_drop]
      | wouldBlock => cases Option.some.inj ok; simp
      | failed => cases Option.some.inj ok; simp

theorem flushCases {s t : State} {sends : List Send} (ok : flushForwardLocked s sends = some t) :
    (t = s ∧ (s.fd = false ∨ s.connected = false)) ∨
    (s.fd = true ∧ s.connected = true ∧ ∃ written left how,
      flushLoop s.forwardBuf sends = some (written,left,how) ∧ t = afterFlush s written left how) := by
  unfold flushForwardLocked at ok
  split at ok
  · rename_i void
    exact .inl ⟨(Option.some.inj ok).symm,by simpa using void⟩
  · rename_i able
    obtain ⟨⟨written,left,how⟩,loop,same⟩ := Option.map_eq_some_iff.mp ok
    obtain ⟨fd,connected⟩ : s.fd = true ∧ s.connected = true := by simpa using able
    exact .inr ⟨fd,connected,written,left,how,loop,same.symm⟩

/- Where a flush comes from: onFdWritable, or the task that onRecv posts. -/
inductive Flushing (s : State) : Event → List Send → List Task → Prop
  | writable {sends : List Send} (here : s.pc = .writing) : Flushing s (.flushed sends) sends s.tasks
  | task {sends : List Send} {rest : List Task} (idle : s.pc = .idle) (queue : s.tasks = .flushForward::rest) :
      Flushing s (.ran sends) sends rest

/- Why the reactor thread closes the session, what a flush had written by then and what was left. -/
inductive Closes (s : State) : Event → ReactorPc → List Task → Bytes → Bytes → Prop
  | failure {events : ReactorEvent} (idle : s.pc = .idle) (watched : s.watcher.isSome) (fresh : s.connected = false)
      (failed : events.failure = true) : Closes s (.fdEvent events) .idle s.tasks [] s.forwardBuf
  | refused (dialing : s.pc = .connecting) : Closes s (.connected false) .idle s.tasks [] s.forwardBuf
  | unread {writable : Bool} (here : s.pc = .reading writable) :
      Closes s (.read .failed) (afterReading writable) s.tasks [] s.forwardBuf
  | unwritten {e : Event} {sends : List Send} {tasks : List Task} {written left : Bytes} (flushing : Flushing s e sends tasks)
      (opened : s.fd = true) (loop : flushLoop s.forwardBuf sends = some (written,left,.failed)) : Closes s e .idle tasks written left
  | task {sends : List Send} {rest : List Task} (idle : s.pc = .idle) (queue : s.tasks = .closeFromReactor::rest) :
      Closes s (.ran sends) .idle rest [] s.forwardBuf

inductive Turns (s : State) : Event → ReactorPc → Prop
  | reported {events : ReactorEvent} {pc : ReactorPc} (idle : s.pc = .idle) (watched : s.watcher.isSome)
      (dialing : pc = .connecting → s.connected = false) : Turns s (.fdEvent events) pc
  | full {answer : Recv} {writable : Bool} (here : s.pc = .reading writable) : Turns s (.read answer) (.pausing writable)
  | wouldBlock {writable : Bool} (here : s.pc = .reading writable) : Turns s (.read .wouldBlock) (afterReading writable)

/- What a step of the reactor thread comes to. -/
inductive Reacted (s : State) : Event → State → Prop
  | turned {e : Event} {pc : ReactorPc} (turns : Turns s e pc) : Reacted s e {s with pc := pc}
  | connected (dialing : s.pc = .connecting) (opened : s.fd = true) : Reacted s (.connected true) {s with
      connected := true, pc := .writing, watcher := s.watcher.map fun _ => .READ}
  | data {bytes : Bytes} {writable : Bool} (here : s.pc = .reading writable) (below : s.backwardBytes < highWater)
      (opened : s.fd = true) (short : bytes.length ≤ 65536) : Reacted s (.read (.data bytes)) {s with
        backwardBytes := fetchAdd s.backwardBytes bytes.length
        received := s.received ++ bytes
        stackTasks := s.stackTasks ++ [.writeToLwip bytes]}
  | eof {writable : Bool} (here : s.pc = .reading writable) : Reacted s (.read .eof) {s with
      stackTasks := s.stackTasks ++ [.onFdEof], watcher := none, ended := true, pc := afterReading writable}
  | paused {writable : Bool} (here : s.pc = .pausing writable) : Reacted s .paused {s with
      readPaused := true, pc := afterReading writable, watcher := if s.fd then s.watcher.map fun _ => .NONE else s.watcher}
  | void {e : Event} {sends : List Send} {tasks : List Task} (flushing : Flushing s e sends tasks)
      (unable : s.fd = false ∨ s.connected = false) : Reacted s e {s with pc := .idle, tasks := tasks}
  | blocked {e : Event} {sends : List Send} {tasks : List Task} {written left : Bytes} (flushing : Flushing s e sends tasks)
      (opened : s.fd = true) (ready : s.connected = true) (loop : flushLoop s.forwardBuf sends = some (written,left,.blocked)) :
      Reacted s e {s with
        pc := .idle, tasks := tasks, forwardBuf := left, sent := s.sent ++ written, wantWrite := true
        watcher := s.watcher.map fun _ => .READ ||| .WRITE
        pendingRecved := if written.length = 0 then s.pendingRecved else fetchAdd s.pendingRecved written.length
        stackTasks := s.stackTasks ++ if written.length = 0 then [] else [.ackRecved]}
  | drained {e : Event} {sends : List Send} {tasks : List Task} {written left : Bytes} (flushing : Flushing s e sends tasks)
      (opened : s.fd = true) (ready : s.connected = true) (loop : flushLoop s.forwardBuf sends = some (written,left,.drained)) :
      Reacted s e {s with
        pc := .idle, tasks := tasks, forwardBuf := left, sent := s.sent ++ written, wantWrite := false
        watcher := if s.wantWrite then s.watcher.map fun _ => .READ else s.watcher
        pendingRecved := if written.length = 0 then s.pendingRecved else fetchAdd s.pendingRecved written.length
        stackTasks := s.stackTasks ++ if written.length = 0 then [] else [.ackRecved]}
  | add {sends : List Send} {rest : List Task} (idle : s.pc = .idle) (queue : s.tasks = .add::rest) : Reacted s (.ran sends) {s with
      tasks := rest, watcher := some .WRITE}
  | resumed {sends : List Send} {rest : List Task} (idle : s.pc = .idle) (queue : s.tasks = .resumeRead true::rest)
      (still : s.closing = false) : Reacted s (.ran sends) {s with tasks := rest, watcher := s.watcher.map fun _ => .READ}
  | kept {sends : List Send} {rest : List Task} {fd : Bool} (idle : s.pc = .idle) (queue : s.tasks = .resumeRead fd::rest) :
      Reacted s (.ran sends) {s with tasks := rest}
  | del {sends : List Send} {rest : List Task} (idle : s.pc = .idle) (queue : s.tasks = .del::rest) : Reacted s (.ran sends) {s with
      tasks := rest, watcher := none}
  | drop {sends : List Send} {rest : List Task} (idle : s.pc = .idle) (queue : s.tasks = .drop::rest) : Reacted s (.ran sends) {s with
      tasks := rest, self := false, fd := false
      watcher := if s.fd then none else s.watcher
      netCloses := if s.fd then s.netCloses + 1 else s.netCloses}
  | late {e : Event} {pc : ReactorPc} {tasks : List Task} {written left : Bytes} (closes : Closes s e pc tasks written left)
      (closing : s.closing = true) : Reacted s e {s with pc := pc, tasks := tasks, forwardBuf := left, sent := s.sent ++ written}
  | closed {e : Event} {pc : ReactorPc} {tasks : List Task} {written left : Bytes} (closes : Closes s e pc tasks written left)
      (opened : s.closing = false) : Reacted s e {s with
        pc := pc, tasks := tasks, forwardBuf := left, sent := s.sent ++ written, closing := true, fd := false, self := false
        watcher := if s.fd then none else s.watcher
        netCloses := if s.fd then s.netCloses + 1 else s.netCloses
        stackTasks := if s.pcb then s.stackTasks ++ [.closeFromStack] else s.stackTasks}

section
variable {s t : State} {e : Event} {pc : ReactorPc} {tasks : List Task} {written left : Bytes}

theorem closeReacted (closes : Closes s e pc tasks written left) :
    Reacted s e (closeFromReactor true {s with pc := pc, tasks := tasks, forwardBuf := left, sent := s.sent ++ written}) := by
  rcases Bool.eq_false_or_eq_true s.closing with closing | opened
  · rw [closedEq true (by exact closing)]
    exact .late closes closing
  · have closed := Reacted.closed closes opened
    rw [closeEq true (by exact opened)]
    simpa using closed

theorem plainReacted (closes : Closes s e pc tasks [] s.forwardBuf) : Reacted s e (closeFromReactor true {s with pc := pc, tasks := tasks}) := by
  have reacted := closeReacted closes
  rwa [List.append_nil] at reacted

theorem flushReacted {sends : List Send} (flushing : Flushing s e sends tasks)
    (ok : flushForwardLocked {s with pc := .idle, tasks := tasks} sends = some t) : Reacted s e t := by
  rcases flushCases ok with ⟨same,unable⟩ | ⟨opened,ready,written,left,how,loop,same⟩
  · rw [same]
    exact .void flushing unable
  · subst same
    cases how with
    | failed => exact closeReacted (.unwritten flushing opened loop)
    | blocked =>
      simp only [afterFlush]
      rw [modOpen (by exact opened),acknowledgeEq]
      exact .blocked flushing opened ready loop
    | drained =>
      have drained := Reacted.drained flushing opened ready loop
      simp only [afterFlush]
      by_cases want : s.wantWrite = true
      · rw [if_pos want] at drained
        rw [if_pos want,modOpen (by exact opened),acknowledgeEq]
        exact drained
      · rw [if_neg want,← Bool.eq_false_iff.mpr want] at drained
        rw [if_neg want,acknowledgeEq]
        exact drained

theorem eventReacted {events : ReactorEvent} (idle : s.pc = .idle) (watched : s.watcher.isSome) :
    Reacted s (.fdEvent events) (onFdEvent s events) := by
  have ignored : Reacted s (.fdEvent events) s := by
    have turned := Reacted.turned (@Turns.reported s events s.pc idle watched fun at_ => by rw [idle] at at_; cases at_)
    exact turned
  unfold onFdEvent
  split
  · rename_i fresh
    have fresh : s.connected = false := by simpa using fresh
    split
    · rename_i failed
      have closed := plainReacted (.failure idle watched fresh failed)
      rwa [← idle] at closed
    · split
      · exact .turned (.reported idle watched fun _ => fresh)
      · exact ignored
  · split
    · exact .turned (.reported idle watched nofun)
    · split
      · exact .turned (.reported idle watched nofun)
      · exact ignored

theorem readReacted {writable : Bool} {answer : Recv} (here : s.pc = .reading writable)
    (ok : onFdReadable s writable answer = some t) : Reacted s (.read answer) t := by
  unfold onFdReadable at ok
  split at ok
  · cases Option.some.inj ok
    exact .turned (.full here)
  · rename_i below
    cases answer with
    | data bytes =>
      simp only at ok
      split at ok <;> try contradiction
      rename_i able
      cases Option.some.inj ok
      exact .data here (Nat.lt_of_not_le below) able.1 able.2.2
    | eof =>
      simp only at ok
      split at ok <;> try contradiction
      cases Option.some.inj ok
      exact .eof here
    | wouldBlock =>
      simp only at ok
      split at ok <;> try contradiction
      cases Option.some.inj ok
      exact .turned (.wouldBlock here)
    | failed =>
      cases Option.some.inj ok
      exact plainReacted (.unread here)

theorem taskReacted {task : Task} {rest : List Task} {sends : List Send} (idle : s.pc = .idle) (queue : s.tasks = task::rest)
    (ok : runTask {s with tasks := rest} sends task = some t) : Reacted s (.ran sends) t := by
  have popped : {s with tasks := rest} = {s with pc := .idle, tasks := rest} := by rw [← idle]
  cases task with
  | add => cases Option.some.inj ok; exact .add idle queue
  | flushForward =>
    rw [popped] at ok
    exact flushReacted (.task idle queue) ok
  | resumeRead fd =>
    cases Option.some.inj ok
    split
    · rename_i able
      obtain ⟨captured,still⟩ : fd = true ∧ s.closing = false := by simpa using able
      subst captured
      rw [applyModEq]
      exact .resumed idle queue still
    · exact .kept idle queue
  | del => cases Option.some.inj ok; exact .del idle queue
  | closeFromReactor =>
    cases Option.some.inj ok
    rw [popped]
    exact plainReacted (.task idle queue)
  | drop =>
    cases Option.some.inj ok
    have drops := @Reacted.drop s sends rest idle queue
    by_cases opened : s.fd = true
    · rw [if_pos opened,if_pos opened] at drops
      rwa [if_pos (by exact opened)]
    · have shut : s = {s with fd := false} := by rw [← Bool.eq_false_iff.mpr opened]
      have same := congrArg (fun u : State => {u with tasks := rest, self := false}) shut
      rw [if_neg opened,if_neg opened] at drops
      rw [if_neg (by exact opened)]
      exact same ▸ drops

theorem reactedOf (reactor : e.onReactor = true) (stepped : step s e t) : Reacted s e t := by
  cases stepCases stepped with
  | recv | fin | sent | err | teardown | stackRan => contradiction
  | fdEvent idle watched => exact eventReacted idle watched
  | @connected ok dialing opened =>
    cases ok with
    | true =>
      rw [onConnected,if_pos rfl,modEq,if_pos (by exact opened rfl)]
      exact .connected dialing (opened rfl)
    | false => exact plainReacted (.refused dialing)
  | read here answered => exact readReacted here answered
  | paused here =>
    rw [pauseRead,modEq]
    exact .paused here
  | flushed here flushed => exact flushReacted (.writable here) flushed
  | ran idle queue taken => exact taskReacted idle queue taken

def Resting (pc : ReactorPc) : Prop := pc ≠ .connecting ∧ ∀ writable, pc ≠ .reading writable

theorem afterReadingRests (writable : Bool) : Resting (afterReading writable) := by
  cases writable
  · exact ⟨nofun,nofun⟩
  · exact ⟨nofun,nofun⟩

theorem Flushing.queue {sends : List Send} (flushing : Flushing s e sends tasks) : tasks = s.tasks.drop (taken e) := by
  cases flushing with
  | writable => rfl
  | task _ queue => rw [queue]; rfl

theorem Closes.queue (closes : Closes s e pc tasks written left) : tasks = s.tasks.drop (taken e) := by
  cases closes with
  | failure | refused | unread => rfl
  | unwritten flushing => exact flushing.queue
  | task _ queue => rw [queue]; rfl

theorem Closes.rests (closes : Closes s e pc tasks written left) : Resting pc := by
  cases closes with
  | failure | refused | unwritten | task => exact ⟨nofun,nofun⟩
  | unread => exact afterReadingRests _

theorem Closes.whole (closes : Closes s e pc tasks written left) : written ++ left = s.forwardBuf := by
  cases closes with
  | failure | refused | unread | task => rfl
  | unwritten _ _ loop => exact (flushLoopSpec loop).1

theorem memBehind {task head : Task} {rest : List Task} (queue : s.tasks = head::rest) (other : task ≠ head)
    (there : task ∈ s.tasks) : task ∈ rest := by
  rw [queue] at there
  exact (List.mem_cons.mp there).resolve_left other

theorem Flushing.others {task : Task} {sends : List Send} (flushing : Flushing s e sends tasks) (other : task ≠ .flushForward)
    (there : task ∈ s.tasks) : task ∈ tasks := by
  cases flushing with
  | writable => exact there
  | task _ queue => exact memBehind queue other there

theorem Closes.others {task : Task} (closes : Closes s e pc tasks written left) (unflushed : task ≠ .flushForward)
    (other : task ≠ .closeFromReactor) (there : task ∈ s.tasks) : task ∈ tasks := by
  cases closes with
  | failure | refused | unread => exact there
  | unwritten flushing => exact flushing.others unflushed there
  | task _ queue => exact memBehind queue other there

theorem Closes.wrote (closes : Closes s e pc tasks written left) (some_ : written ≠ []) : s.fd = true := by
  cases closes with
  | failure | refused | unread | task => exact absurd rfl some_
  | unwritten _ opened => exact opened

theorem reactorTasks (reactor : e.onReactor = true) (stepped : step s e t) : t.tasks = s.tasks.drop (taken e) := by
  cases reactedOf reactor stepped with
  | turned turns => cases turns <;> rfl
  | connected | data | eof | paused => rfl
  | void flushing | blocked flushing | drained flushing => exact flushing.queue
  | add _ queue | resumed _ queue | kept _ queue | del _ queue | drop _ queue => rw [queue]; rfl
  | late closes | closed closes => exact closes.queue

end

/- And a step of the NetStack thread. -/
inductive Answered (s : State) : Event → State → Prop
  | recv {data : Bytes} (opened : s.pcb = true) : Answered s (.recv data) (onRecv s data)
  | fin (opened : s.pcb = true) : Answered s .fin (closeFromStack {s with finned := true})
  | sent {answers : List TcpWrite} {t : State} (opened : s.pcb = true) (pumped : pumpToLwip s answers = some t) :
      Answered s (.sent answers) t
  | stackRan {answers : List TcpWrite} {task : StackTask} {rest : List StackTask} {t : State}
      (queue : s.stackTasks = task::rest) (taken : runStackTask {s with stackTasks := rest} answers task = some t) :
      Answered s (.stackRan answers) t
  | errLate (closing : s.closing = true) : Answered s .err {s with pcb := false, listed := s.listed && !s.pcb}
  | err (opened : s.closing = false) : Answered s .err {s with
      pcb := false, listed := s.listed && !s.pcb, closing := true, fd := false, self := false
      tasks := s.tasks ++ if s.fd then [.del] else []
      netCloses := if s.fd then s.netCloses + 1 else s.netCloses}
  | teardownLate (closing : s.closing = true) : Answered s .teardown {s with pcb := false, listed := false}
  | teardown (opened : s.closing = false) : Answered s .teardown {s with
      pcb := false, listed := false, closing := true, tasks := s.tasks ++ [.drop]}

theorem answeredOf {s t : State} {e : Event} (stack : e.onReactor = false) (stepped : step s e t) : Answered s e t := by
  cases stepCases stepped with
  | fdEvent | connected | read | paused | flushed | ran => contradiction
  | recv opened => exact .recv opened
  | fin opened => exact .fin opened
  | sent opened pumped => exact .sent opened pumped
  | stackRan queue taken => exact .stackRan queue taken
  | err =>
    rcases Bool.eq_false_or_eq_true s.closing with closing | opened
    · rw [onErr,closedEq false (by exact closing)]
      exact .errLate closing
    · have err := Answered.err opened
      rw [onErr,closeEq false (by exact opened)]
      simpa using err
  | teardown =>
    simp only [shutdownFromStack]
    split
    · rename_i closing
      exact .teardownLate closing
    · rename_i still
      exact .teardown (Bool.eq_false_iff.2 still)

/- What the NetStack thread does besides delivering data: the landing side stays
as it is, but for tasks at the end of the queue, the close behind a closed pcb. -/
structure Beside (s t : State) : Prop where
  fd : t.fd = s.fd
  connected : t.connected = s.connected
  wantWrite : t.wantWrite = s.wantWrite
  closing : t.closing = s.closing
  forwardBuf : t.forwardBuf = s.forwardBuf
  watcher : t.watcher = s.watcher
  pc : t.pc = s.pc
  delivered : t.delivered = s.delivered
  finned : t.finned = s.finned
  sent : t.sent = s.sent
  ended : t.ended = s.ended
  pcb : t.pcb = true → s.pcb = true
  tasks : ∃ more, t.tasks = s.tasks ++ more ∧
    ∀ task ∈ more, (task = .closeFromReactor ∧ t.pcb = false) ∨ ∃ fd, task = .resumeRead fd

theorem Beside.trans {s t u : State} (first : Beside s t) (second : Beside t u) : Beside s u := by
  obtain ⟨more,same,posted⟩ := first.tasks
  obtain ⟨more',same',posted'⟩ := second.tasks
  refine ⟨second.fd.trans first.fd,second.connected.trans first.connected,second.wantWrite.trans first.wantWrite,
    second.closing.trans first.closing,second.forwardBuf.trans first.forwardBuf,second.watcher.trans first.watcher,
    second.pc.trans first.pc,second.delivered.trans first.delivered,second.finned.trans first.finned,
    second.sent.trans first.sent,second.ended.trans first.ended,fun opened => first.pcb (second.pcb opened),
    more ++ more',?_,fun task member => ?_⟩
  · rw [same',same,List.append_assoc]
  · rcases List.mem_append.mp member with early | late
    · refine (posted task early).imp_left fun ⟨close,shut⟩ => ⟨close,?_⟩
      cases opened : u.pcb with
      | false => rfl
      | true => rw [second.pcb opened] at shut; contradiction
    · exact posted' task late

theorem Beside.old {s t : State} {task : Task} (beside : Beside s t) (member : task ∈ t.tasks)
    (close : task ≠ .closeFromReactor) (resume : ∀ fd, task ≠ .resumeRead fd) : task ∈ s.tasks := by
  obtain ⟨more,tasks,posted⟩ := beside.tasks
  rw [tasks] at member
  rcases List.mem_append.mp member with early | late
  · exact early
  · rcases posted task late with ⟨same,_⟩ | ⟨fd,same⟩
    · exact absurd same close
    · exact absurd same (resume fd)

theorem Beside.quiet {s t : State} (same : t = {s with
    stackTasks := t.stackTasks, readPaused := t.readPaused, fdEof := t.fdEof, backwardBuf := t.backwardBuf,
    backwardBytes := t.backwardBytes, accepted := t.accepted, recved := t.recved, pendingRecved := t.pendingRecved}) :
    Beside s t := by
  rw [same]
  exact ⟨rfl,rfl,rfl,rfl,rfl,rfl,rfl,rfl,rfl,rfl,rfl,fun h => h,[],by simp,by simp⟩

theorem closeFromStackBeside (s : State) : Beside s (closeFromStack s) :=
  ⟨rfl,rfl,rfl,rfl,rfl,rfl,rfl,rfl,rfl,rfl,rfl,by simp [closeFromStack],[.closeFromReactor],rfl,
    fun task member => .inl ⟨List.mem_singleton.mp member,rfl⟩⟩

theorem closeIfBeside (s : State) (c : Bool) : Beside s (if c then closeFromStack s else s) := by
  split
  · exact closeFromStackBeside s
  · exact .quiet rfl

theorem updateReadInterestBeside (s : State) : Beside s (updateReadInterest s) := by
  unfold updateReadInterest
  split
  · exact ⟨rfl,rfl,rfl,rfl,rfl,rfl,rfl,rfl,rfl,rfl,rfl,fun h => h,[.resumeRead s.fd],rfl,
      fun task member => .inr ⟨s.fd,List.mem_singleton.mp member⟩⟩
  · exact .quiet rfl

theorem afterPumpBeside (s : State) (written left : Bytes) (failed : Bool) :
    Beside s (afterPump s written left failed) := by
  unfold afterPump
  cases failed with
  | true => exact .quiet rfl
  | false =>
    simp only [Bool.false_eq_true,if_false]
    have pumped := fun n => Beside.quiet (s := s) (t := {s with
      accepted := s.accepted ++ written, backwardBuf := left, backwardBytes := n}) rfl
    exact (pumped _).trans ((updateReadInterestBeside _).trans (closeIfBeside _ _))

theorem pumpBeside {s t : State} {answers : List TcpWrite} (ok : pumpToLwip s answers = some t) : Beside s t := by
  unfold pumpToLwip at ok
  split at ok
  · cases Option.some.inj ok; exact .quiet rfl
  · obtain ⟨⟨written,left,failed⟩,_,same⟩ := Option.map_eq_some_iff.mp ok
    subst same
    exact afterPumpBeside s written left failed

theorem stackTaskBeside {s t : State} {answers : List TcpWrite} {task : StackTask}
    (ok : runStackTask s answers task = some t) : Beside s t := by
  cases task with
  | writeToLwip data =>
    simp only [runStackTask,writeToLwip] at ok
    split at ok
    · cases Option.some.inj ok; exact .quiet rfl
    · exact (Beside.quiet (s := s) rfl).trans (pumpBeside ok)
  | onFdEof =>
    simp only [runStackTask,onFdEofFromStack] at ok
    obtain ⟨u,pumped,same⟩ := Option.map_eq_some_iff.mp ok
    subst same
    exact ((Beside.quiet (s := s) rfl).trans (pumpBeside pumped)).trans (closeIfBeside u _)
  | closeFromStack => cases Option.some.inj ok; exact closeFromStackBeside s
  | ackRecved =>
    simp only [runStackTask,ackRecvedToLwip] at ok
    split at ok <;> cases Option.some.inj ok <;> exact .quiet rfl

/- And what it leaves alone: only closing the pcb takes the session off the list. -/
structure Stackside (s t : State) : Prop where
  self : t.self = s.self
  netCloses : t.netCloses = s.netCloses
  received : t.received = s.received
  stackTasks : t.stackTasks = s.stackTasks
  pcb : t.pcb = true → s.pcb = true
  listed : t.listed = (s.listed && (t.pcb || !s.pcb))

theorem Stackside.trans {s t u : State} (first : Stackside s t) (second : Stackside t u) : Stackside s u := by
  refine ⟨second.self.trans first.self,second.netCloses.trans first.netCloses,second.received.trans first.received,
    second.stackTasks.trans first.stackTasks,fun opened => first.pcb (second.pcb opened),?_⟩
  have closed := first.pcb
  have stillClosed := second.pcb
  rw [second.listed,first.listed]
  revert closed stillClosed
  cases s.pcb <;> cases t.pcb <;> cases u.pcb <;> simp

theorem Stackside.quiet {s t : State} (same : t = {s with
    tasks := t.tasks, readPaused := t.readPaused, fdEof := t.fdEof, backwardBuf := t.backwardBuf,
    backwardBytes := t.backwardBytes, accepted := t.accepted, recved := t.recved, pendingRecved := t.pendingRecved}) :
    Stackside s t := by
  rw [same]
  exact ⟨rfl,rfl,rfl,rfl,fun h => h,by simp⟩

theorem closeFromStackSide (s : State) : Stackside s (closeFromStack s) :=
  ⟨rfl,rfl,rfl,rfl,fun opened => by contradiction,by simp [closeFromStack]⟩

theorem closeIfSide (s : State) (c : Bool) : Stackside s (if c then closeFromStack s else s) := by
  split
  · exact closeFromStackSide s
  · exact .quiet rfl

theorem updateReadInterestSide (s : State) : Stackside s (updateReadInterest s) := by
  unfold updateReadInterest
  split <;> exact .quiet rfl

theorem pumpSide {s t : State} {answers : List TcpWrite} (ok : pumpToLwip s answers = some t) : Stackside s t := by
  unfold pumpToLwip at ok
  split at ok
  · cases Option.some.inj ok; exact .quiet rfl
  · obtain ⟨⟨written,left,failed⟩,_,same⟩ := Option.map_eq_some_iff.mp ok
    subst same
    cases failed with
    | true => exact .quiet rfl
    | false =>
      have pumped := fun n => Stackside.quiet (s := s) (t := {s with
        accepted := s.accepted ++ written, backwardBuf := left, backwardBytes := n}) rfl
      simp only [afterPump,Bool.false_eq_true,if_false]
      exact (pumped _).trans ((updateReadInterestSide _).trans (closeIfSide _ _))

theorem stackTaskSide {s t : State} {answers : List TcpWrite} {task : StackTask}
    (ok : runStackTask s answers task = some t) : Stackside s t := by
  cases task with
  | writeToLwip data =>
    simp only [runStackTask,writeToLwip] at ok
    split at ok
    · cases Option.some.inj ok; exact .quiet rfl
    · exact (Stackside.quiet (s := s) rfl).trans (pumpSide ok)
  | onFdEof =>
    simp only [runStackTask,onFdEofFromStack] at ok
    obtain ⟨u,pumped,same⟩ := Option.map_eq_some_iff.mp ok
    subst same
    exact ((Stackside.quiet (s := s) rfl).trans (pumpSide pumped)).trans (closeIfSide u _)
  | closeFromStack => cases Option.some.inj ok; exact closeFromStackSide s
  | ackRecved =>
    simp only [runStackTask,ackRecvedToLwip] at ok
    split at ok <;> cases Option.some.inj ok <;> exact .quiet rfl

def carried : StackTask → Bytes
  | .writeToLwip data => data
  | _ => []

/- What the reactor thread does: the lwIP side stays as it is, but for a task at the
end of its queue, which carries what was read. -/
structure Across (s t : State) : Prop where
  pcb : t.pcb = s.pcb
  listed : t.listed = s.listed
  fdEof : t.fdEof = s.fdEof
  backwardBuf : t.backwardBuf = s.backwardBuf
  accepted : t.accepted = s.accepted
  ended : s.ended = true → t.ended = true
  stackTasks : ∃ more, t.stackTasks = s.stackTasks ++ more ∧ t.received = s.received ++ more.flatMap carried ∧
    more.length ≤ 1 ∧ ∀ task ∈ more, (task = .onFdEof → t.ended = true) ∧
      ∀ data, task = .writeToLwip data → ∃ writable, s.pc = .reading writable

theorem Across.quiet {s t : State} (same : t = {s with
    fd := t.fd, connected := t.connected, wantWrite := t.wantWrite, readPaused := t.readPaused, self := t.self,
    forwardBuf := t.forwardBuf, watcher := t.watcher, tasks := t.tasks, pc := t.pc, sent := t.sent,
    netCloses := t.netCloses}) : Across s t := by
  rw [same]
  exact ⟨rfl,rfl,rfl,rfl,rfl,fun h => h,[],by simp,by simp,by simp,by simp⟩

theorem acrossStep {s t : State} {e : Event} (reactor : e.onReactor = true) (stepped : step s e t) : Across s t := by
  have confirms (written : Bytes) {more : List StackTask} (acks : more = if written.length = 0 then [] else [.ackRecved]) :
      s.received = s.received ++ more.flatMap carried ∧ more.length ≤ 1 ∧ ∀ task ∈ more, (task = .onFdEof → s.ended = true) ∧
        ∀ data, task = .writeToLwip data → ∃ writable, s.pc = .reading writable := by
    rw [acks]
    split <;> simp [carried]
  cases reactedOf reactor stepped with
  | turned | connected | paused | void | add | resumed | kept | del | drop | late => exact .quiet rfl
  | @data bytes _ here =>
    exact ⟨rfl,rfl,rfl,rfl,rfl,fun h => h,[.writeToLwip bytes],rfl,by simp [carried],by simp,by simp [here]⟩
  | eof => exact ⟨rfl,rfl,rfl,rfl,rfl,fun _ => rfl,[.onFdEof],rfl,by simp [carried],by simp,by simp⟩
  | blocked | drained => exact ⟨rfl,rfl,rfl,rfl,rfl,fun h => h,_,rfl,confirms _ rfl⟩
  | closed =>
    refine ⟨rfl,rfl,rfl,rfl,rfl,fun h => h,if s.pcb then [.closeFromStack] else [],?_,?_,?_,?_⟩
    · simp only
      split <;> simp
    · split <;> simp [carried]
    · split <;> simp
    · intro task member
      split at member
      · cases List.mem_singleton.mp member; simp
      · contradiction

end Candy.SessionTcp
