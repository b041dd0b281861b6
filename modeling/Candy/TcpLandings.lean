import Candy.Shares
import Candy.TcpDescriptor
import Candy.TcpStack

/-! The landing sockets of all TCP sessions on the one Reactor: its table of watchers
is keyed by descriptors, its tasks are one queue, its thread is in one callback at a
time, and the kernel gives a closed descriptor to the next dial at once. A session runs
as in SessionTcp on what the table has under its descriptor, whoever put it there. -/
namespace Candy.TcpLandings
open Runs Shares
open TcpStack (NetStack Pcb Sid)
open SessionTcp (Task ReactorEvent)

abbrev Fd := Nat

/- An entry of ioWatchers: the session whose handler it has, and the interest. -/
abbrev IoWatcher := Sid × ReactorEvent

/- The watcher and the tasks of a session in `stack` are not used: they are those of the
Reactor. `turn` is the session in whose callback the Reactor's thread is. The last two
fields are what was written to and read from the socket a session dialled. -/
structure State where
  stack : NetStack
  fd : Sid → Option Fd
  ioWatchers : Table Fd IoWatcher
  tasks : List (Sid × Task)
  turn : Option Sid
  sockets : Table Fd Sid
  written : Sid → Bytes
  read : Sid → Bytes

def initial : State := ⟨NetStack.start,fun _ => none,∅,[],none,∅,fun _ => [],fun _ => []⟩

namespace State

def entry (l : State) (s : Sid) : Option IoWatcher := (l.fd s).bind l.ioWatchers.lookup
def socket (l : State) (s : Sid) : Option Sid := (l.fd s).bind l.sockets.lookup

def view (l : State) (s : Sid) : SessionTcp.State :=
  {l.stack.session s with watcher := (l.entry s).map Prod.snd,tasks := part s l.tasks}

def load (l : State) (s : Sid) : NetStack := {l.stack with session := Function.update l.stack.session s (l.view s)}

/- add puts its own handler in, mod leaves the one there is. -/
def handler (l : State) (s : Sid) (added : Bool) : Sid := if added then s else ((l.entry s).map Prod.fst).getD s

def watch (l : State) (s : Sid) (added : Bool) (watcher : Option ReactorEvent) : Table Fd IoWatcher :=
  match l.fd s,watcher with
  | none,_ => l.ioWatchers
  | some n,none => l.ioWatchers.erase n
  | some n,some events => l.ioWatchers.insert n (l.handler s added,events)

def close (l : State) (s : Sid) (closed : Bool) : Table Fd Sid :=
  match l.fd s with
  | some n => if closed then l.sockets.erase n else l.sockets
  | none => l.sockets

def pass (l : State) (s : Sid) (history : Sid → Bytes) (more : Bytes) : Sid → Bytes :=
  match l.socket s with
  | some dialled => Function.update history dialled (history dialled ++ more)
  | none => history

def adds (l : State) (s : Sid) : SessionTcp.Event → Bool
  | .ran _ => (part s l.tasks).head? == some .add
  | _ => false

def store (l : State) (s : Sid) (e : SessionTcp.Event) (n : NetStack) : State :=
  let v := l.view s
  let t := n.session s
  {l with
    stack := n
    ioWatchers := l.watch s (l.adds s e) t.watcher
    tasks := l.tasks.drop (SessionTcp.taken e) ++ (t.tasks.drop (v.tasks.length - SessionTcp.taken e)).map fun task => (s,task)
    turn := if e.onReactor then (if t.pc = .idle then none else some s) else l.turn
    sockets := l.close s (v.fd && !t.fd)
    written := l.pass s l.written (t.sent.drop v.sent.length)
    read := l.pass s l.read (t.received.drop v.received.length)}

def act (l : State) (s : Sid) (e : SessionTcp.Event) : Option State := (TcpStack.deliver (l.load s) s e).map (l.store s e)

def callback (l : State) (pcb : Pcb) (e : SessionTcp.Event) : Option State :=
  (l.stack.tcpArg.lookup pcb).bind fun s => l.act s e

def onAccept (l : State) (newpcb : Pcb) (dialled : Option Fd) : State :=
  if !l.stack.running then l else
    let s := l.stack.made
    let l := {l with stack := TcpStack.onAccept l.stack newpcb dialled.isSome,fd := Function.update l.fd s dialled}
    match dialled with
    | none => l
    | some n => {l with sockets := l.sockets.insert n s,tasks := l.tasks ++ [(s,.add)]}

def shutdownSession (l : State) (s : Sid) : State := l.store s .teardown (TcpStack.shutdownSession (l.load s) s)

def teardownStack (l : State) : State :=
  let l := (l.stack.sessions.entries.map Sigma.snd).foldl shutdownSession l
  {l with stack := {l.stack with sessions := ∅}}

end State

def continues : SessionTcp.Event → Bool
  | .connected _ | .read _ | .paused | .flushed _ => true
  | _ => false

/- The NetStack thread's events as in TcpStack, but a dial returns a descriptor that is
not open. `polled` is a descriptor that poll reported. -/
inductive Event where
  | shutdown
  | accept (newpcb : Option Pcb) (dialled : Option Fd)
  | aborted
  | recv (pcb : Pcb) (data : Bytes)
  | fin (pcb : Pcb)
  | sent (pcb : Pcb) (answers : List SessionTcp.TcpWrite)
  | err (pcb : Pcb)
  | stackRan (s : Sid) (answers : List SessionTcp.TcpWrite)
  | teardown
  | polled (n : Fd) (events : ReactorEvent)
  | goesOn (e : SessionTcp.Event)
  | ran (sends : List SessionTcp.Send)
  deriving DecidableEq, Repr

def handle (l : State) : Event → Option State
  | .shutdown => some {l with stack := {l.stack with running := false}}
  | .aborted => l.stack.aborting.bind fun pcb =>
      (l.callback pcb .err).map fun l => {l with stack := {l.stack with aborting := none}}
  | .polled n events => if l.turn = none then
      (l.ioWatchers.lookup n).bind fun iw => l.act iw.1 (.fdEvent events) else none
  | .goesOn e => if continues e then l.turn.bind fun s => l.act s e else none
  | .ran sends => if l.turn = none then l.tasks.head?.bind fun task => l.act task.1 (.ran sends) else none
  | e => if l.stack.aborting.isSome then none else match e with
    | .accept newpcb dialled => match newpcb with
      | none => some l
      | some pcb => if l.stack.tcpArg.lookup pcb = none ∧ dialled.bind l.sockets.lookup = none then
          some (l.onAccept pcb dialled) else none
    | .recv pcb data => l.callback pcb (.recv data)
    | .fin pcb => l.callback pcb .fin
    | .sent pcb answers => l.callback pcb (.sent answers)
    | .err pcb => l.callback pcb .err
    | .stackRan s answers => if s < l.stack.made then l.act s (.stackRan answers) else none
    | .teardown => if l.stack.running then none else some l.teardownStack
    | _ => none

def step (l : State) (e : Event) (m : State) : Prop := handle l e = some m

end Candy.TcpLandings
