import Candy.Runs
import Candy.Shares
import Candy.UdpStack

/-! UDP with a socket for every source, src/netstack/session_udp.cc without converged:
the sessions, the tables of NetStack and of the Reactor, and the two queues through
which their threads give each other work. A call that one of the threads makes is one
step; whether a dial, a sendto or a datagram for lwIP goes through is part of the event.
A descriptor is free again as soon as it is closed, and the kernel may give it to the
next session at once. -/
namespace Candy.UdpCone
open Runs Shares
open NetStack (sessionKey kSessionIdle)

structure Source where
  ip : IP4
  port : BitVec 16
  deriving DecidableEq, Repr

def Source.key (src : Source) : Bytes := sessionKey src.ip src.port

/- A datagram of a source with where it goes, or one for it with where it came from. -/
structure Datagram where
  ip : BitVec 32
  port : BitVec 16
  data : Bytes
  deriving DecidableEq, Repr

abbrev Fd := Nat
/- A SessionUdp object, numbered as they are made. -/
abbrev Id := Nat

structure SessionUdp where
  src : Source
  pcb : Bool
  fd : Option Fd
  closing : Bool
  self : Bool
  lastActiveTs : Int
  deriving DecidableEq, Repr

inductive StackTask where
  | replyToLwip (m : Datagram)
  | closeFromStack
  deriving DecidableEq, Repr

/- shutdown is the task that shutdownFromStack posts. -/
inductive ReactorTask where
  | add (fd : Fd)
  | sendTo (m : Datagram)
  | closeFromReactor
  | shutdown
  deriving DecidableEq, Repr

structure Socket where
  dialled : Id
  inbox : List Datagram
  deriving DecidableEq, Repr

/- The last five fields are what has happened: the sessions whose dial failed, what a
session was given by lwIP, what was to leave through the socket it dialled, what arrived
there, what was to go to lwIP; with what was to go, whether it went. -/
structure State where
  running : Bool
  sessions : Id → Option SessionUdp
  next : Id
  udpSessions : Table Bytes Id
  pcbs : Table Source Id
  ioWatchers : Table Fd Id
  stackTasks : List (Id × StackTask)
  reactorTasks : List (Id × ReactorTask)
  sockets : Fd → Option Socket
  undialled : List Id
  heard : Id → List Datagram
  sent : Id → List (Datagram × Bool)
  arrived : Id → List Datagram
  injected : Id → List (Datagram × Bool)

def initial : State :=
  ⟨true,fun _ => none,0,∅,∅,∅,[],[],fun _ => none,[],fun _ => [],fun _ => [],fun _ => [],fun _ => []⟩

def note {α : Type} (history : Id → List α) (id : Id) (m : α) : Id → List α :=
  Function.update history id (history id ++ [m])

namespace State

def write (s : State) (id : Id) (c : SessionUdp) : State := {s with sessions := Function.update s.sessions id (some c)}
def postToStack (s : State) (id : Id) (task : StackTask) : State := {s with stackTasks := s.stackTasks ++ [(id,task)]}
def post (s : State) (id : Id) (task : ReactorTask) : State := {s with reactorTasks := s.reactorTasks ++ [(id,task)]}
def setSocket (s : State) (fd : Fd) (k : Option Socket) : State := {s with sockets := Function.update s.sockets fd k}

/- onPcbRecv and sendToLanding. -/
def onPcbRecv (s : State) (now : Int) (id : Id) (c : SessionUdp) (m : Datagram) : State :=
  {(s.write id {c with lastActiveTs := now}).post id (.sendTo m) with heard := note s.heard id m}

def onUdpRecv (s : State) (now : Int) (src : Source) (fd : Fd) : State :=
  let c : SessionUdp := ⟨src,true,some fd,false,true,now⟩
  let s := ((s.write s.next c).setSocket fd (some ⟨s.next,[]⟩)).post s.next (.add fd)
  {s with next := s.next + 1,pcbs := s.pcbs.insert src s.next,udpSessions := s.udpSessions.insert src.key s.next}

/- start returns -1: the new pcb is removed and no table has the session, which has
taken its reference to itself and keeps its pcb member. -/
def dialFailed (s : State) (now : Int) (src : Source) : State :=
  {s.write s.next ⟨src,true,none,false,true,now⟩ with next := s.next + 1,undialled := s.undialled ++ [s.next]}

def datagram (s : State) (now : Int) (src : Source) (m : Datagram) (dialled : Option Fd) : Option State :=
  match s.pcbs.lookup src with
  | some id => (s.sessions id).map fun c => s.onPcbRecv now id c m
  | none => match dialled with
    | none => some (s.dialFailed now src)
    | some fd => if (s.sockets fd).isSome then none else
      let t := s.onUdpRecv now src fd
      (t.sessions s.next).map fun c => t.onPcbRecv now s.next c m

def removePcb (s : State) (c : SessionUdp) : State := if c.pcb then {s with pcbs := s.pcbs.erase c.src} else s

/- given: neither pbuf_alloc nor udp_sendto_if_src fails. -/
def replyToLwip (s : State) (now : Int) (id : Id) (c : SessionUdp) (m : Datagram) (given : Bool) : State :=
  if c.pcb then {s.write id {c with lastActiveTs := now} with injected := note s.injected id (m,given)} else s

def closeFromStack (s : State) (id : Id) (c : SessionUdp) : State :=
  let s := (((s.removePcb c).write id {c with pcb := false}).post id .closeFromReactor)
  {s with udpSessions := s.udpSessions.erase c.src.key}

def shutdownFromStack (s : State) (id : Id) (c : SessionUdp) : State :=
  let s := (s.removePcb c).write id {c with pcb := false,closing := true}
  if c.closing then s else s.post id .shutdown

def closeFd (s : State) (c : SessionUdp) : State :=
  match c.fd with
  | none => s
  | some fd => {s.setSocket fd none with ioWatchers := s.ioWatchers.erase fd}

def closeFromReactor (s : State) (id : Id) (c : SessionUdp) : State :=
  if c.closing then s
  else
    let s := (s.closeFd c).write id {c with closing := true,fd := none,self := false}
    if c.pcb then s.postToStack id .closeFromStack else s

def shutdown (s : State) (id : Id) (c : SessionUdp) : State := (s.closeFd c).write id {c with fd := none,self := false}

def sendTo (s : State) (c : SessionUdp) (m : Datagram) (taken : Bool) : State :=
  if c.closing then s
  else match c.fd.bind s.sockets with
    | none => s
    | some k => {s with sent := note s.sent k.dialled (m,taken)}

/- The loop of recvfrom ends at a datagram without bytes, which is gone then. -/
def received : List Datagram → List Datagram × List Datagram
  | [] => ([],[])
  | m::rest => if m.data = [] then ([],rest) else ((m::(received rest).1),(received rest).2)

/- failed: recvfrom has returned an error that is not would-block. -/
def onFdReadable (s : State) (id : Id) (c : SessionUdp) (failed : Bool) : State :=
  match c.fd with
  | none => s.closeFromReactor id c
  | some fd => match s.sockets fd with
    | none => s.closeFromReactor id c
    | some k =>
      let (read,rest) := received k.inbox
      let s := {s.setSocket fd (some {k with inbox := rest}) with
        stackTasks := s.stackTasks ++ (read.map StackTask.replyToLwip).map fun task => (id,task)}
      if failed then s.closeFromReactor id c else s

def idle (s : State) (now : Int) (id : Id) : Bool :=
  match s.sessions id with
  | some c => now - c.lastActiveTs > kSessionIdle
  | none => false

def retire (s : State) (e : (_ : Bytes) × Id) : State :=
  let s := match s.sessions e.2 with
    | some c => s.shutdownFromStack e.2 c
    | none => s
  {s with udpSessions := s.udpSessions.erase e.1}

def reapIdleUdpSessions (s : State) (now : Int) : State :=
  (s.udpSessions.entries.filter fun e => s.idle now e.2).foldl retire s

def teardownStack (s : State) : State := {s.udpSessions.entries.foldl retire s with running := false}

def stackTask (s : State) (now : Int) (given : Bool) : Option State :=
  match s.stackTasks with
  | [] => none
  | (id,task)::rest => (s.sessions id).map fun c =>
    let s := {s with stackTasks := rest}
    match task with
    | .replyToLwip m => s.replyToLwip now id c m given
    | .closeFromStack => s.closeFromStack id c

def reactorTask (s : State) (taken : Bool) : Option State :=
  match s.reactorTasks with
  | [] => none
  | (id,task)::rest => (s.sessions id).map fun c =>
    let s := {s with reactorTasks := rest}
    match task with
    | .add fd => {s with ioWatchers := s.ioWatchers.insert fd id}
    | .sendTo m => s.sendTo c m taken
    | .closeFromReactor => s.closeFromReactor id c
    | .shutdown => s.shutdown id c

def arrive (s : State) (fd : Fd) (m : Datagram) : Option State :=
  (s.sockets fd).map fun k =>
    {s.setSocket fd (some {k with inbox := k.inbox ++ [m]}) with arrived := note s.arrived k.dialled m}

def onFdEvent (s : State) (fd : Fd) (act : Id → SessionUdp → State) : Option State :=
  (s.ioWatchers.lookup fd).bind fun id => (s.sessions id).map (act id)

end State

inductive Event where
  | datagram (now : Int) (src : Source) (m : Datagram) (dialled : Option Fd)
  | stackTask (now : Int) (given : Bool)
  | reap (now : Int)
  | teardown
  | arrive (fd : Fd) (m : Datagram)
  | readable (fd : Fd) (failed : Bool)
  | failure (fd : Fd)
  | reactorTask (taken : Bool)
  deriving DecidableEq, Repr

def handle (s : State) : Event → Option State
  | .datagram now src m dialled => if s.running then s.datagram now src m dialled else none
  | .stackTask now given => if s.running then s.stackTask now given else none
  | .reap now => if s.running then some (s.reapIdleUdpSessions now) else none
  | .teardown => if s.running then some s.teardownStack else none
  | .arrive fd m => s.arrive fd m
  | .readable fd failed => s.onFdEvent fd fun id c => s.onFdReadable id c failed
  | .failure fd => s.onFdEvent fd fun id c => s.closeFromReactor id c
  | .reactorTask taken => s.reactorTask taken

def step (s : State) (e : Event) (t : State) : Prop := handle s e = some t

end Candy.UdpCone
