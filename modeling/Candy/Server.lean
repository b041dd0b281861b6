import Candy.Orbit
import Candy.Runs
import Candy.Table
import Candy.WsMessage

/-! WebSocketServer of src/websocket/server.cc. Every open connection is one call
of handleWebsocket on a thread of its own; a WsCtx is found at its address, and
the address of a returned call may be reused by a later one. The registry holds
addresses, so it can outlive what it points to. Effects of a handler are the
frames it hands to sendFrame, in order. No sendFrame throws in these runs, and a link
loses nothing until it ends: one that throws is caught by the loop of the sender's call,
the frames behind it are not sent, and this connection ends or, after a timeout, goes on. -/
namespace Candy.Server
open WsMsg

abbrev Ptr := Nat

structure WsCtx where
  buffer : Bytes
  status : Int
  ip : IP4
  vmac : Bytes
  deriving DecidableEq, Repr

def WsCtx.fresh : WsCtx := ⟨[],0,IP4.zero,[]⟩

structure SysRoute where
  dev : Address
  dst : Address
  next : IP4
  deriving DecidableEq, Repr

/- Where a call of handleWebsocket is: at the loop condition, waiting for a
frame, in handleAuthMsg before its lock, or behind the loop. -/
inductive Stage where
  | looping
  | receiving
  | registering (ip : IP4)
  | leaving
  deriving DecidableEq, Repr

structure State where
  running : Bool
  password : Bytes
  dhcp : Address
  routes : List SysRoute
  ipCtxMap : Table IP4 Ptr
  calls : Ptr → Option Stage
  mem : Ptr → WsCtx

inductive Effect where
  | send (target : Ptr) (frame : Bytes)
  | log (text : String) (dump : Bytes)
  deriving DecidableEq, Repr

structure Env where
  sha : Digest
  ipAddress : Bytes → Option IP4

def State.write (s : State) (p : Ptr) (ctx : WsCtx) : State :=
  {s with mem := Function.update s.mem p ctx}
def State.setStatus (s : State) (p : Ptr) (status : Int) : State :=
  s.write p {s.mem p with status := status}
def State.setBuffer (s : State) (p : Ptr) (buffer : Bytes) : State :=
  s.write p {s.mem p with buffer := buffer}
def State.enter (s : State) (p : Ptr) (stage : Option Stage) : State :=
  {s with calls := Function.update s.calls p stage}

def refuse (s : State) (p : Ptr) (text : String) (dump : Bytes) : State × List Effect :=
  (s.setStatus p (-1),[.log text dump])

def entry (rt : SysRoute) : SysRouteEntry := ⟨rt.dst.net,rt.dst.mask,rt.next⟩

/- updateSysRoute: one pass over the rules with the batch size and the bytes
appended so far. Returns the frames sent and the buffer left in the context. -/
def batchRoutes (ip : IP4) : List SysRoute → Nat → Bytes → List Bytes × Bytes
  | [],size,entries =>
    (if size > 0 then [sysRoute size entries] else [],sysRoute size entries)
  | rt::rest,size,entries =>
    let (size,entries) := if rt.dev.mask &&& ip = rt.dev.host then
      (size+1,entries ++ (entry rt).bytes) else (size,entries)
    if size > 100 then
      let (frames,last) := batchRoutes ip rest 0 []
      (sysRoute size entries::frames,last)
    else batchRoutes ip rest size entries

def updateSysRoute (s : State) (p : Ptr) : State × List Effect :=
  let (frames,last) := batchRoutes (s.mem p).ip s.routes 0 []
  (s.setBuffer p last,frames.map (.send p))

/- handleAuthMsg up to the lock: the address is already in the context. -/
def handleAuthMsg (env : Env) (s : State) (p : Ptr) : State × List Effect :=
  let m := (s.mem p).buffer
  if m.length < Auth.size then refuse s p "invalid auth message: len %zu" []
  else
    let (good,m) := Auth.check env.sha s.password m
    let s := s.setBuffer p m
    if !good then refuse s p "auth header check failed: buffer %s" m
    else ((s.write p {s.mem p with ip := Auth.ip m}).enter p (some (.registering (Auth.ip m))),[])

/- The block of handleAuthMsg under the exclusive lock, and what follows it. -/
def register (s : State) (p : Ptr) (ip : IP4) : State × List Effect :=
  let (s,line) := match s.ipCtxMap.lookup ip with
    | some old => (s.setStatus old (-1),Effect.log "reconnect: %s" (s.mem old).ip.toString)
    | none => (s,.log "connect: %s" (s.mem p).ip.toString)
  let s := {s with ipCtxMap := s.ipCtxMap.insert ip p}
  let (s,sent) := updateSysRoute s p
  (s.enter p (some .looping),line::sent)

def multicastMask : IP4 := ⟨240,0,0,0⟩
def multicastNet : IP4 := ⟨224,0,0,0⟩
def allOnes : IP4 := ⟨255,255,255,255⟩

def isBroadcast (dhcp : Address) (daddr : IP4) : Bool :=
  if daddr &&& multicastMask = multicastNet then true
  else if daddr = allOnes then true
  else if dhcp.empty then false
  else if dhcp.mask &&& daddr ≠ dhcp.net then false
  else if (~~~((daddr &&& ~~~dhcp.mask) ^^^ dhcp.mask)).toWord ≠ 0 then false
  else true

def handleForwardMsg (s : State) (p : Ptr) : State × List Effect :=
  let ctx := s.mem p
  if ctx.ip.empty then refuse s p "unauthorized forward websocket client" []
  else if ctx.buffer.length < Forward.size then refuse s p "invalid forawrd message: len %zu" []
  else
    let daddr := Forward.daddr ctx.buffer
    match s.ipCtxMap.lookup daddr with
    | some target => (s,[.send target ctx.buffer])
    | none =>
      if isBroadcast s.dhcp daddr then
        (s,(s.ipCtxMap.entries.filter (fun c => (s.mem c.2).ip ≠ ctx.ip)).map (fun c => .send c.2 ctx.buffer))
      else (s,[.log "forward failed: source %s dest %s" []])

/- The answer to a request that passed the checks: the requested address if the
lambda `direct` allows it, else the next one the cursor search stops at. -/
def direct (s : State) (ctx : WsCtx) (exptTun : Address) : Bool :=
  if s.dhcp.net ≠ exptTun.net then false
  else match s.ipCtxMap.lookup exptTun.host with
    | none => true
    | some old => ctx.vmac == (s.mem old).vmac

def nextAddress (s : State) : Orbit.Search Address :=
  Orbit.search Address.next (fun a => a.host == s.dhcp.host)
    (fun a => !(!a.isValid && (s.ipCtxMap.lookup a.host).isSome)) (2^32) s.dhcp

inductive Allocation where
  | refused (text : String) (dump : Bytes)
  | undefined
  | direct (exptTun : Address)
  | searched (exptTun : Address)
  deriving DecidableEq, Repr

def allocate (env : Env) (s : State) (ctx : WsCtx) : Allocation :=
  if s.dhcp.empty then .refused "unable to allocate dynamic address" []
  else match Address.fromCidr env.ipAddress ⟨IP4.zero,IP4.zero⟩ (ExptTun.cidr ctx.buffer) with
    | .outOfBounds => .undefined
    | .rejected _ => .refused "dynamic address header cidr invalid: buffer %s" ctx.buffer
    | .ok exptTun =>
      if direct s ctx exptTun then .direct exptTun
      else match nextAddress s with
        | .found a => .searched a
        | .exhausted => .refused "all addresses in the network are assigned" []
        | .unfinished => .undefined

/- strcpy of the text and its zero byte over the head of the cidr field. -/
def answerExptTun (env : Env) (s : State) (p : Ptr) (exptTun : Address) (now : BitVec 64) : State × List Effect :=
  let m := setField (s.mem p).buffer 1 (timestampBytes now)
  let m := setField m 9 (exptTun.toCidr ++ [0])
  let m := ExptTun.updateHash env.sha s.password m
  (s.setBuffer p m,[.send p m])

def handleExptTunMsg (env : Env) (s : State) (p : Ptr) (now : BitVec 64) : Option (State × List Effect) :=
  let m := (s.mem p).buffer
  if m.length < ExptTun.size then some (refuse s p "invalid dynamic address message: len %zu" [])
  else
    let (good,m) := ExptTun.check env.sha s.password m
    let s := s.setBuffer p m
    if !good then some (refuse s p "dynamic address header check failed: buffer %s" m)
    else match allocate env s (s.mem p) with
      | .undefined => none
      | .refused text dump => some (refuse s p text dump)
      | .direct a => some (answerExptTun env s p a now)
      | .searched a => some (answerExptTun env {s with dhcp := a} p a now)

def handleUdp4ConnMsg (s : State) (p : Ptr) : State × List Effect :=
  let ctx := s.mem p
  if ctx.ip.empty then refuse s p "unauthorized peer websocket client" []
  else if ctx.buffer.length < Conn.size then refuse s p "invalid peer conn message: len %zu" []
  else if ctx.ip ≠ Conn.src ctx.buffer then
    refuse s p "peer source address does not match: auth %s source %s" []
  else match s.ipCtxMap.lookup (Conn.dst ctx.buffer) with
    | none => (s,[.log "peer dest address not logged in: source %s dst %s" []])
    | some target => (s,[.send target ctx.buffer])

def handleVMacMsg (env : Env) (s : State) (p : Ptr) : State × List Effect :=
  let m := (s.mem p).buffer
  if m.length < VMac.size then refuse s p "invalid vmac message: len %zu" []
  else
    let (good,m) := VMac.check env.sha s.password m
    let s := s.setBuffer p m
    if !good then refuse s p "vmac message check failed: buffer %s" m
    else (s.write p {s.mem p with vmac := VMac.vmac m},[])

/- The tail shared by discovery and general messages: a broadcast reaches every
key but the source, anything else the key it names. -/
def relayToDst (s : State) (src dst : IP4) (frame : Bytes) : State × List Effect :=
  if dst = allOnes then
    (s,(s.ipCtxMap.entries.filter (fun c => c.1 ≠ src)).map (fun c => .send c.2 frame))
  else match s.ipCtxMap.lookup dst with
    | some target => (s,[.send target frame])
    | none => (s,[])

def handleDiscoveryMsg (s : State) (p : Ptr) : State × List Effect :=
  let ctx := s.mem p
  if ctx.ip.empty then refuse s p "unauthorized discovery websocket client" []
  else if ctx.buffer.length < Discovery.size then refuse s p "invalid discovery message: len %zu" []
  else if ctx.ip ≠ Discovery.src ctx.buffer then
    refuse s p "discovery source address does not match: auth %s source %s" []
  else relayToDst s (Discovery.src ctx.buffer) (Discovery.dst ctx.buffer) ctx.buffer

def handleGeneralMsg (s : State) (p : Ptr) : State × List Effect :=
  let ctx := s.mem p
  if ctx.ip.empty then refuse s p "unauthorized general websocket client" []
  else if ctx.buffer.length < General.size then refuse s p "invalid general message: len %zu" []
  else if ctx.ip ≠ General.src ctx.buffer then
    refuse s p "general source address does not match: auth %s source %s" []
  else relayToDst s (General.src ctx.buffer) (General.dst ctx.buffer) ctx.buffer

def handleMsg (env : Env) (s : State) (p : Ptr) (now : BitVec 64) : Option (State × List Effect) :=
  let kind := byteAt (s.mem p).buffer 0
  if kind = Kind.AUTH then some (handleAuthMsg env s p)
  else if kind = Kind.FORWARD then some (handleForwardMsg s p)
  else if kind = Kind.EXPTTUN then handleExptTunMsg env s p now
  else if kind = Kind.UDP4CONN then some (handleUdp4ConnMsg s p)
  else if kind = Kind.VMAC then some (handleVMacMsg env s p)
  else if kind = Kind.DISCOVERY then some (handleDiscoveryMsg s p)
  else if kind = Kind.GENERAL then some (handleGeneralMsg s p)
  else some (s,[])

/- The tail of handleWebsocket: the entry of the current address goes if it is
this connection's. -/
def disconnect (s : State) (p : Ptr) : State × List Effect :=
  let ip := (s.mem p).ip
  if s.ipCtxMap.lookup ip = some p then
    ({s with ipCtxMap := s.ipCtxMap.erase ip},[.log "disconnect: %s" ip.toString])
  else (s,[])

/- One step of one thread. `idled` stands for a ping, a timeout and a frame the loop
ignores, `hungUp` for a close frame and for an exception: receiveFrame throws for a
frame of more than 1500 bytes. `reused` lets the memory of a returned call hold
anything, `opened` places a new call there. -/
inductive Event where
  | opened (p : Ptr)
  | checked (p : Ptr)
  | received (p : Ptr) (frame : Bytes) (now : BitVec 64)
  | registered (p : Ptr)
  | idled (p : Ptr)
  | hungUp (p : Ptr)
  | returned (p : Ptr)
  | reused (p : Ptr) (garbage : WsCtx)
  | stopped
  deriving DecidableEq, Repr

def handle (env : Env) (s : State) : Event → Option (State × List Effect)
  | .opened p => if s.calls p = none then
      some ((s.write p WsCtx.fresh).enter p (some .looping),[]) else none
  | .checked p => if s.calls p = some .looping then
      some (s.enter p (some (if s.running && (s.mem p).status == 0 then .receiving else .leaving)),[]) else none
  | .received p frame now => if s.calls p = some .receiving ∧ frame ≠ [] ∧ frame.length ≤ 1500 then
      handleMsg env ((s.setBuffer p frame).enter p (some .looping)) p now else none
  | .registered p => match s.calls p with
    | some (.registering ip) => some (register s p ip)
    | _ => none
  | .idled p => if s.calls p = some .receiving then some (s.enter p (some .looping),[]) else none
  | .hungUp p => if s.calls p = some .receiving ∨ s.calls p = some .looping then
      some (s.enter p (some .leaving),[]) else none
  | .returned p => if s.calls p = some .leaving then
      let (s,lines) := disconnect s p
      some (s.enter p none,lines) else none
  | .reused p garbage => if s.calls p = none then some (s.write p garbage,[]) else none
  | .stopped => some ({s with running := false, routes := []},[])

def step (env : Env) (s : State) (e : Event) (t : State) : Prop := ∃ sent, handle env s e = some (t,sent)

/- An empty text leaves the address of a fresh server. The caller goes on after a
rejected one, which may have set the host. -/
def setDHCP (env : Env) (cidr : Bytes) : Option Address :=
  if cidr = [] then some ⟨IP4.zero,IP4.zero⟩
  else match Address.fromCidr env.ipAddress ⟨IP4.zero,IP4.zero⟩ cidr with
    | .ok a | .rejected a => some a
    | .outOfBounds => none

/- setDHCP and setSdwan have run, listen has not accepted anyone yet. -/
def initial (password : Bytes) (dhcp : Address) (routes : List SysRoute) : State :=
  ⟨true,password,dhcp,routes,∅,fun _ => none,fun _ => WsCtx.fresh⟩

end Candy.Server
