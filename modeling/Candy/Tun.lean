import Candy.Recency
import Candy.WsMessage

/-! The Tun module of a client, src/tun/tun.cc: what it does with a packet of the
device and with one of its queue, and the table of flows behind the choice between
the kernel and the userspace stack. Times are the nanoseconds of the steady clock. -/
namespace Candy
open WsMsg Recency

namespace IP4Header
def size : Nat := 20
def version (p : Bytes) : Byte := byteAt p 0 >>> 4
def ihl (p : Bytes) : Nat := (byteAt p 0 &&& 0x0f).toNat * 4
def fragOff (p : Bytes) : BitVec 16 := byteAt p 6 ++ byteAt p 7
def protocol (p : Bytes) : Byte := byteAt p 9
def saddr (p : Bytes) : IP4 := ip4At p 12
def daddr (p : Bytes) : IP4 := ip4At p 16
def isIPv4 (p : Bytes) : Prop := version p = 4
def isIPIP (p : Bytes) : Prop := protocol p = 0x04
instance (p : Bytes) : Decidable (isIPv4 p) := inferInstanceAs (Decidable (_ = _))
instance (p : Bytes) : Decidable (isIPIP p) := inferInstanceAs (Decidable (_ = _))
end IP4Header

structure FlowKey where
  proto : Byte
  srcIP : BitVec 32
  srcPort : BitVec 16
  dstIP : BitVec 32
  dstPort : BitVec 16
  deriving DecidableEq, Repr

def FlowKey.reverse (k : FlowKey) : FlowKey := ⟨k.proto,k.dstIP,k.dstPort,k.srcIP,k.srcPort⟩

/- userspaceStack is the client's option, ip what getIP of the device says. -/
structure Tun where
  ip : IP4
  userspaceStack : Bool
  sysRtTable : List SysRouteEntry
  initiatedFlows : Table FlowKey Int
  lastFlowReap : Int

/- The two readings of the clock behind one recorded flow, and the order in which
the table is then searched. -/
structure Moment where
  recorded : Int
  reaped : Int
  order : Order FlowKey Int

namespace Tun

inductive Effect where
  | write (buffer : Bytes)
  | peer (data : Bytes)
  | netStack (data : Bytes)
  deriving DecidableEq, Repr

def seconds (n : Int) : Int := n * 1000000000
def maxFlows : Nat := 4096
def flowIdle : Int := seconds 300
def reapInterval : Int := seconds 10

def matching (t : Tun) (ip : IP4) : Option SysRouteEntry := t.sysRtTable.find? (fun rt => ip &&& rt.mask = rt.dst)

/- A port as two bytes of memory. -/
def portRaw (p : Bytes) (offset : Nat) : BitVec 16 := byteAt p (offset+1) ++ byteAt p offset

def parseInnerL4 (p : Bytes) : Option FlowKey :=
  if p.length < IP4Header.size then none
  else if IP4Header.version p ≠ 4 then none
  else if IP4Header.protocol p ≠ 0x06 ∧ IP4Header.protocol p ≠ 0x11 then none
  else if IP4Header.fragOff p &&& 0x1fff ≠ 0 then none
  else if IP4Header.ihl p < IP4Header.size then none
  else if p.length < IP4Header.ihl p + 4 then none
  else some ⟨IP4Header.protocol p,(IP4Header.saddr p).toWord,portRaw p (IP4Header.ihl p),
    (IP4Header.daddr p).toWord,portRaw p (IP4Header.ihl p + 2)⟩

def reapIdleFlows (t : Tun) (now : Int) (order : Order FlowKey Int) : Tun :=
  if ¬ t.initiatedFlows.entries.length > maxFlows ∧ now - t.lastFlowReap < reapInterval then t
  else
    let flows := t.initiatedFlows.keep (fun _ last => !(now - last > flowIdle))
    {t with lastFlowReap := now,initiatedFlows := evict maxFlows order flows.entries.length flows}

def recordInitiatedFlow (t : Tun) (m : Moment) (origPacket : Bytes) : Tun :=
  match parseInnerL4 origPacket with
  | none => t
  | some key => {t with initiatedFlows := t.initiatedFlows.insert key m.recorded}.reapIdleFlows m.reaped m.order

/- The header given to it is followed by the inner packet. -/
def isReturnTraffic (t : Tun) (data : Bytes) : Bool :=
  if data.length < IP4Header.size * 2 then false
  else (t.matching (IP4Header.saddr (data.drop IP4Header.size))).isSome

def isReturnByFlow (t : Tun) (now : Int) (data : Bytes) : Tun × Bool :=
  if data.length < IP4Header.size * 2 then (t,false)
  else match parseInnerL4 (data.drop IP4Header.size) with
    | none => (t,t.isReturnTraffic data)
    | some fwd => match t.initiatedFlows.lookup fwd.reverse with
      | some _ => ({t with initiatedFlows := t.initiatedFlows.insert fwd.reverse now},true)
      | none => (t,false)

def nextHop (t : Tun) (ip : IP4) : IP4 :=
  match t.matching ip with
  | some rt => rt.nexthop
  | none => IP4.zero

/- The outer header: twenty zero bytes, then the three fields. -/
def encapsulate (t : Tun) (nextHop : IP4) (buffer : Bytes) : Bytes :=
  let buffer := List.replicate IP4Header.size 0 ++ buffer
  setField (setField (setField buffer 9 [0x04]) 12 (ip4Bytes t.ip)) 16 (ip4Bytes nextHop)

def handleTunDevice (t : Tun) (m : Moment) (buffer : Bytes) : Tun × List Effect :=
  if buffer.length < IP4Header.size then (t,[])
  else if ¬ IP4Header.isIPv4 buffer then (t,[])
  else
    let hop := t.nextHop (IP4Header.daddr buffer)
    let recorded := if !hop.empty && t.userspaceStack then t.recordInitiatedFlow m buffer else t
    let buffer := if !hop.empty then t.encapsulate hop buffer else buffer
    if IP4Header.daddr buffer = t.ip then (recorded,[.write buffer]) else (recorded,[.peer buffer])

def handlePacket (t : Tun) (now : Int) (data : Bytes) : Tun × List Effect :=
  if data.length < IP4Header.size then (t,[])
  else
    let (t,returning) := if IP4Header.isIPIP data then t.isReturnByFlow now data else (t,true)
    if !returning && t.userspaceStack then (t,[.netStack data])
    else (t,[.write (if IP4Header.isIPIP data then data.drop IP4Header.size else data)])

def handleSysRt (t : Tun) (data : Bytes) : Tun :=
  let rt : SysRouteEntry := ⟨ip4At data 0,ip4At data 4,ip4At data 8⟩
  if rt.nexthop ≠ t.ip then {t with sysRtTable := t.sysRtTable ++ [rt]} else t

section
variable (t : Tun)

theorem encapsulated (hop : IP4) (buffer : Bytes) : (t.encapsulate hop buffer).drop IP4Header.size = buffer ∧
    IP4Header.isIPIP (t.encapsulate hop buffer) ∧ IP4Header.size ≤ (t.encapsulate hop buffer).length := by
  have shape : t.encapsulate hop buffer = [0,0,0,0,0,0,0,0,0,4,0,0] ++ ip4Bytes t.ip ++ ip4Bytes hop ++ buffer := by
    cases buffer <;> rfl
  rw [shape]
  refine ⟨rfl,rfl,?_⟩
  simp [ip4Bytes,IP4Header.size]

theorem writtenByKernel (kernel : t.userspaceStack = false) (now : Int) {data : Bytes} (long : IP4Header.size ≤ data.length) :
    (t.handlePacket now data).2 = [.write (if IP4Header.isIPIP data then data.drop IP4Header.size else data)] := by
  have same : (t.isReturnByFlow now data).1.userspaceStack = false := by
    unfold isReturnByFlow
    split
    · exact kernel
    · split
      · exact kernel
      · split <;> exact kernel
  unfold handlePacket
  rw [if_neg (by omega)]
  by_cases ipip : IP4Header.isIPIP data
  · simp only [if_pos ipip,same,Bool.and_false,Bool.false_eq_true,if_false]
  · simp only [if_neg ipip,kernel,Bool.and_false,Bool.false_eq_true,if_false]

theorem reapIp (now : Int) (order : Order FlowKey Int) : (t.reapIdleFlows now order).ip = t.ip := by
  unfold reapIdleFlows
  split <;> rfl

theorem recordIp (m : Moment) (buffer : Bytes) : (t.recordInitiatedFlow m buffer).ip = t.ip := by
  unfold recordInitiatedFlow
  split
  · rfl
  · exact reapIp _ _ _

theorem deviceIp (m : Moment) (buffer : Bytes) : (t.handleTunDevice m buffer).1.ip = t.ip := by
  unfold handleTunDevice
  split
  · rfl
  split
  · rfl
  dsimp only
  have recorded : (if (!(t.nextHop (IP4Header.daddr buffer)).empty && t.userspaceStack) = true then
      t.recordInitiatedFlow m buffer else t).ip = t.ip := by
    split
    · exact recordIp t m buffer
    · rfl
  generalize (if (!(t.nextHop (IP4Header.daddr buffer)).empty && t.userspaceStack) = true then
    t.recordInitiatedFlow m buffer else t) = r at recorded ⊢
  split <;> split <;> exact recorded

theorem returnIp (now : Int) (data : Bytes) : (t.isReturnByFlow now data).1.ip = t.ip := by
  unfold isReturnByFlow
  split
  · rfl
  split
  · rfl
  split <;> rfl

theorem packetIp (now : Int) (data : Bytes) : (t.handlePacket now data).1.ip = t.ip := by
  unfold handlePacket
  split
  · rfl
  have returned : (if IP4Header.isIPIP data then t.isReturnByFlow now data else (t,true)).1.ip = t.ip := by
    split
    · exact returnIp t now data
    · rfl
  generalize (if IP4Header.isIPIP data then t.isReturnByFlow now data else (t,true)) = r at returned ⊢
  dsimp only
  split <;> exact returned

theorem sysRtIp (data : Bytes) : (t.handleSysRt data).ip = t.ip := by
  unfold handleSysRt
  dsimp only
  split <;> rfl

variable {t}

theorem enqueuedPacket {m : Moment} {p sent : Bytes} (enqueued : .peer sent ∈ (t.handleTunDevice m p).2) :
    IP4Header.size ≤ p.length ∧ sent = if (t.nextHop (IP4Header.daddr p)).empty then p else t.encapsulate (t.nextHop (IP4Header.daddr p)) p := by
  unfold handleTunDevice at enqueued
  split at enqueued
  · simp at enqueued
  rename_i long
  split at enqueued
  · simp at enqueued
  refine ⟨by omega,?_⟩
  cases hop : (t.nextHop (IP4Header.daddr p)).empty with
  | true =>
    simp only [hop,Bool.not_true,Bool.false_eq_true,if_false] at enqueued
    split at enqueued <;> simp at enqueued
    exact enqueued
  | false =>
    simp only [hop,Bool.not_false,if_true] at enqueued
    split at enqueued <;> simp at enqueued
    exact enqueued

end

theorem strippedExact {a b : Tun} {m : Moment} {now : Int} {p sent : Bytes} (kernel : b.userspaceStack = false)
    (enqueued : .peer sent ∈ (a.handleTunDevice m p).2) : (b.handlePacket now sent).2 = [.write p] ↔
      (a.nextHop (IP4Header.daddr p)).empty = false ∨ IP4Header.protocol p ≠ 0x04 := by
  obtain ⟨long,shape⟩ := enqueuedPacket enqueued
  cases hop : (a.nextHop (IP4Header.daddr p)).empty with
  | false =>
    rw [hop,if_neg Bool.false_ne_true] at shape
    obtain ⟨inner,ipip,room⟩ := a.encapsulated (a.nextHop (IP4Header.daddr p)) p
    subst shape
    rw [b.writtenByKernel kernel now room,if_pos ipip,inner]
    simp
  | true =>
    rw [hop,if_pos rfl] at shape
    subst shape
    rw [b.writtenByKernel kernel now long]
    by_cases ipip : IP4Header.isIPIP sent
    · have shorter : sent.drop IP4Header.size ≠ sent := by
        intro same
        have lengths := congrArg List.length same
        rw [List.length_drop] at lengths
        simp only [IP4Header.size] at lengths long
        omega
      rw [if_pos ipip]
      refine iff_of_false (fun written => shorter ?_) (fun either => ?_)
      · exact Effect.write.inj (List.singleton_inj.mp written)
      · rcases either with routed | other
        · contradiction
        · exact other ipip
    · rw [if_neg ipip]
      exact iff_of_true rfl (.inr ipip)

/- A client without routes and one that a user has an IPIP tunnel of its own to. -/
def host (n : Byte) : Tun := ⟨⟨10,0,0,n⟩,false,[],∅,0⟩
def ownTunnel : Bytes := [0x45,0,0,40,0,0,0,0,64,4,0,0,10,0,0,1,10,0,0,2] ++
  [0x45,0,0,20,0,0,0,0,64,17,0,0,192,168,1,1,192,168,2,1]

theorem ownTunnelSent : .peer ownTunnel ∈ ((host 1).handleTunDevice ⟨0,0,.stored⟩ ownTunnel).2 := by decide

theorem ownTunnelKept : ((host 2).handlePacket 0 ownTunnel).2 = [.write ownTunnel] ↔
    ((host 1).nextHop (IP4Header.daddr ownTunnel)).empty = false ∨ IP4Header.protocol ownTunnel ≠ 0x04 :=
  strippedExact rfl ownTunnelSent

theorem ownTunnelStripped : .peer ownTunnel ∈ ((host 1).handleTunDevice ⟨0,0,.stored⟩ ownTunnel).2 ∧
    ((host 2).handlePacket 0 ownTunnel).2 ≠ [.write ownTunnel] := by decide

end Tun
end Candy
