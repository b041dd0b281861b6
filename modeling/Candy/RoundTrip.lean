import Candy.ClientTraffic
import Candy.Gateway
import Candy.TunFlows

/-! A connection through two userspace gateways on its way back: the stack's answer goes
to the gateway that the last packet of its destination came through, and there, by the
flow that packet began, to the device, unchanged. -/
namespace Candy.ClientQueues
open WsMsg CoreMsg DataPlane Modules Runs
open Tun (called Watched parseInnerL4 flowIdle maxFlows)

theorem encapsulatedHeader (t : Tun) (hop : IP4) (p : Bytes) : IP4Header.saddr (t.encapsulate hop p) = t.ip ∧
    IP4Header.daddr (t.encapsulate hop p) = hop ∧ (t.encapsulate hop p).length = IP4Header.size + p.length := by
  have shape : t.encapsulate hop p = [0,0,0,0,0,0,0,0,0,4,0,0] ++ ip4Bytes t.ip ++ ip4Bytes hop ++ p := by
    cases p <;> rfl
  rw [shape]
  refine ⟨rfl,rfl,?_⟩
  simp [ip4Bytes,IP4Header.size]
  omega

theorem returnStack (t : Tun) (now : Int) (data : Bytes) : (t.isReturnByFlow now data).1.userspaceStack = t.userspaceStack := by
  unfold Tun.isReturnByFlow
  split
  · rfl
  split
  · rfl
  split <;> rfl

theorem wrappedGoes {t : Tun} {now : Int} {data : Bytes} (room : IP4Header.size ≤ data.length) (ipip : IP4Header.isIPIP data)
    (userspace : t.userspaceStack = true) : (t.handlePacket now data).2 =
      if (t.isReturnByFlow now data).2 then [.write (data.drop IP4Header.size)] else [.netStack data] := by
  have kept := (returnStack t now data).trans userspace
  unfold Tun.handlePacket
  rw [if_neg (Nat.not_lt.mpr room)]
  simp only [if_pos ipip,kept]
  cases (t.isReturnByFlow now data).2 <;> rfl

theorem answerReturned {t : Tun} {hop : IP4} {r : Bytes} {key : FlowKey} (answers : parseInnerL4 r = some key.reverse) :
    Tun.returned (t.encapsulate hop r) = some key := by
  obtain ⟨_,_,size⟩ := encapsulatedHeader t hop r
  obtain ⟨inner,_,_⟩ := t.encapsulated hop r
  have long : IP4Header.size ≤ r.length := by
    unfold parseInnerL4 at answers
    split at answers
    · contradiction
    · omega
  unfold Tun.returned
  rw [if_neg (by omega),inner,answers]
  rfl

theorem recordStack (t : Tun) (m : Moment) (buffer : Bytes) : (t.recordInitiatedFlow m buffer).userspaceStack = t.userspaceStack := by
  unfold Tun.recordInitiatedFlow Tun.reapIdleFlows
  split
  · rfl
  · split <;> rfl

theorem calledStack {ip : IP4} {routes : List SysRouteEntry} {since : Int} {calls : List Tun.Call} {w : Watched}
    (run : Run called (.start ip true routes since) calls w) : w.tun.userspaceStack = true := by
  refine @Run.invariant _ _ _ _ (fun w => w.tun.userspaceStack = true) rfl ?_ _ _ run
  rintro w c w' userspace ⟨_,rfl⟩
  cases c with
  | recordInitiatedFlow m origPacket => exact (recordStack w.tun m origPacket).trans userspace
  | isReturnByFlow now data => exact (returnStack w.tun now data).trans userspace

theorem outAndBack {env : Env} {cfg : Config} {pingMessage : Bytes} {boot : BitVec 64} {s0 : State Core Module Item Sent}
    {clock : Int} (begun : start env cfg pingMessage boot = some s0) {events : List Event} {s : Traced}
    (there : Run (tracedStep env) ⟨s0,[],clock⟩ events s) {ip : IP4} {routes : List SysRouteEntry} {since : Int}
    {calls : List Tun.Call} {w : Watched} (here : Run called (.start ip true routes since) calls w) {key : FlowKey} {used : Int}
    (last : Recency.last w.touched key = some used) (few : (Recency.others w.touched key used).card < maxFlows)
    {f : Fed} {r : Bytes} (answers : parseInnerL4 r = some key.reverse) (arrived : lastFed s.fed (IP4Header.daddr r) = some f)
    (came : f.peer = ip) {sentAt backAt : Int} (later : s.clock ≤ sentAt) (soon : sentAt - f.time ≤ Core.vnetIdle)
    (after : w.clock ≤ backAt) (fresh : backAt - used ≤ flowIdle) {core : Core} {outputs : List Out}
    (ok : s.state.core.output sentAt r = some (core,outputs)) :
    outputs = [put .peer .stack (.packet (s.state.core.tun.encapsulate ip r))] ∧
    (w.tun.handlePacket backAt (s.state.core.tun.encapsulate ip r)).2 = [.write r] := by
  have long : IP4Header.size ≤ r.length := by
    unfold parseInnerL4 at answers
    split at answers
    · contradiction
    · omega
  obtain ⟨inner,ipip,room⟩ := s.state.core.tun.encapsulated ip r
  constructor
  · rw [(repliesReturn begun there later ok).2 f long arrived soon,came]
  · have kept : Tun.Kept w := here.invariant (Tun.startKept ip true routes since) fun _ _ _ => Tun.calledKept
    have judged : (w.tun.isReturnByFlow backAt (s.state.core.tun.encapsulate ip r)).2 = true :=
      (kept.judged (answerReturned answers) after).complete used last fresh few
    rw [wrappedGoes room ipip (calledStack here),judged,inner]
    rfl

def flow : FlowKey := ⟨0x06,(⟨192,168,1,2⟩ : IP4).toWord,0x409c,(⟨192,168,2,3⟩ : IP4).toWord,0x5000⟩

theorem questionBack : ∃ s : Traced, ∃ core outputs, s.state.core.output (Tun.seconds 8) reply = some (core,outputs) ∧
    outputs = [put .peer .stack (.packet (s.state.core.tun.encapsulate ⟨10,0,0,1⟩ reply))] ∧
    (Tun.afterOutbound.tun.handlePacket (Tun.seconds 306) (s.state.core.tun.encapsulate ⟨10,0,0,1⟩ reply)).2 = [.write reply] := by
  have outcome : landedAt.map (fun s => (s.clock,lastFed s.fed (IP4Header.daddr reply),(s.state.core.output (Tun.seconds 8) reply).isSome)) =
      some (Tun.seconds 7,some ⟨⟨192,168,1,2⟩,⟨10,0,0,1⟩,Tun.seconds 7⟩,true) := by decide +kernel
  obtain ⟨s,ok,same⟩ := Option.map_eq_some_iff.mp outcome
  simp only [Prod.mk.injEq] at same
  obtain ⟨clock,arrived,some⟩ := same
  obtain ⟨s0,begun,executed⟩ := Option.bind_eq_some_iff.mp ok
  have there : Run (tracedStep env) ⟨s0,[],0⟩ landed s := executeRun (fun _ _ _ taken => taken) executed
  obtain ⟨⟨core,outputs⟩,sent⟩ := Option.isSome_iff_exists.mp some
  have later : s.clock ≤ Tun.seconds 8 := clock ▸ (by decide)
  have last : Recency.last Tun.afterOutbound.touched flow = Option.some (Tun.seconds 6) := by decide
  have few : (Recency.others Tun.afterOutbound.touched flow (Tun.seconds 6)).card < maxFlows := by decide
  have answers : parseInnerL4 reply = Option.some flow.reverse := by decide
  have after : Tun.afterOutbound.clock ≤ Tun.seconds 306 := by decide
  have fresh : Tun.seconds 306 - Tun.seconds 6 ≤ flowIdle := by decide
  have back := outAndBack begun there Tun.outboundRun last few answers arrived rfl later (by decide) after fresh sent
  exact ⟨s,core,outputs,sent,back⟩

end Candy.ClientQueues
