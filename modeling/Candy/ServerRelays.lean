import Candy.ServerForward
import Candy.Signalling

/-! What the server passes on and to whom, in terms of the frame alone, and which
connections can be in the registry: those that have logged in. -/
namespace Candy.Server
open WsMsg
open Signalling (kindKept)

/- The address a frame that is passed on is for; the other frames the server makes itself. -/
def destination (frame : Bytes) : Option IP4 :=
  let kind := byteAt frame 0
  if kind = Kind.FORWARD then some (Forward.daddr frame)
  else if kind = Kind.UDP4CONN then some (Conn.dst frame)
  else if kind = Kind.DISCOVERY then some (Discovery.dst frame)
  else if kind = Kind.GENERAL then some (General.dst frame)
  else none

structure Passed (s : State) (frame : Bytes) (q : Ptr) (sent : Bytes) : Prop where
  same : sent = frame
  target : ∃ ip dst, s.ipCtxMap.lookup ip = some q ∧ destination frame = some dst ∧ (dst = ip ∨ isBroadcast s.dhcp dst = true)

inductive Sends (s : State) (p : Ptr) (frame : Bytes) : List Effect → Prop where
  | passed {sent} (each : ∀ q m, .send q m ∈ sent → Passed s frame q m) : Sends s p frame sent
  | answered {m} (asked : byteAt frame 0 = Kind.EXPTTUN) (kind : byteAt m 0 = Kind.EXPTTUN) : Sends s p frame [.send p m]

section
variable {env : Env} {s t : State} {p : Ptr} {frame : Bytes}

theorem sendsNothing : Sends s p frame [] := .passed (by simp)

theorem sendsLog {text : String} {dump : Bytes} : Sends s p frame [.log text dump] := .passed (by simp)

theorem sendsRefused {text : String} {dump : Bytes} : Sends s p frame (refuse s p text dump).2 := sendsLog

theorem sendsFound {dst : IP4} {q : Ptr} (known : destination frame = some dst) (found : s.ipCtxMap.lookup dst = some q) :
    Sends s p frame [.send q frame] := by
  refine .passed fun r m member => ?_
  cases List.mem_singleton.mp member
  exact ⟨rfl,dst,dst,found,known,.inl rfl⟩

theorem sendsMany {dst : IP4} {keep : (_ : IP4) × Ptr → Bool} (known : destination frame = some dst)
    (broadcast : isBroadcast s.dhcp dst = true) :
    Sends s p frame ((s.ipCtxMap.entries.filter keep).map fun c => .send c.2 frame) := by
  refine .passed fun q m member => ?_
  obtain ⟨c,inside,same⟩ := List.mem_map.mp member
  cases same
  exact ⟨rfl,c.1,dst,Table.lookupSome.mpr (List.mem_filter.mp inside).1,known,.inr broadcast⟩

theorem allBroadcast (dhcp : Address) : isBroadcast dhcp allOnes = true := by
  rw [broadcastHere]
  exact .inr (.inl rfl)

theorem sendsRelayed {src dst : IP4} (known : destination frame = some dst) : Sends s p frame (relayToDst s src dst frame).2 := by
  unfold relayToDst
  split
  · rename_i all
    exact sendsMany known (by rw [all]; exact allBroadcast s.dhcp)
  split
  · rename_i found; exact sendsFound known found
  · exact sendsNothing

theorem sendsForward (kind : byteAt (s.mem p).buffer 0 = Kind.FORWARD) : Sends s p (s.mem p).buffer (handleForwardMsg s p).2 := by
  have known : destination (s.mem p).buffer = some (Forward.daddr (s.mem p).buffer) := by simp only [destination,kind,if_true]
  simp only [handleForwardMsg]
  split
  · exact sendsRefused
  split
  · exact sendsRefused
  split
  · rename_i found; exact sendsFound known found
  split
  · rename_i broadcast; exact sendsMany known broadcast
  · exact sendsLog

theorem sendsConn (kind : byteAt (s.mem p).buffer 0 = Kind.UDP4CONN) : Sends s p (s.mem p).buffer (handleUdp4ConnMsg s p).2 := by
  have known : destination (s.mem p).buffer = some (Conn.dst (s.mem p).buffer) := by
    simp only [destination,kind,Kind.UDP4CONN,Kind.FORWARD]
    rfl
  simp only [handleUdp4ConnMsg]
  split
  · exact sendsRefused
  split
  · exact sendsRefused
  split
  · exact sendsRefused
  split
  · exact sendsLog
  · rename_i found; exact sendsFound known found

theorem sendsDiscovery (kind : byteAt (s.mem p).buffer 0 = Kind.DISCOVERY) :
    Sends s p (s.mem p).buffer (handleDiscoveryMsg s p).2 := by
  have known : destination (s.mem p).buffer = some (Discovery.dst (s.mem p).buffer) := by
    simp only [destination,kind,Kind.UDP4CONN,Kind.FORWARD,Kind.DISCOVERY]
    rfl
  simp only [handleDiscoveryMsg]
  split
  · exact sendsRefused
  split
  · exact sendsRefused
  split
  · exact sendsRefused
  · exact sendsRelayed known

theorem sendsGeneral (kind : byteAt (s.mem p).buffer 0 = Kind.GENERAL) : Sends s p (s.mem p).buffer (handleGeneralMsg s p).2 := by
  have known : destination (s.mem p).buffer = some (General.dst (s.mem p).buffer) := by
    simp only [destination,kind,Kind.UDP4CONN,Kind.FORWARD,Kind.DISCOVERY,Kind.GENERAL]
    rfl
  simp only [handleGeneralMsg]
  split
  · exact sendsRefused
  split
  · exact sendsRefused
  split
  · exact sendsRefused
  · exact sendsRelayed known

theorem sendsAuth : Sends s p frame (handleAuthMsg env s p).2 := by
  simp only [handleAuthMsg]
  split
  · exact sendsRefused
  split
  · exact sendsLog
  · exact sendsNothing

theorem sendsVMac : Sends s p frame (handleVMacMsg env s p).2 := by
  simp only [handleVMacMsg]
  split
  · exact sendsRefused
  split
  · exact sendsLog
  · exact sendsNothing

theorem sendsAnswer {u : State} {a : Address} {now : BitVec 64} (asked : byteAt frame 0 = Kind.EXPTTUN)
    (kind : byteAt (u.mem p).buffer 0 = Kind.EXPTTUN) : Sends s p frame (answerExptTun env u p a now).2 :=
  .answered asked (kindKept (by decide) (kindKept (by decide) (kindKept (by decide) kind)))

theorem sendsExptTun {now : BitVec 64} {out : State × List Effect} (kind : byteAt (s.mem p).buffer 0 = Kind.EXPTTUN)
    (ok : handleExptTunMsg env s p now = some out) : Sends s p (s.mem p).buffer out.2 := by
  have checked : byteAt (((s.setBuffer p (ExptTun.check env.sha s.password (s.mem p).buffer).2).mem p).buffer) 0 = Kind.EXPTTUN := by
    simp only [State.setBuffer,State.write,Function.update_self]
    exact kindKept (by decide) kind
  simp only [handleExptTunMsg] at ok
  split at ok
  · cases Option.some.inj ok; exact sendsRefused
  split at ok
  · cases Option.some.inj ok; exact sendsLog
  split at ok
  · contradiction
  · cases Option.some.inj ok; exact sendsLog
  · cases Option.some.inj ok; exact sendsAnswer kind checked
  · cases Option.some.inj ok; exact sendsAnswer kind checked

theorem frameSends {now : BitVec 64} {out : State × List Effect} (ok : handleMsg env s p now = some out) :
    Sends s p (s.mem p).buffer out.2 := by
  simp only [handleMsg] at ok
  split at ok
  · cases Option.some.inj ok; exact sendsAuth
  split at ok
  · rename_i kind; cases Option.some.inj ok; exact sendsForward kind
  split at ok
  · rename_i kind; exact sendsExptTun kind ok
  split at ok
  · rename_i kind; cases Option.some.inj ok; exact sendsConn kind
  split at ok
  · cases Option.some.inj ok; exact sendsVMac
  split at ok
  · rename_i kind; cases Option.some.inj ok; exact sendsDiscovery kind
  split at ok
  · rename_i kind; cases Option.some.inj ok; exact sendsGeneral kind
  · cases Option.some.inj ok; exact sendsNothing

theorem receivedSends {now : BitVec 64} {sent : List Effect} (ok : handle env s (.received p frame now) = some (t,sent)) :
    Sends s p frame sent := by
  cases handleCases ok with | received _ _ _ served => ?_
  have sends := frameSends served
  have buffered : (((s.setBuffer p frame).enter p (some .looping)).mem p).buffer = frame := by
    simp [State.setBuffer,State.write,State.enter]
  rw [buffered] at sends
  cases sends with
  | passed each => exact .passed fun q m member => ⟨(each q m member).same,(each q m member).target⟩
  | answered asked kind => exact .answered asked kind

theorem pushed {q : Ptr} {m : Bytes} (member : .send q m ∈ (updateSysRoute s p).2) : byteAt m 0 = Kind.ROUTE := by
  obtain ⟨batches,frames,_,_⟩ := RoutePush.batchSpec (s.mem p).ip s.routes [] (by simp)
  have sent : (updateSysRoute s p).2 = (batches.map RoutePush.batchFrame).map (.send p) :=
    congrArg (List.map (Effect.send p)) frames
  rw [sent] at member
  obtain ⟨one,inside,same⟩ := List.mem_map.mp member
  obtain ⟨batch,_,rfl⟩ := List.mem_map.mp inside
  cases same
  rfl

theorem otherSends {e : Event} {sent : List Effect} {q : Ptr} {m : Bytes} (ok : handle env s e = some (t,sent))
    (other : ∀ p frame now, e ≠ .received p frame now) (member : .send q m ∈ sent) : byteAt m 0 = Kind.ROUTE := by
  cases handleCases ok with
  | received => exact absurd rfl (other _ _ _)
  | registered _ entered =>
    rename_i p ip _
    rw [register] at entered
    cases found : s.ipCtxMap.lookup ip with
    | none =>
      simp only [found] at entered
      cases entered
      rcases List.mem_cons.mp member with line | inside
      · contradiction
      · exact pushed inside
    | some old =>
      simp only [found] at entered
      cases entered
      rcases List.mem_cons.mp member with line | inside
      · contradiction
      · exact pushed inside
  | returned _ left => exact absurd member ((disconnectSpec left).2.2.1 q m)
  | opened | checked | idled | hungUp | reused | stopped => contradiction

def Admitted (s : State) (q : Ptr) : Prop := s.calls q ≠ none ∧
  ((s.mem q).ip ≠ IP4.zero ∨ (∃ ip, s.calls q = some (.registering ip)) ∨ ∃ ip, s.ipCtxMap.lookup ip = some q)

theorem loginKind {password frame : Bytes} {ip : IP4} (login : loginAddress env password frame = some ip) :
    byteAt frame 0 = Kind.AUTH ∧ ip = Auth.ip frame := by
  unfold loginAddress at login
  split at login
  · rename_i good; exact ⟨good.1,(Option.some.inj login).symm⟩
  · contradiction

theorem admittedStep {e : Event} {q : Ptr} (sound : Sound s) (stepped : step env s e t) (admitted : Admitted t q) :
    (∃ frame now ip, e = .received q frame now ∧ loginAddress env s.password frame = some ip ∧ (t.mem q).ip = ip) ∨
      Admitted s q ∧ (t.mem q).ip = (s.mem q).ip := by
  obtain ⟨present,known⟩ := admitted
  cases seenOf stepped with
  | @received p frame now _ spec =>
    have here := spec.address q
    by_cases same : q = p
    · subst same
      rw [if_pos rfl] at here
      cases login : loginAddress env s.password frame with
      | some ip => exact .inl ⟨frame,now,ip,rfl,login,by rw [here,login]; rfl⟩
      | none =>
        rw [login] at here
        refine .inr ⟨⟨by rw [spec.receiving]; simp,?_⟩,here⟩
        rcases known with address | ⟨ip,stage⟩ | ⟨ip,found⟩
        · exact .inl fun zero => address (here.trans zero)
        · rw [spec.calls,login] at stage
          simp at stage
        · exact .inr (.inr ⟨ip,spec.map ▸ found⟩)
    · rw [if_neg same] at here
      rw [spec.calls,Function.update_of_ne same] at present known
      rw [here,spec.map] at known
      exact .inr ⟨⟨present,known⟩,here⟩
  | @registered p given _ stage spec =>
    refine .inr ⟨?_,spec.address q⟩
    by_cases same : q = p
    · subst same
      exact ⟨by rw [stage]; simp,.inr (.inl ⟨given,stage⟩)⟩
    · rw [spec.calls,Function.update_of_ne same] at present known
      rw [spec.address q] at known
      refine ⟨present,known.imp_right fun either => either.imp_right fun ⟨ip,found⟩ => ⟨ip,?_⟩⟩
      rw [spec.map,Table.lookupInsert] at found
      split at found
      · exact absurd (Option.some.inj found).symm same
      · exact found
  | @returned p _ stage calls mem map =>
    have away : q ≠ p := by
      rintro rfl
      exact present (by rw [calls]; exact Function.update_self ..)
    rw [calls,Function.update_of_ne away] at present known
    rw [mem] at known
    refine .inr ⟨⟨present,known.imp_right fun either => either.imp_right fun ⟨ip,found⟩ => ⟨ip,((map ip q).mp found).1⟩⟩,by rw [mem]⟩
  | aside spec =>
    by_cases before : s.calls q = none
    · have fresh := spec.fresh q before present
      rcases known with address | ⟨ip,stage⟩ | ⟨ip,found⟩
      · exact absurd (by rw [fresh]; rfl) address
      · rcases spec.calls q _ stage with plain | held
        · exact absurd rfl (plain ip)
        · rw [before] at held; contradiction
      · exact absurd before (sound.valid.connected ip q (spec.map ▸ found))
    · have kept := (spec.kept q before).2
      refine .inr ⟨⟨before,?_⟩,by rw [kept]⟩
      rcases known with address | ⟨ip,stage⟩ | ⟨ip,found⟩
      · exact .inl (by rwa [kept] at address)
      · rcases spec.calls q _ stage with plain | held
        · exact absurd rfl (plain ip)
        · exact .inr (.inl ⟨ip,held⟩)
      · exact .inr (.inr ⟨ip,spec.map ▸ found⟩)

end
end Candy.Server
