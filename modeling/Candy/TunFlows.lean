import Candy.Runs
import Candy.Tun

/-! The flows a client remembers, src/tun/tun.cc: over any calls of
recordInitiatedFlow and isReturnByFlow on a clock that does not go back, the table
stays bounded, names only what was recorded, and forgets a flow only after 300
seconds or behind 4096 others. -/
namespace Candy.Tun
open Runs Recency WsMsg

inductive Call where
  | recordInitiatedFlow (m : Moment) (origPacket : Bytes)
  | isReturnByFlow (now : Int) (data : Bytes)

/- With the clock as it was read last go the flows recorded, and the flows recorded
or matched with the time of it, the newest first. -/
structure Watched where
  tun : Tun
  clock : Int
  recorded : List FlowKey
  touched : List (FlowKey × Int)

def Watched.start (ip : IP4) (userspaceStack : Bool) (sysRtTable : List SysRouteEntry) (clock : Int) : Watched :=
  ⟨⟨ip,userspaceStack,sysRtTable,∅,0⟩,clock,[],[]⟩

def returned (data : Bytes) : Option FlowKey :=
  if data.length < IP4Header.size * 2 then none else (parseInnerL4 (data.drop IP4Header.size)).map FlowKey.reverse

def Watched.call (w : Watched) : Call → Watched
  | .recordInitiatedFlow m origPacket =>
    let keys := (parseInnerL4 origPacket).toList
    ⟨w.tun.recordInitiatedFlow m origPacket,m.reaped,keys ++ w.recorded,keys.map (fun key => (key,m.recorded)) ++ w.touched⟩
  | .isReturnByFlow now data =>
    let out := w.tun.isReturnByFlow now data
    let keys := if out.2 then (returned data).toList else []
    ⟨out.1,now,w.recorded,keys.map (fun key => (key,now)) ++ w.touched⟩

def Call.After (clock : Int) : Call → Prop
  | .recordInitiatedFlow m _ => clock ≤ m.recorded ∧ m.recorded ≤ m.reaped
  | .isReturnByFlow now _ => clock ≤ now

def called (w : Watched) (c : Call) (w' : Watched) : Prop := c.After w.clock ∧ w' = w.call c

def Expired (clock last : Int) : Prop := clock - last > flowIdle

structure Kept (w : Watched) : Prop where
  bounded : w.tun.initiatedFlows.entries.length ≤ maxFlows
  known : ∀ key last, w.tun.initiatedFlows.lookup key = some last → key ∈ w.recorded
  tracks : Tracks maxFlows (Expired w.clock) w.touched w.tun.initiatedFlows

section
variable {t : Tun} {now : Int} {data : Bytes}

theorem reapSpec (order : Order FlowKey Int) : (t.reapIdleFlows now order).initiatedFlows.entries.length ≤ maxFlows ∧
    ∀ log, Tracks maxFlows (Expired now) log t.initiatedFlows →
      Tracks maxFlows (Expired now) log (t.reapIdleFlows now order).initiatedFlows := by
  unfold reapIdleFlows
  split
  · rename_i early
    exact ⟨Nat.le_of_not_gt early.1,fun log tracks => tracks⟩
  · refine ⟨evictBounded _ _ (by omega),fun log tracks => (tracks.keep ?_).evict _⟩
    intro key last dropped
    simpa [Expired] using dropped

theorem reapLookup {order : Order FlowKey Int} {key : FlowKey} {last : Int}
    (found : (t.reapIdleFlows now order).initiatedFlows.lookup key = some last) : t.initiatedFlows.lookup key = some last := by
  unfold reapIdleFlows at found
  split at found
  · exact found
  · exact (Table.keepSome.mp (evictLookup _ _ found)).1

theorem flowDecides {key : FlowKey} (parsed : returned data = some key) :
    (t.isReturnByFlow now data).2 = (t.initiatedFlows.lookup key).isSome ∧ (t.isReturnByFlow now data).1 =
      if (t.initiatedFlows.lookup key).isSome then {t with initiatedFlows := t.initiatedFlows.insert key now} else t := by
  unfold returned at parsed
  split at parsed
  · contradiction
  rename_i long
  obtain ⟨fwd,inner,same⟩ := Option.map_eq_some_iff.mp parsed
  subst same
  unfold isReturnByFlow
  rw [if_neg long,inner]
  cases found : t.initiatedFlows.lookup fwd.reverse with
  | none => simp only [found]; exact ⟨rfl,rfl⟩
  | some last => simp only [found]; exact ⟨rfl,rfl⟩

theorem othersAside (parsed : returned data = none) : (t.isReturnByFlow now data).1 = t := by
  unfold returned at parsed
  unfold isReturnByFlow
  split at parsed
  · rename_i short; rw [if_pos short]
  · rename_i long
    rw [if_neg long,Option.map_eq_none_iff.mp parsed]

end

section
variable {w : Watched}

theorem recordNothing {m : Moment} {origPacket : Bytes} (none : parseInnerL4 origPacket = none) :
    w.call (.recordInitiatedFlow m origPacket) = {w with clock := m.reaped} := by
  simp [Watched.call,Tun.recordInitiatedFlow,none]

theorem recordFlow {m : Moment} {origPacket : Bytes} {key : FlowKey} (parsed : parseInnerL4 origPacket = some key) :
    w.call (.recordInitiatedFlow m origPacket) =
      ⟨{w.tun with initiatedFlows := w.tun.initiatedFlows.insert key m.recorded}.reapIdleFlows m.reaped m.order,m.reaped,
        key::w.recorded,(key,m.recorded)::w.touched⟩ := by
  simp [Watched.call,Tun.recordInitiatedFlow,parsed]

theorem Kept.recordInitiatedFlow (kept : Kept w) {m : Moment} {origPacket : Bytes}
    (after : (Call.recordInitiatedFlow m origPacket).After w.clock) : Kept (w.call (.recordInitiatedFlow m origPacket)) := by
  have later : ∀ last, Expired w.clock last → Expired m.reaped last := by
    intro last old
    have := after.1.trans after.2
    simp only [Expired] at old ⊢
    omega
  cases parsed : parseInnerL4 origPacket with
  | none =>
    rw [recordNothing parsed]
    exact ⟨kept.bounded,kept.known,kept.tracks.later later⟩
  | some key =>
    rw [recordFlow parsed]
    obtain ⟨bounded,tracks⟩ := @reapSpec {w.tun with initiatedFlows := w.tun.initiatedFlows.insert key m.recorded} m.reaped m.order
    refine ⟨bounded,fun other last found => ?_,tracks _ ((kept.tracks.later later).touch key m.recorded)⟩
    have before := reapLookup found
    rw [Table.lookupInsert] at before
    by_cases same : other = key
    · exact same ▸ List.mem_cons_self ..
    · rw [if_neg same] at before
      exact List.mem_cons_of_mem _ (kept.known other last before)

theorem passedBy {now : Int} {data : Bytes} (other : ∀ key, returned data = some key → w.tun.initiatedFlows.lookup key = none) :
    w.call (.isReturnByFlow now data) = {w with clock := now} := by
  unfold Watched.call
  cases parsed : returned data with
  | none => simp [othersAside parsed,parsed]
  | some key =>
    obtain ⟨verdict,same⟩ := @flowDecides w.tun now data key parsed
    rw [other key parsed] at verdict same
    simp [verdict,same]

theorem matchedFlow {now last : Int} {data : Bytes} {key : FlowKey} (parsed : returned data = some key)
    (found : w.tun.initiatedFlows.lookup key = some last) : w.call (.isReturnByFlow now data) =
      ⟨{w.tun with initiatedFlows := w.tun.initiatedFlows.insert key now},now,w.recorded,(key,now)::w.touched⟩ := by
  obtain ⟨verdict,same⟩ := @flowDecides w.tun now data key parsed
  rw [found] at verdict same
  simp [Watched.call,verdict,same,parsed]

theorem Kept.isReturnByFlow (kept : Kept w) {now : Int} {data : Bytes} (after : (Call.isReturnByFlow now data).After w.clock) :
    Kept (w.call (.isReturnByFlow now data)) := by
  have later : ∀ last, Expired w.clock last → Expired now last := by
    intro last old
    have : w.clock ≤ now := after
    simp only [Expired] at old ⊢
    omega
  by_cases other : ∀ key, returned data = some key → w.tun.initiatedFlows.lookup key = none
  · rw [passedBy other]
    exact ⟨kept.bounded,kept.known,kept.tracks.later later⟩
  · push Not at other
    obtain ⟨key,parsed,present⟩ := other
    obtain ⟨last,found⟩ := Option.ne_none_iff_exists'.mp present
    rw [matchedFlow parsed found]
    refine ⟨?_,fun other time looked => ?_,(kept.tracks.later later).touch key now⟩
    · exact (touchedLength found).trans_le kept.bounded
    · by_cases same : other = key
      · exact same ▸ kept.known key last found
      · rw [Table.lookupInsert,if_neg same] at looked
        exact kept.known other time looked

theorem calledKept {c : Call} {w' : Watched} (kept : Kept w) (step : called w c w') : Kept w' := by
  obtain ⟨after,rfl⟩ := step
  cases c with
  | recordInitiatedFlow m origPacket => exact kept.recordInitiatedFlow after
  | isReturnByFlow now data => exact kept.isReturnByFlow after

end

theorem startKept (ip : IP4) (userspaceStack : Bool) (sysRtTable : List SysRouteEntry) (clock : Int) :
    Kept (.start ip userspaceStack sysRtTable clock) where
  bounded := Nat.zero_le _
  known key last found := by simp [Watched.start] at found
  tracks := emptyTracks

structure Judged (w : Watched) (key : FlowKey) (verdict : Bool) (now : Int) : Prop where
  sound : verdict = true → key ∈ w.recorded
  complete : ∀ t1, last w.touched key = some t1 → now - t1 ≤ flowIdle → (others w.touched key t1).card < maxFlows → verdict = true

theorem Kept.judged {w : Watched} (kept : Kept w) {key : FlowKey} {now : Int} {data : Bytes} (parsed : returned data = some key)
    (after : w.clock ≤ now) : Judged w key (w.tun.isReturnByFlow now data).2 now := by
  rw [(flowDecides parsed).1]
  constructor
  · intro found
    obtain ⟨last,looked⟩ := Option.isSome_iff_exists.mp found
    exact kept.known key last looked
  · intro t1 newest fresh few
    rcases kept.tracks.kept key t1 newest with here | old | full
    · rw [here]; rfl
    · simp only [Expired] at old
      omega
    · omega

theorem flowsRemembered {ip : IP4} {userspaceStack : Bool} {sysRtTable : List SysRouteEntry} {clock : Int} {calls : List Call}
    {w : Watched} (run : Run called (.start ip userspaceStack sysRtTable clock) calls w) :
    w.tun.initiatedFlows.entries.length ≤ 4096 ∧ ∀ data key now, returned data = some key → w.clock ≤ now →
      Judged w key (w.tun.isReturnByFlow now data).2 now := by
  have kept := run.invariant (startKept ip userspaceStack sysRtTable clock) fun _ _ _ => calledKept
  exact ⟨kept.bounded,fun data key now parsed after => kept.judged parsed after⟩

def outbound : Bytes := [0x45,0,0,24,0,0,0,0,64,6,0,0,192,168,1,2,192,168,2,3,0x9c,0x40,0,80]
def inbound : Bytes := List.replicate 20 0 ++ [0x45,0,0,24,0,0,0,0,64,6,0,0,192,168,2,3,192,168,1,2,0,80,0x9c,0x40]

def afterOutbound : Watched :=
  (Watched.start ⟨10,0,0,1⟩ true [] (seconds 5)).call (.recordInitiatedFlow ⟨seconds 6,seconds 6,.stored⟩ outbound)

theorem outboundRun : Run called (.start ⟨10,0,0,1⟩ true [] (seconds 5))
    [.recordInitiatedFlow ⟨seconds 6,seconds 6,.stored⟩ outbound] afterOutbound :=
  .snoc .nil ⟨⟨by decide,by decide⟩,rfl⟩

theorem outboundRemembered : afterOutbound.tun.initiatedFlows.entries.length ≤ 4096 ∧
    (afterOutbound.tun.isReturnByFlow (seconds 306) inbound).2 = true := by
  obtain ⟨bounded,judged⟩ := flowsRemembered outboundRun
  have key : returned inbound = parseInnerL4 outbound := by decide
  refine ⟨bounded,(judged inbound _ (seconds 306) key (by decide)).complete (seconds 6) ?_ ?_ ?_⟩ <;> decide

end Candy.Tun
