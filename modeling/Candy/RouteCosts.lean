import Candy.PeerRoutes

/-! The size of what a relay table stores. An update checks the rtt it is given and
stores a sum; the sums stay in range exactly as long as no Route message is taken
whose sum with the entry it goes through is not. -/
namespace Candy.P2P
open Runs

def setRouteCost (cost : Int) : Int := if cost < 0 then 0 else if cost > 1000 then 1000 else cost

theorem setRouteCostBound (cost : Int) : 0 ≤ setRouteCost cost ∧ setRouteCost cost ≤ 1000 := by
  unfold setRouteCost
  split
  · omega
  · split <;> omega

end Candy.P2P

namespace Candy.Peer
open Relay

def Bounded (table : RtTable) : Prop := ∀ dst e, table.lookup dst = some e → 0 ≤ e.rtt ∧ e.rtt ≤ 1000

section
variable {table table' : RtTable} {entry : PeerRouteEntry} {calls : List Announcement}

theorem presentRange {rtt : Int} : withdrawn rtt = false ↔ 0 ≤ rtt ∧ rtt ≤ 1000 := by
  simp only [withdrawn,Bool.or_eq_false_iff,decide_eq_false_iff_not]
  omega

theorem admitsPositive {rtt : Int} (bounded : Bounded table) (admits : Admits table entry rtt) : 0 ≤ rtt ∧ rtt ≤ 2000 := by
  have present := presentRange.mp admits.present
  by_cases direct : entry.dst = entry.next
  · have same := admits.direct direct
    omega
  · obtain ⟨via,found,rfl⟩ := admits.relayed direct
    have small := bounded _ via found
    omega

theorem updateTotal (bounded : Bounded table) : (updateRtTable table entry).isSome := by
  unfold updateRtTable
  dsimp only
  split
  · rfl
  rename_i direct
  split
  · split <;> rfl
  split
  · split
    · split <;> rfl
    · rfl
  rename_i relayed
  -- only a relayed route that is not withdrawn is summed
  have present : withdrawn entry.rtt = false := by
    rw [← Bool.not_eq_true]
    intro gone
    cases same : entry.dst == entry.next with
    | true => exact direct (by rw [same,gone]; rfl)
    | false => exact relayed (by rw [same,gone]; rfl)
  split
  · rfl
  · rename_i via found
    have small := bounded _ via found
    have range := presentRange.mp present
    have fit : fits (via.rtt + entry.rtt) = true := by
      simp only [fits,decide_eq_true_eq]
      omega
    rw [if_pos fit]
    split <;> rfl

theorem announceTotal {tunIp : IP4} {routeCost : Int} {peers : List IP4}
    (sums : ∀ a ∈ calls, a.rtt = RTT_LIMIT ∨ fits (a.rtt + routeCost) = true) :
    (announce tunIp routeCost peers calls).isSome := by
  induction calls with
  | nil => rfl
  | cons a rest ih =>
    obtain ⟨more,later⟩ := Option.isSome_iff_exists.mp (ih fun b member => sums b (List.mem_cons_of_mem _ member))
    have sent : ∃ routes, sendRtMessage tunIp routeCost peers a = some routes := by
      unfold sendRtMessage
      rcases sums a (List.mem_cons_self ..) with limit | fit
      · exact ⟨_,if_neg (not_not.mpr limit)⟩
      · rw [if_pos fit]
        split
        · exact ⟨_,rfl⟩
        · exact ⟨_,rfl⟩
    obtain ⟨routes,here⟩ := sent
    simp [announce,here,later]

theorem callsRange (bounded : Bounded table) (ok : updateRtTable table entry = some (table',calls)) :
    ∀ a ∈ calls, a.rtt = RTT_LIMIT ∨ 0 ≤ a.rtt ∧ a.rtt ≤ 2000 := by
  intro a member
  cases updateOutcome ok with
  | unreachable => obtain ⟨_,_,rfl⟩ := List.mem_map.mp member; exact .inl rfl
  | lost => cases List.mem_singleton.mp member; exact .inl rfl
  | stored admits => cases List.mem_singleton.mp member; exact .inr (admitsPositive bounded admits)
  | ignored => contradiction

theorem updateBounded (bounded : Bounded table) (short : ∀ rtt, Admits table entry rtt → rtt ≤ 1000)
    (ok : updateRtTable table entry = some (table',calls)) : Bounded table' := by
  intro dst e found
  cases updateOutcome ok with
  | unreachable => exact bounded dst e (Table.keepSome.mp found).1
  | lost =>
    rw [Table.lookupErase] at found
    split at found <;> [contradiction; exact bounded dst e found]
  | stored admits =>
    rw [Table.lookupInsert] at found
    split at found
    · cases Option.some.inj found
      exact ⟨(admitsPositive bounded admits).1,short _ admits⟩
    · exact bounded dst e found
  | ignored => exact bounded dst e found

end
end Candy.Peer

namespace Candy.P2P.Client
open Runs Candy.Peer

structure InRange (c : Client) : Prop where
  bounded : Bounded c.rtTableMap
  sums : ∀ entry, (c.updateRtTable entry).isSome

/- What the table would store of a Delay echo or a Route message is in range. -/
def Short (c : Client) (i : Input) : Prop := c.manager.clientRelayEnabled = true →
  ∀ entry, c.offered i = some entry → ∀ rtt, Admits c.rtTableMap entry rtt → rtt ≤ 1000

structure Priced (c : Client) : Prop where
  cost : 0 ≤ c.manager.routeCost ∧ c.manager.routeCost ≤ 1000
  bounded : Bounded c.rtTableMap

theorem Priced.inRange {c : Client} (priced : c.Priced) : c.InRange := by
  refine ⟨priced.bounded,fun entry => ?_⟩
  have total : (Peer.updateRtTable c.rtTableMap entry).isSome := updateTotal priced.bounded
  obtain ⟨⟨table,calls⟩,updated⟩ := Option.isSome_iff_exists.mp total
  have sums : ∀ a ∈ calls, a.rtt = RTT_LIMIT ∨ fits (a.rtt + c.manager.routeCost) = true := by
    intro a member
    refine (callsRange priced.bounded updated a member).imp_right fun range => ?_
    have cost := priced.cost
    simp only [fits,decide_eq_true_eq]
    omega
  have told : (Relay.announce c.manager.tunIp c.manager.routeCost c.connectedPeers calls).isSome := announceTotal sums
  obtain ⟨routes,sent⟩ := Option.isSome_iff_exists.mp told
  simp [Client.updateRtTable,updated,sent]

theorem startPriced (manager : Manager) (cost : Int) (address : IP4) (p2pOnly : Bool) :
    (start {manager with routeCost := setRouteCost cost} address p2pOnly).Priced :=
  ⟨setRouteCostBound cost,fun _ _ found => by simp [start] at found⟩

theorem stepPriced {c c' : Client} {i : Input} (priced : c.Priced) (short : c.Short i) (stepped : c.step i c') : c'.Priced := by
  obtain ⟨sent,ok⟩ := stepped
  cases handleStepped ok with
  | peer known heard nothing stepped =>
    refine ⟨by rw [stepped.kept]; exact priced.cost,?_⟩
    rcases stepped.routes with ⟨table,_⟩ | table
    · rw [table]; exact priced.bounded
    · rw [table]
      intro dst e found
      exact priced.bounded dst e (Table.keepSome.mp found).1
  | quiet _ routeCost => exact ⟨by rw [routeCost]; exact priced.cost,priced.bounded⟩
  | offered brought same updated =>
    cases relay : c.manager.clientRelayEnabled with
    | false => rw [unlooked relay brought ok]; exact priced
    | true =>
      obtain ⟨kept,⟨calls,written⟩,_⟩ := updateClient updated
      exact ⟨by rw [kept]; exact priced.cost,updateBounded priced.bounded (short relay _ brought) written⟩

theorem longStored {c c' : Client} {i : Input} (long : ¬ c.Short i) (stepped : c.step i c') : ¬ c'.InRange := by
  unfold Short at long
  push Not at long
  obtain ⟨relay,entry,brought,rtt,admits,large⟩ := long
  obtain ⟨sent,ok⟩ := stepped
  intro range
  cases handleStepped ok with
  | peer _ _ nothing => rw [nothing] at brought; contradiction
  | quiet _ _ nothing => rw [nothing relay] at brought; contradiction
  | offered brought' same updated =>
    cases Option.some.inj (brought.symm.trans brought')
    obtain ⟨_,⟨calls,written⟩,_⟩ := updateClient updated
    have bounded := range.bounded
    rw [admittedStored admits written] at bounded
    have stored := (bounded entry.dst _ (AList.lookup_insert _)).2
    exact absurd stored (by simpa using large)

theorem costsExact (manager : Manager) (cost : Int) (address : IP4) (p2pOnly : Bool) (inputs : List Input) (c : Client) :
    Run (Guarded step Short) (start {manager with routeCost := setRouteCost cost} address p2pOnly) inputs c ↔
      Run (Keeping step InRange) (start {manager with routeCost := setRouteCost cost} address p2pOnly) inputs c :=
  guardExact (startPriced manager cost address p2pOnly) (fun _ priced => Priced.inRange priced)
    (fun _ _ _ priced short stepped => stepPriced priced short stepped)
    fun _ _ _ _ long stepped => longStored long stepped

/- Member 3 is measured at one second and says that member 4 is one second behind it. -/
def doubled : List Input := connecting 0 3 ++
  [⟨.delay ⟨member 1,member 3,3000⟩,⟨seconds 3,seconds 3,4000⟩,0⟩,second 4 (.route (member 4) (member 3) 1000)]

theorem doubledOutside : ∃ c, Run step (start {relayer.manager with routeCost := setRouteCost 5} (member 1) false) doubled c ∧
    ¬ c.InRange := by
  have outcome : (execute (fun c i => (handle c i).map (·.1)) (start {relayer.manager with routeCost := setRouteCost 5} (member 1) false)
      doubled).map (fun c => c.rtTableMap.lookup (member 4)) = some (some ⟨member 4,member 3,2000⟩) := by decide +kernel
  obtain ⟨c,ok,found⟩ := Option.map_eq_some_iff.mp outcome
  refine ⟨c,executeRun (fun _ _ _ => handleStep) ok,fun range => ?_⟩
  exact absurd (range.bounded _ _ found).2 (by decide)

end Candy.P2P.Client
