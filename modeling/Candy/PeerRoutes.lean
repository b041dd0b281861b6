import Candy.PeerClient

/-! The neighbours a relay table points through. A connection that is lost takes its
routes with it, once; whatever arrives later is for updateRtTable alone to judge,
and that looks at the table, never at the peers. The table stays backed exactly as
long as no entry is taken whose next is not connected at that moment. -/
namespace Candy.P2P
open Runs

namespace Client

def start (manager : Manager) (address : IP4) (p2pOnly : Bool) : Client := ⟨manager,address,p2pOnly,∅,∅⟩

def Backed (c : Client) : Prop := ∀ dst e, c.rtTableMap.lookup dst = some e → c.Connected e.next

/- An entry a Delay echo or a Route message brings, and the table would take, goes
through a connected peer. -/
def Current (c : Client) (i : Input) : Prop :=
  ∀ entry, c.offered i = some entry → ∀ rtt, Candy.Peer.Admits c.rtTableMap entry rtt → c.Connected entry.next

structure Relaying (c : Client) : Prop where
  relay : c.manager.clientRelayEnabled = true
  keyed : ∀ ip p, c.ipPeerMap.lookup ip = some p → p.addr = ip
  backed : c.Backed

theorem startRelaying {manager : Manager} (relay : 0 < manager.routeCost) (address : IP4) (p2pOnly : Bool) :
    (start manager address p2pOnly).Relaying where
  relay := by simp [start,Manager.clientRelayEnabled,relay]
  keyed := fun _ _ found => by simp [start] at found
  backed := fun _ _ found => by simp [start] at found

theorem retimedConnected {c : Client} {peers : Table IP4 Peer} (same : Retimed c.ipPeerMap peers) (ip : IP4) :
    ({c with ipPeerMap := peers} : Client).Connected ip ↔ c.Connected ip := by
  constructor
  · intro connected
    obtain ⟨q,found,here⟩ := connected
    obtain ⟨p,before,eq⟩ := retimedFound same found
    exact ⟨p,before,(congrArg Peer.state eq).trans here⟩
  · intro connected
    obtain ⟨p,found,here⟩ := connected
    obtain ⟨q,after,eq⟩ := retimedFound (fun ip => (same ip).symm) found
    exact ⟨q,after,(congrArg Peer.state eq).trans here⟩

theorem peerRelaying {c c' : Client} {ip : IP4} {p q : Peer} {e : Peer.Event} {sent : List Datagram}
    (relaying : c.Relaying)
    (known : c.ipPeerMap.lookup ip = some p ∨ c.ipPeerMap.lookup ip = none ∧ ∃ seed, p = Peer.fresh ip seed)
    (stepped : PeerStepped c ip p e q c' sent) : c'.Relaying := by
  obtain ⟨calls,moved⟩ := stepped.moved
  have addr : p.addr = ip := by
    rcases known with found | ⟨_,seed,rfl⟩
    · exact relaying.keyed ip p found
    · rfl
  have peers (k : IP4) : c'.ipPeerMap.lookup k = if k = ip then some q else c.ipPeerMap.lookup k := by
    rw [stepped.kept,Table.lookupInsert]
  refine ⟨by rw [stepped.kept]; exact relaying.relay,fun k r found => ?_,fun dst entry found => ?_⟩
  · rw [peers] at found
    split at found
    · rename_i same
      cases Option.some.inj found
      rw [moved.addr,addr,same]
    · exact relaying.keyed k r found
  · rcases stepped.routes with ⟨table,stays⟩ | table
    · rw [table] at found
      obtain ⟨r,before,here⟩ := relaying.backed dst entry found
      by_cases through : entry.next = ip
      · rw [through] at before
        have same : p = r := by
          rcases known with found | ⟨absent,_⟩
          · exact Option.some.inj (found.symm.trans before)
          · rw [absent] at before; contradiction
        subst same
        refine ⟨q,by rw [peers,if_pos through],(stays here).resolve_right ?_⟩
        simp [relaying.relay]
      · exact ⟨r,by rw [peers,if_neg through,before],here⟩
    · rw [table] at found
      obtain ⟨before,other⟩ := Table.keepSome.mp found
      obtain ⟨r,left,here⟩ := relaying.backed dst entry before
      have other : entry.next ≠ ip := by simpa [addr] using other
      exact ⟨r,by rw [peers,if_neg other,left],here⟩

theorem updateRelaying {c c' : Client} {entry : Candy.Peer.PeerRouteEntry} {sent : List Datagram}
    (relaying : c.Relaying) (current : ∀ rtt, Candy.Peer.Admits c.rtTableMap entry rtt → c.Connected entry.next)
    (ok : c.updateRtTable entry = some (c',sent)) : c'.Relaying := by
  obtain ⟨kept,⟨calls,updated⟩,_⟩ := updateClient ok
  generalize c'.rtTableMap = table at kept updated
  subst kept
  refine ⟨relaying.relay,relaying.keyed,fun dst e found => ?_⟩
  cases Candy.Peer.updateOutcome updated with
  | unreachable => exact relaying.backed dst e (Table.keepSome.mp found).1
  | lost =>
    rw [Table.lookupErase] at found
    split at found <;> [contradiction; exact relaying.backed dst e found]
  | stored admits =>
    rw [Table.lookupInsert] at found
    split at found
    · cases Option.some.inj found; exact current _ admits
    · exact relaying.backed dst e found
  | ignored => exact relaying.backed dst e found

theorem stepRelaying {c c' : Client} {i : Input} (relaying : c.Relaying) (current : c.Current i)
    (stepped : c.step i c') : c'.Relaying := by
  obtain ⟨sent,ok⟩ := stepped
  cases handleStepped ok with
  | peer known _ _ stepped => exact peerRelaying relaying known stepped
  | quiet _ routeCost =>
    refine ⟨?_,relaying.keyed,relaying.backed⟩
    simpa [Manager.clientRelayEnabled,routeCost] using relaying.relay
  | @offered entry peers _ _ brought same updated =>
    have retimed : ({c with ipPeerMap := peers} : Client).Relaying := by
      refine ⟨relaying.relay,fun ip q found => ?_,fun dst e found => ?_⟩
      · obtain ⟨p,before,eq⟩ := retimedFound same found
        exact (congrArg Peer.addr eq).symm.trans (relaying.keyed ip p before)
      · exact (retimedConnected same e.next).mpr (relaying.backed dst e found)
    exact updateRelaying retimed (fun rtt admits => (retimedConnected same _).mpr (current entry brought rtt admits)) updated

theorem staleUnbacked {c c' : Client} {i : Input} (relaying : c.Relaying) (stale : ¬ c.Current i)
    (stepped : c.step i c') : ¬ c'.Backed := by
  unfold Current at stale
  push Not at stale
  obtain ⟨entry,brought,rtt,admits,unconnected⟩ := stale
  obtain ⟨sent,ok⟩ := stepped
  cases handleStepped ok with
  | peer _ _ nothing => rw [nothing] at brought; contradiction
  | quiet _ _ nothing => rw [nothing relaying.relay] at brought; contradiction
  | @offered entry' peers _ _ brought' same updated =>
    cases Option.some.inj (brought.symm.trans brought')
    obtain ⟨kept,⟨calls,written⟩,_⟩ := updateClient updated
    generalize c'.rtTableMap = table at kept written
    subst kept
    intro backed
    have stored := Candy.Peer.admittedStored admits written
    subst stored
    have connected := backed entry.dst {entry with rtt := rtt} (AList.lookup_insert _)
    exact unconnected ((retimedConnected same entry.next).mp connected)

theorem backedExact (manager : Manager) (address : IP4) (p2pOnly : Bool) (relay : 0 < manager.routeCost)
    (inputs : List Input) (c : Client) :
    Run (Guarded step Current) (start manager address p2pOnly) inputs c ↔
      Run (Keeping step Backed) (start manager address p2pOnly) inputs c :=
  guardExact (startRelaying relay address p2pOnly) (fun _ relaying => relaying.backed)
    (fun _ _ _ relaying current stepped => stepRelaying relaying current stepped)
    fun _ _ _ relaying stale stepped => staleUnbacked relaying stale stepped

/- A private network as Poco classifies it, and its members. -/
def private4 : Scopes where
  isSiteLocal ip := ip.raw0 == 10 || ip.raw0 == 192 && ip.raw1 == 168 || ip.raw0 == 172 && ip.raw1.extractLsb' 4 4 == 1
  isLinkLocal ip := ip.raw0 == 169 && ip.raw1 == 254
  isSiteLocalMC ip := ip.raw0 == 239 && ip.raw1 == 255

def member (i : Nat) : IP4 := ⟨10,0,0,BitVec.ofNat 8 i⟩

def second (n : Int) (event : Event) : Input := ⟨event,⟨seconds n,seconds n,n * 1000⟩,0⟩

/- The connection to one member, from its public address to its first heartbeat. -/
def connecting (n : Int) (i : Nat) : List Input :=
  [second n (.pubInfo ⟨member i,member 1,⟨8,8,8,BitVec.ofNat 8 i⟩,4000,false⟩),second n (.stunResponse (member i)),
    second n (.heartbeat ⟨.v4 ⟨8,8,8,BitVec.ofNat 8 i⟩,4000⟩ ⟨member i,1⟩)]

/- Member 2 falls silent and is given up; member 3 is measured and relays to it;
then a Route that member 2 sent while it was connected arrives. -/
def overtaken : List Input :=
  connecting 0 2 ++ [second 3 (.tick (member 2))] ++ connecting 3 3 ++
    [⟨.delay ⟨member 1,member 3,3000⟩,⟨seconds 3,seconds 3,3010⟩,0⟩,second 4 (.route (member 2) (member 3) 25),
      second 4 (.route (member 4) (member 2) 20)]

def relayer : Client := start ⟨private4,member 1,true,5,false⟩ (member 1) false

theorem handleStep {c c' : Client} {i : Input} (ok : (handle c i).map (·.1) = some c') : c.step i c' := by
  obtain ⟨⟨u,sent⟩,handled,rfl⟩ := Option.map_eq_some_iff.mp ok
  exact ⟨sent,handled⟩

/- Member 2 is connected and measured, and says that it reaches member 4. -/
def learnt : List Input :=
  connecting 0 2 ++ [⟨.delay ⟨member 1,member 2,0⟩,⟨seconds 0,seconds 0,10⟩,0⟩,second 1 (.route (member 4) (member 2) 20)]

def current (c : Client) (i : Input) : Bool :=
  (c.offered i).all fun entry => (c.ipPeerMap.lookup entry.next).map Peer.state = some .CONNECTED

theorem currentMeans {c : Client} {i : Input} (holds : current c i = true) : Current c i := by
  intro entry brought rtt _
  have connected : (c.ipPeerMap.lookup entry.next).map Peer.state = some .CONNECTED := by
    simpa [current,brought] using holds
  exact Option.map_eq_some_iff.mp connected

theorem learntBacked : ∃ c, Run (Keeping step Backed) relayer learnt c ∧
    c.rtTableMap.lookup (member 2) = some ⟨member 2,member 2,10⟩ ∧ c.rtTableMap.lookup (member 4) = some ⟨member 4,member 2,30⟩ := by
  have outcome : (execute (fun c i => if current c i = true then (handle c i).map (·.1) else none) relayer learnt).map (fun c =>
      (c.rtTableMap.lookup (member 2),c.rtTableMap.lookup (member 4))) =
      some (some ⟨member 2,member 2,10⟩,some ⟨member 4,member 2,30⟩) := by decide +kernel
  obtain ⟨c,ok,same⟩ := Option.map_eq_some_iff.mp outcome
  have run : Run (Guarded step Current) relayer learnt c :=
    executeGuarded (fun _ _ _ => handleStep) (fun _ _ => currentMeans) ok
  exact ⟨c,(backedExact _ _ _ (by decide) _ _).mp run,Prod.mk.inj same⟩

theorem overtakenUnbacked : ∃ c, Run step relayer overtaken c ∧ ¬ c.Backed := by
  have outcome : (execute (fun c i => (handle c i).map (·.1)) relayer overtaken).map (fun c =>
      (c.rtTableMap.lookup (member 4),(c.ipPeerMap.lookup (member 2)).map Peer.state)) =
      some (some ⟨member 4,member 2,55⟩,some .INIT) := by decide +kernel
  obtain ⟨c,ok,same⟩ := Option.map_eq_some_iff.mp outcome
  obtain ⟨entry,lost⟩ := Prod.mk.inj same
  refine ⟨c,executeRun (fun _ _ _ => handleStep) ok,fun backed => ?_⟩
  obtain ⟨p,found,here⟩ := backed _ _ entry
  rw [found] at lost
  cases (Option.some.inj lost).symm.trans here

end Client
end Candy.P2P
