import Candy.Net
import Candy.Table

/-! The relay table of one client, src/peer/manager.cc. int32_t values are integers
and an overflowing sum has no result. A change of the table is announced at once to
the connected peers, so its result is the new table and the calls of sendRtMessage
in order. -/
namespace Candy.Peer

def RTT_LIMIT : Int := 2147483647
def fits (n : Int) : Bool := -2147483648 ≤ n ∧ n ≤ 2147483647

structure PeerRouteEntry where
  dst : IP4
  next : IP4
  rtt : Int
  deriving DecidableEq, Repr

abbrev RtTable := Table IP4 PeerRouteEntry

/- A ROUTE frame on its way to one peer. -/
structure Route where
  target : IP4
  dst : IP4
  next : IP4
  rtt : Int
  deriving DecidableEq, Repr

structure Announcement where
  dst : IP4
  rtt : Int
  deriving DecidableEq, Repr

/- peers are the connected ones; a withdrawal is sent without the relay cost. -/
def sendRtMessage (tunIp : IP4) (routeCost : Int) (peers : List IP4) (a : Announcement) : Option (List Route) :=
  if a.rtt ≠ RTT_LIMIT then
    if fits (a.rtt + routeCost) then some (peers.map (fun peer => ⟨peer,a.dst,tunIp,a.rtt + routeCost⟩)) else none
  else some (peers.map (fun peer => ⟨peer,a.dst,tunIp,a.rtt⟩))

def withdrawn (rtt : Int) : Bool := rtt < 0 || rtt > 1000

theorem withdrawnLimit {more : Int} (positive : 0 < more) : withdrawn (RTT_LIMIT + more) = true := by
  have large : 1000 < RTT_LIMIT + more := by
    unfold RTT_LIMIT; omega
  simp [withdrawn,large]

/- oldEntry gives way: it is absent, goes through the same peer, or is longer. -/
def yields (oldEntry : Option PeerRouteEntry) (next : IP4) (rtt : Int) : Bool :=
  match oldEntry with
  | none => true
  | some old => old.next == next || old.rtt > rtt

def updateRtTable (table : RtTable) (entry : PeerRouteEntry) : Option (RtTable × List Announcement) :=
  let isDirect := entry.dst == entry.next
  let isDelete := withdrawn entry.rtt
  let oldEntry := table.lookup entry.dst
  if isDirect && isDelete then
    some (table.keep (fun _ e => !(e.next == entry.next)),
      (table.entries.filter (fun e => e.2.next == entry.next)).map (fun e => ⟨e.2.dst,RTT_LIMIT⟩))
  else if isDirect && !isDelete then
    if yields oldEntry entry.next entry.rtt then
      some (table.insert entry.dst entry,[⟨entry.dst,entry.rtt⟩])
    else some (table,[])
  else if !isDirect && isDelete then
    match oldEntry with
    | some old =>
      if old.next = entry.next then some (table.erase entry.dst,[⟨old.dst,RTT_LIMIT⟩]) else some (table,[])
    | none => some (table,[])
  else match table.lookup entry.next with
    | none => some (table,[])
    | some directEntry =>
      let rttNow := directEntry.rtt + entry.rtt
      if fits rttNow then
        if yields oldEntry entry.next rttNow then
          some (table.insert entry.dst {entry with rtt := rttNow},[⟨entry.dst,rttNow⟩])
        else some (table,[])
      else none

/- A table a run can build: every entry under its own destination, none for the
client itself, no negative time. -/
structure Sane (tunIp : IP4) (table : RtTable) : Prop where
  keyed : ∀ dst e, table.lookup dst = some e → e.dst = dst
  foreign : ∀ e, table.lookup tunIp ≠ some e
  positive : ∀ dst e, table.lookup dst = some e → 0 ≤ e.rtt

structure Stores (table : RtTable) (entry : PeerRouteEntry) (rtt : Int) : Prop where
  present : withdrawn entry.rtt = false
  longer : entry.rtt ≤ rtt
  direct : entry.dst = entry.next → rtt = entry.rtt
  relayed : entry.dst ≠ entry.next → ∃ via, table.lookup entry.next = some via ∧ rtt = via.rtt + entry.rtt
  wins : yields (table.lookup entry.dst) entry.next rtt = true

/- What an update does: it takes entries away and withdraws them, or stores one. -/
inductive Updated (table : RtTable) (entry : PeerRouteEntry) : RtTable → List Announcement → Prop where
  | removed {table' calls} (fewer : ∀ dst e, table'.lookup dst = some e → table.lookup dst = some e)
      (withdrawals : ∀ a ∈ calls, a.rtt = RTT_LIMIT ∧ table'.lookup a.dst = none ∧ table.lookup a.dst ≠ none) :
      Updated table entry table' calls
  | stored {rtt} (stores : Stores table entry rtt) :
      Updated table entry (table.insert entry.dst {entry with rtt := rtt}) [⟨entry.dst,rtt⟩]

structure Admits (table : RtTable) (entry : PeerRouteEntry) (rtt : Int) : Prop where
  present : withdrawn entry.rtt = false
  direct : entry.dst = entry.next → rtt = entry.rtt
  relayed : entry.dst ≠ entry.next → ∃ via, table.lookup entry.next = some via ∧ rtt = via.rtt + entry.rtt
  wins : yields (table.lookup entry.dst) entry.next rtt = true

inductive Outcome (table : RtTable) (entry : PeerRouteEntry) : RtTable → List Announcement → Prop where
  | unreachable (direct : entry.dst = entry.next) (gone : withdrawn entry.rtt = true) :
      Outcome table entry (table.keep (fun _ e => !(e.next == entry.next)))
        ((table.entries.filter (fun e => e.2.next == entry.next)).map (fun e => ⟨e.2.dst,RTT_LIMIT⟩))
  | lost {old} (gone : withdrawn entry.rtt = true) (found : table.lookup entry.dst = some old)
      (through : old.next = entry.next) : Outcome table entry (table.erase entry.dst) [⟨old.dst,RTT_LIMIT⟩]
  | stored {rtt} (admits : Admits table entry rtt) :
      Outcome table entry (table.insert entry.dst {entry with rtt := rtt}) [⟨entry.dst,rtt⟩]
  | ignored (refused : ∀ rtt, ¬ Admits table entry rtt) : Outcome table entry table []

theorem withdrawEq (table : RtTable) (d : IP4) : updateRtTable table ⟨d,d,RTT_LIMIT⟩ =
    some (table.keep (fun _ e => !(e.next == d)),
      (table.entries.filter (fun e => e.2.next == d)).map (fun e => ⟨e.2.dst,RTT_LIMIT⟩)) := by
  simp [updateRtTable,withdrawn,RTT_LIMIT]

theorem updateOutcome {table entry table' calls} (ok : updateRtTable table entry = some (table',calls)) :
    Outcome table entry table' calls := by
  have present {rtt} (admits : Admits table entry rtt) (gone : withdrawn entry.rtt = true) : False := by
    simp [admits.present] at gone
  unfold updateRtTable at ok
  cases direct : entry.dst == entry.next with
  | true =>
    have same : entry.dst = entry.next := beq_iff_eq.mp direct
    cases gone : withdrawn entry.rtt with
    | true =>
      simp only [direct,gone,Bool.and_self,if_true,Option.some.injEq,Prod.mk.injEq] at ok
      obtain ⟨rfl,rfl⟩ := ok
      exact .unreachable same gone
    | false =>
      simp only [direct,gone,Bool.and_false,Bool.and_true,Bool.not_false,Bool.false_eq_true,if_false,if_true] at ok
      split at ok
      · rename_i wins
        cases ok
        exact .stored ⟨gone,fun _ => rfl,fun other => absurd same other,wins⟩
      · rename_i loses
        cases ok
        exact .ignored fun rtt admits => loses (admits.direct same ▸ admits.wins)
  | false =>
    have other : entry.dst ≠ entry.next := beq_eq_false_iff_ne.mp direct
    cases gone : withdrawn entry.rtt with
    | true =>
      simp only [direct,gone,Bool.and_self,Bool.false_and,Bool.not_false,Bool.false_eq_true,
        if_false,if_true] at ok
      split at ok
      · rename_i old found
        split at ok
        · rename_i through
          cases ok
          exact .lost gone found through
        · cases ok; exact .ignored fun rtt admits => present admits gone
      · cases ok; exact .ignored fun rtt admits => present admits gone
    | false =>
      simp only [direct,gone,Bool.and_false,Bool.false_and,Bool.false_eq_true,if_false] at ok
      split at ok
      · rename_i absent
        cases ok
        refine .ignored fun rtt admits => ?_
        obtain ⟨via,found,_⟩ := admits.relayed other
        rw [absent] at found
        contradiction
      · rename_i via found
        split at ok <;> try contradiction
        split at ok
        · rename_i wins
          cases ok
          exact .stored ⟨gone,fun same => absurd same other,fun _ => ⟨via,found,rfl⟩,wins⟩
        · rename_i loses
          cases ok
          refine .ignored fun rtt admits => loses ?_
          obtain ⟨via',found',rfl⟩ := admits.relayed other
          cases Option.some.inj (found.symm.trans found')
          exact admits.wins

theorem admitsUnique {table entry} {rtt rtt' : Int} (one : Admits table entry rtt) (other : Admits table entry rtt') :
    rtt = rtt' := by
  by_cases direct : entry.dst = entry.next
  · exact (one.direct direct).trans (other.direct direct).symm
  · obtain ⟨via,found,rfl⟩ := one.relayed direct
    obtain ⟨via',found',rfl⟩ := other.relayed direct
    cases Option.some.inj (found.symm.trans found')
    rfl

theorem admittedStored {table entry table' calls rtt} (admits : Admits table entry rtt)
    (ok : updateRtTable table entry = some (table',calls)) : table' = table.insert entry.dst {entry with rtt := rtt} := by
  cases updateOutcome ok with
  | unreachable _ gone => simp [admits.present] at gone
  | lost gone => simp [admits.present] at gone
  | stored other => rw [admitsUnique admits other]
  | ignored refused => exact absurd admits (refused rtt)

theorem updateSpec {tunIp table entry table' calls} (sane : Sane tunIp table)
    (ok : updateRtTable table entry = some (table',calls)) : Updated table entry table' calls := by
  cases updateOutcome ok with
  | unreachable =>
    refine .removed (fun dst e found => (Table.keepSome.mp found).1) fun a member => ?_
    obtain ⟨⟨key,e⟩,inside,rfl⟩ := List.mem_map.mp member
    obtain ⟨listed,through⟩ := List.mem_filter.mp inside
    have found := Table.lookupSome.mpr listed
    have listed : table.lookup e.dst ≠ none := by rw [sane.keyed key e found,found]; simp
    refine ⟨rfl,?_,listed⟩
    change AList.lookup e.dst _ = none
    rw [sane.keyed key e found]
    cases left : (table.keep (fun _ e => !(e.next == entry.next))).lookup key with
    | none => rfl
    | some e' =>
      obtain ⟨before,stays⟩ := Table.keepSome.mp left
      cases Option.some.inj (found.symm.trans before)
      simp [through] at stays
  | @lost old _ found =>
    refine .removed (fun dst e left => ?_) fun a member => ?_
    · rw [Table.lookupErase] at left
      split at left <;> [contradiction; exact left]
    · cases List.mem_singleton.mp member
      have listed : table.lookup old.dst ≠ none := by rw [sane.keyed _ old found,found]; simp
      refine ⟨rfl,?_,listed⟩
      change AList.lookup old.dst _ = none
      rw [sane.keyed _ old found,Table.lookupErase,if_pos rfl]
  | @stored rtt admits =>
    refine .stored ⟨admits.present,?_,admits.direct,admits.relayed,admits.wins⟩
    by_cases same : entry.dst = entry.next
    · exact le_of_eq (admits.direct same).symm
    · obtain ⟨via,found,total⟩ := admits.relayed same
      have nonneg := sane.positive _ via found
      omega
  | ignored => exact .removed (fun _ _ found => found) (by simp)

theorem saneUpdate {tunIp table entry table' calls} (sane : Sane tunIp table) (foreign : entry.dst ≠ tunIp)
    (ok : updateRtTable table entry = some (table',calls)) : Sane tunIp table' := by
  cases updateSpec sane ok with
  | removed fewer =>
    exact ⟨fun dst e found => sane.keyed dst e (fewer dst e found),
      fun e found => sane.foreign e (fewer tunIp e found),
      fun dst e found => sane.positive dst e (fewer dst e found)⟩
  | @stored rtt stores =>
    have least : 0 ≤ entry.rtt := by
      have present := stores.present
      simp only [withdrawn,Bool.or_eq_false_iff,decide_eq_false_iff_not] at present
      omega
    refine ⟨fun dst e found => ?_,fun e found => ?_,fun dst e found => ?_⟩
    · rw [Table.lookupInsert] at found
      split at found
      · rename_i same; cases Option.some.inj found; exact same.symm
      · exact sane.keyed dst e found
    · rw [Table.lookupInsert,if_neg (Ne.symm foreign)] at found
      exact sane.foreign e found
    · rw [Table.lookupInsert] at found
      split at found
      · cases Option.some.inj found; exact le_trans least stores.longer
      · exact sane.positive dst e found

theorem sendSpec {tunIp routeCost peers a routes} (ok : sendRtMessage tunIp routeCost peers a = some routes) :
    ∀ m ∈ routes, m.target ∈ peers ∧ m.next = tunIp ∧ m.dst = a.dst ∧
      (withdrawn m.rtt = true ∨ m.rtt = a.rtt + routeCost) := by
  intro m member
  unfold sendRtMessage at ok
  split at ok
  · split at ok <;> try contradiction
    cases ok
    obtain ⟨peer,listed,rfl⟩ := List.mem_map.mp member
    exact ⟨listed,rfl,rfl,.inr rfl⟩
  · rename_i limit
    rw [ne_eq,not_not] at limit
    cases ok
    obtain ⟨peer,listed,rfl⟩ := List.mem_map.mp member
    exact ⟨listed,rfl,rfl,.inl ((congrArg withdrawn limit).trans (by decide))⟩

end Candy.Peer
