import Candy.Relay

/-! What the neighbours of one client are told about its relay table: the calls of
sendRtMessage that the updates of a run make, and the frames they turn into. A
withdrawal is an rtt of RTT_LIMIT, so the account holds while no entry has that rtt. -/
namespace Candy.Peer
open Runs Relay

/- peers are the ones connected at that moment. -/
structure Update where
  entry : PeerRouteEntry
  peers : List IP4
  deriving DecidableEq, Repr

/- The table, every call of sendRtMessage and every frame so far. -/
structure Advertised where
  table : RtTable
  calls : List Announcement
  routes : List Route

namespace Advertised

def start : Advertised := ⟨∅,[],[]⟩

def handle (tunIp : IP4) (routeCost : Int) (s : Advertised) (u : Update) : Option Advertised := do
  let (table,calls) ← updateRtTable s.table u.entry
  let routes ← announce tunIp routeCost u.peers calls
  some ⟨table,s.calls ++ calls,s.routes ++ routes⟩

def step (tunIp : IP4) (routeCost : Int) (s : Advertised) (u : Update) (t : Advertised) : Prop :=
  s.handle tunIp routeCost u = some t

def Limited (s : Advertised) : Prop := ∀ dst e, s.table.lookup dst = some e → e.rtt < RTT_LIMIT

end Advertised

/- What a call tells whoever keeps a copy of the table. -/
def Announcement.change (a : Announcement) : Table.Change IP4 Int :=
  if a.rtt = RTT_LIMIT then .drop a.dst else .put a.dst a.rtt

def Announcement.route (tunIp : IP4) (routeCost : Int) (peer : IP4) (a : Announcement) : Route :=
  ⟨peer,a.dst,tunIp,if a.rtt = RTT_LIMIT then RTT_LIMIT else a.rtt + routeCost⟩

def Mirrors (calls : List Announcement) (table : RtTable) : Prop :=
  ∀ dst, (Table.replay ∅ (calls.map Announcement.change)).lookup dst = (table.lookup dst).map PeerRouteEntry.rtt

def Keyed (table : RtTable) : Prop := ∀ dst e, table.lookup dst = some e → e.dst = dst

/- One call for the entry an update stores, an equal one included, or one for each
entry it removes. -/
structure Tells (table : RtTable) (entry : PeerRouteEntry) (table' : RtTable) (calls : List Announcement) : Prop where
  stored : ∀ rtt, Admits table entry rtt →
    table' = table.insert entry.dst {entry with rtt := rtt} ∧ calls = [⟨entry.dst,rtt⟩]
  fewer : (∀ rtt, ¬ Admits table entry rtt) → ∀ dst e, table'.lookup dst = some e → table.lookup dst = some e
  once : (calls.map Announcement.dst).Nodup
  removed : (∀ rtt, ¬ Admits table entry rtt) →
    ∀ a, a ∈ calls ↔ a.rtt = RTT_LIMIT ∧ table.lookup a.dst ≠ none ∧ table'.lookup a.dst = none

section
variable {table table' : RtTable} {entry : PeerRouteEntry} {calls told : List Announcement}

theorem throughDropped (keyed : Keyed table) (dst : IP4) :
    dst ∈ ((table.entries.filter (fun e => e.2.next == entry.next)).map (fun e => e.2.dst)) ↔
      ∃ e, table.lookup dst = some e ∧ e.next = entry.next := by
  constructor
  · intro member
    obtain ⟨⟨key,e⟩,inside,rfl⟩ := List.mem_map.mp member
    obtain ⟨listed,through⟩ := List.mem_filter.mp inside
    have found := Table.lookupSome.mpr listed
    exact ⟨e,(keyed key e found).symm ▸ found,beq_iff_eq.mp through⟩
  · rintro ⟨e,found,through⟩
    refine List.mem_map.mpr ⟨⟨dst,e⟩,List.mem_filter.mpr ⟨Table.lookupSome.mp found,beq_iff_eq.mpr through⟩,?_⟩
    exact keyed dst e found

theorem keyedUpdate (keyed : Keyed table) (ok : updateRtTable table entry = some (table',calls)) : Keyed table' := by
  intro dst e found
  cases updateOutcome ok with
  | unreachable => exact keyed dst e (Table.keepSome.mp found).1
  | lost =>
    rw [Table.lookupErase] at found
    split at found <;> [contradiction; exact keyed dst e found]
  | stored =>
    rw [Table.lookupInsert] at found
    split at found
    · rename_i same; cases Option.some.inj found; exact same.symm
    · exact keyed dst e found
  | ignored => exact keyed dst e found

theorem unreachableLookup (keyed : Keyed table) (dst : IP4) : (table.keep (fun _ e => !(e.next == entry.next))).lookup dst =
    if dst ∈ (table.entries.filter (fun e => e.2.next == entry.next)).map (fun e => e.2.dst) then none
    else table.lookup dst := by
  rw [Table.lookupKeep]
  simp only [throughDropped keyed]
  cases found : table.lookup dst with
  | none => simp
  | some e => by_cases through : e.next = entry.next <;> simp [through]

theorem updateMirrors (keyed : Keyed table) (mirrors : Mirrors told table)
    (limited : ∀ dst e, table'.lookup dst = some e → e.rtt < RTT_LIMIT)
    (ok : updateRtTable table entry = some (table',calls)) : Mirrors (told ++ calls) table' := by
  intro dst
  rw [List.map_append,Table.replayAppend]
  have copied : ∀ dst, AList.lookup dst (Table.replay ∅ (told.map Announcement.change)) =
    (table.lookup dst).map PeerRouteEntry.rtt := mirrors
  generalize Table.replay ∅ (told.map Announcement.change) = copy at copied ⊢
  cases updateOutcome ok with
  | unreachable =>
    have drops : ((table.entries.filter (fun e => e.2.next == entry.next)).map (fun e => (⟨e.2.dst,RTT_LIMIT⟩ : Announcement))).map
        Announcement.change = ((table.entries.filter (fun e => e.2.next == entry.next)).map (fun e => e.2.dst)).map .drop := by
      simp [Announcement.change]
    rw [drops,Table.replayDrops,unreachableLookup keyed,copied]
    split <;> rfl
  | @lost old _ found =>
    have own := keyed _ _ found
    have drop : [(⟨old.dst,RTT_LIMIT⟩ : Announcement)].map Announcement.change = [entry.dst].map .drop := by
      simp [Announcement.change,own]
    rw [drop,Table.replayDrops,Table.lookupErase,copied]
    by_cases same : dst = entry.dst <;> simp [same]
  | @stored rtt =>
    have below := limited entry.dst _ (AList.lookup_insert _)
    have put : [(⟨entry.dst,rtt⟩ : Announcement)].map Announcement.change = [.put entry.dst rtt] := by
      simp [Announcement.change,ne_of_lt below]
    have one : copy.replay [.put entry.dst rtt] = copy.insert entry.dst rtt := rfl
    rw [put,one,Table.lookupInsert,Table.lookupInsert,copied]
    split <;> rfl
  | ignored => exact copied dst

theorem throughOnce (keyed : Keyed table) :
    ((table.entries.filter (fun e => e.2.next == entry.next)).map (fun e => e.2.dst)).Nodup := by
  have keys : (table.entries.filter (fun e => e.2.next == entry.next)).map (fun e => e.2.dst) =
      (table.entries.filter (fun e => e.2.next == entry.next)).map Sigma.fst := by
    refine List.map_congr_left fun e member => ?_
    exact keyed e.1 e.2 (Table.lookupSome.mpr (List.mem_of_mem_filter member))
  rw [keys]
  exact (List.filter_sublist.map Sigma.fst).nodup table.nodupKeys

theorem throughRemoved (keyed : Keyed table) (a : Announcement) :
    a ∈ (table.entries.filter (fun e => e.2.next == entry.next)).map (fun e => (⟨e.2.dst,RTT_LIMIT⟩ : Announcement)) ↔
      a.rtt = RTT_LIMIT ∧ table.lookup a.dst ≠ none ∧ (table.keep (fun _ e => !(e.next == entry.next))).lookup a.dst = none := by
  rw [unreachableLookup keyed]
  constructor
  · intro member
    obtain ⟨e,inside,rfl⟩ := List.mem_map.mp member
    have dropped := List.mem_map_of_mem (f := fun e : (_ : IP4) × PeerRouteEntry => e.2.dst) inside
    obtain ⟨old,found,_⟩ := (throughDropped keyed _).mp dropped
    exact ⟨rfl,by rw [found]; simp,if_pos dropped⟩
  · rintro ⟨limit,listed,gone⟩
    split at gone
    · rename_i dropped
      obtain ⟨e,inside,same⟩ := List.mem_map.mp dropped
      exact List.mem_map.mpr ⟨e,inside,by rw [same,← limit]⟩
    · exact absurd gone listed

theorem updateTells (keyed : Keyed table) (ok : updateRtTable table entry = some (table',calls)) :
    Tells table entry table' calls := by
  cases updateOutcome ok with
  | unreachable _ gone =>
    constructor
    case stored => exact fun rtt admits => absurd (gone.symm.trans admits.present) Bool.noConfusion
    case fewer => exact fun _ dst e found => (Table.keepSome.mp found).1
    case once =>
      rw [List.map_map]
      exact throughOnce keyed
    case removed => exact fun _ a => throughRemoved keyed a
  | @lost old gone found =>
    have own := keyed _ _ found
    constructor
    case stored => exact fun rtt admits => absurd (gone.symm.trans admits.present) Bool.noConfusion
    case fewer =>
      intro _ dst e left
      rw [Table.lookupErase] at left
      split at left <;> [contradiction; exact left]
    case once => exact List.nodup_singleton _
    case removed =>
      intro _ a
      rw [List.mem_singleton,own,Table.lookupErase]
      constructor
      · rintro rfl
        exact ⟨rfl,by rw [found]; simp,if_pos rfl⟩
      · rintro ⟨limit,listed,left⟩
        split at left
        · rename_i same
          rw [← same,← limit]
        · exact absurd left listed
  | @stored rtt admits =>
    constructor
    case stored =>
      intro rtt' admits'
      rw [admitsUnique admits admits']
      exact ⟨rfl,rfl⟩
    case fewer => exact fun none => absurd admits (none rtt)
    case once => exact List.nodup_singleton _
    case removed => exact fun none => absurd admits (none rtt)
  | ignored refused =>
    constructor
    case stored => exact fun rtt admits => absurd admits (refused rtt)
    case fewer => exact fun _ _ _ found => found
    case once => exact List.nodup_nil
    case removed =>
      intro _ a
      refine iff_of_false List.not_mem_nil fun holds => holds.2.1 holds.2.2

end

theorem sendTold {tunIp peer : IP4} {routeCost : Int} {peers : List IP4} {a : Announcement} {routes : List Route}
    (unique : peers.Nodup) (connected : peer ∈ peers) (ok : sendRtMessage tunIp routeCost peers a = some routes) :
    routes.filter (fun m => m.target = peer) = [a.route tunIp routeCost peer] := by
  have each (rtt : Int) : (peers.map (fun p => (⟨p,a.dst,tunIp,rtt⟩ : Route))).filter (fun m => m.target = peer) =
      [⟨peer,a.dst,tunIp,rtt⟩] := by
    have one : peers.filter (fun p => p = peer) = [peer] := by
      rw [List.filter_eq,List.count_eq_one_of_mem unique connected]
      rfl
    rw [List.filter_map]
    exact congrArg (List.map _) one
  unfold sendRtMessage at ok
  split at ok
  · rename_i present
    split at ok <;> try contradiction
    cases ok
    rw [each,Announcement.route,if_neg present]
  · rename_i limit
    cases ok
    have limit := not_not.mp limit
    rw [each,Announcement.route,if_pos limit,limit]

theorem announceTold {tunIp peer : IP4} {routeCost : Int} {peers : List IP4} {calls : List Announcement} {routes : List Route}
    (unique : peers.Nodup) (connected : peer ∈ peers) (ok : announce tunIp routeCost peers calls = some routes) :
    routes.filter (fun m => m.target = peer) = calls.map (Announcement.route tunIp routeCost peer) := by
  induction calls generalizing routes with
  | nil => cases ok; rfl
  | cons a rest ih =>
    simp only [announce,bind,Option.bind_eq_some_iff] at ok
    obtain ⟨sent,here,more,later,last⟩ := ok
    cases last
    rw [List.filter_append,sendTold unique connected here,ih later]
    rfl

namespace Advertised
variable {tunIp : IP4} {routeCost : Int} {s t : Advertised} {u : Update}

theorem stepSpec (stepped : step tunIp routeCost s u t) : ∃ calls routes,
    updateRtTable s.table u.entry = some (t.table,calls) ∧ announce tunIp routeCost u.peers calls = some routes ∧
    t.calls = s.calls ++ calls ∧ t.routes = s.routes ++ routes := by
  simp only [step,handle,bind,Option.bind_eq_some_iff] at stepped
  obtain ⟨⟨table,calls⟩,updated,routes,sent,last⟩ := stepped
  cases last
  exact ⟨calls,routes,updated,sent,rfl,rfl⟩

theorem keyedRun {updates : List Update} (run : Run (Keeping (step tunIp routeCost) Limited) start updates s) :
    Keyed s.table ∧ Mirrors s.calls s.table := by
  refine @Run.invariant _ _ _ _ (fun s => Keyed s.table ∧ Mirrors s.calls s.table)
    ⟨fun _ _ found => by simp [start] at found,fun _ => rfl⟩ ?_ _ _ run
  rintro s u t ⟨keyed,mirrors⟩ ⟨stepped,limited⟩
  obtain ⟨calls,routes,updated,_,told,_⟩ := stepSpec stepped
  rw [told]
  exact ⟨keyedUpdate keyed updated,updateMirrors keyed mirrors limited updated⟩

theorem neighbourTold {peer : IP4} {updates : List Update}
    (run : Run (Keeping (step tunIp routeCost) Limited) start updates s)
    (throughout : ∀ u ∈ updates, u.peers.Nodup ∧ peer ∈ u.peers) :
    s.routes.filter (fun m => m.target = peer) = s.calls.map (Announcement.route tunIp routeCost peer) := by
  induction run with
  | nil => rfl
  | @snoc updates s u t before last ih =>
    obtain ⟨calls,routes,_,sent,told,sending⟩ := stepSpec last.1
    obtain ⟨unique,connected⟩ := throughout u (by simp)
    rw [told,sending,List.filter_append,List.map_append,announceTold unique connected sent,
      ih fun v member => throughout v (List.mem_append_left _ member)]

theorem advertsMirror {updates : List Update} (run : Run (Keeping (step tunIp routeCost) Limited) start updates s) :
    Mirrors s.calls s.table ∧
    (∀ u t, step tunIp routeCost s u t → ∃ calls, t.calls = s.calls ++ calls ∧ Tells s.table u.entry t.table calls) ∧
    ∀ peer, (∀ u ∈ updates, u.peers.Nodup ∧ peer ∈ u.peers) →
      s.routes.filter (fun m => m.target = peer) = s.calls.map (Announcement.route tunIp routeCost peer) := by
  obtain ⟨keyed,mirrors⟩ := keyedRun run
  refine ⟨mirrors,fun u t stepped => ?_,fun peer throughout => neighbourTold run throughout⟩
  obtain ⟨calls,_,updated,_,told,_⟩ := stepSpec stepped
  exact ⟨calls,told,updateTells keyed updated⟩

/- The neighbour is measured twice with one result. -/
def neighbour : IP4 := ⟨10,0,0,2⟩
def again : Update := ⟨⟨neighbour,neighbour,10⟩,[neighbour]⟩

theorem refreshTold : ∃ s t, Run (Keeping (step ⟨10,0,0,1⟩ 5) Limited) start [again] s ∧
    Keeping (step ⟨10,0,0,1⟩ 5) Limited s again t ∧ t.table = s.table ∧ t.calls = s.calls ++ [⟨neighbour,10⟩] ∧
    t.routes = s.routes ++ [⟨neighbour,neighbour,⟨10,0,0,1⟩,15⟩] := by
  have below : (⟨AList.insert neighbour ⟨neighbour,neighbour,10⟩ ∅,[⟨neighbour,10⟩],[⟨neighbour,neighbour,⟨10,0,0,1⟩,15⟩]⟩ : Advertised).Limited := by
    intro dst e found
    rw [Table.lookupInsert] at found
    split at found
    · cases found; decide
    · cases found
  have first : Run (Keeping (step ⟨10,0,0,1⟩ 5) Limited) start [again] _ := .snoc .nil ⟨rfl,below⟩
  exact ⟨_,_,first,⟨rfl,below⟩,rfl,rfl,rfl⟩

/- A client measures a neighbour, learns a route through it, measures it again and loses it. -/
def beyond : IP4 := ⟨10,0,0,3⟩
def measured : List Update :=
  [⟨neighbour,neighbour,10⟩,⟨beyond,neighbour,20⟩,⟨neighbour,neighbour,15⟩,⟨neighbour,neighbour,RTT_LIMIT⟩].map
    (fun entry => ⟨entry,[neighbour]⟩)

def limited (s : Advertised) : Bool := s.table.entries.all (fun e => e.2.rtt < RTT_LIMIT)

theorem limitedMeans {s : Advertised} (ok : limited s = true) : s.Limited := by
  intro dst e found
  exact of_decide_eq_true (List.all_eq_true.mp ok _ (Table.lookupSome.mp found))

theorem measuredMirror : ∃ s, Run (Keeping (step ⟨10,0,0,1⟩ 5) Limited) start measured s ∧ Mirrors s.calls s.table ∧
    s.routes.map Route.rtt = [15,35,20,RTT_LIMIT,RTT_LIMIT] := by
  have outcome : (execute (fun s u => (handle ⟨10,0,0,1⟩ 5 s u).filter limited) start measured).map
      (fun s => s.routes.map Route.rtt) = some [15,35,20,RTT_LIMIT,RTT_LIMIT] := by decide +kernel
  obtain ⟨s,ok,sent⟩ := Option.map_eq_some_iff.mp outcome
  have run : Run (Keeping (step ⟨10,0,0,1⟩ 5) Limited) start measured s := by
    refine executeRun (fun s u t taken => ?_) ok
    obtain ⟨handled,below⟩ := Option.filter_eq_some_iff.mp taken
    exact ⟨handled,limitedMeans below⟩
  exact ⟨s,run,(advertsMirror run).1,sent⟩

end Advertised

end Candy.Peer
