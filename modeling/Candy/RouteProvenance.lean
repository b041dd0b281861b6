import Candy.Legs
import Candy.Relay
import Candy.RouteAdverts

/-! Where the routes of a network of relays come from. Whatever is announced, lost,
delayed or reordered, every route in every table stands for a path of legs that were
measured in this run, and its rtt is their sum with the relay cost of each node between. -/
namespace Candy.Relay
open Peer Runs Legs

def Measured (events : List Event) (leg : Leg IP4) : Prop := ∃ peers, .measured leg.src leg.dst leg.length peers ∈ events

/- Some measured path from i to d is this long. -/
def Reaches (cost : IP4 → Int) (events : List Event) (i d : IP4) (rtt : Int) : Prop :=
  ∃ legs, Path i d legs ∧ (∀ leg ∈ legs, Measured events leg) ∧ total cost legs = rtt

def Explains (cost : IP4 → Int) (events : List Event) (i d : IP4) (e : PeerRouteEntry) : Prop :=
  ∃ legs, Path i d legs ∧ (∀ leg ∈ legs, Measured events leg) ∧ total cost legs = e.rtt ∧ e.next ∈ legs.map Leg.dst

structure Grounded (cost : IP4 → Int) (events : List Event) (s : State) : Prop where
  sane : ∀ i, Sane i (s.tables i)
  routes : ∀ i d e, (s.tables i).lookup d = some e → Explains cost events i d e
  foreign : ∀ m ∈ s.network, m.next ≠ m.dst
  adverts : ∀ m ∈ s.network, withdrawn m.rtt = true ∨ Reaches cost events m.next m.dst (m.rtt - cost m.next)

section
variable {cost : IP4 → Int} {events : List Event} {s t : State} {i d : IP4}

theorem Measured.later {leg : Leg IP4} (measured : Measured events leg) (e : Event) : Measured (events ++ [e]) leg := by
  obtain ⟨peers,member⟩ := measured
  exact ⟨peers,List.mem_append_left _ member⟩

theorem Explains.reaches {e : PeerRouteEntry} (explains : Explains cost events i d e) : Reaches cost events i d e.rtt := by
  obtain ⟨legs,path,measured,sum,_⟩ := explains
  exact ⟨legs,path,measured,sum⟩

theorem Grounded.later (grounded : Grounded cost events s) (e : Event) : Grounded cost (events ++ [e]) s where
  sane := grounded.sane
  foreign := grounded.foreign
  routes i d r found := by
    obtain ⟨legs,path,measured,rest⟩ := grounded.routes i d r found
    exact ⟨legs,path,fun leg member => (measured leg member).later e,rest⟩
  adverts m member := by
    refine (grounded.adverts m member).imp_right ?_
    rintro ⟨legs,path,measured,sum⟩
    exact ⟨legs,path,fun leg member => (measured leg member).later e,sum⟩

theorem Grounded.forget (grounded : Grounded cost events s) (m : Route) :
    Grounded cost events {s with network := s.network.erase m} :=
  ⟨grounded.sane,grounded.routes,fun m' member => grounded.foreign m' (List.mem_of_mem_erase member),
    fun m' member => grounded.adverts m' (List.mem_of_mem_erase member)⟩

theorem announceRoutes {peers : List IP4} {calls : List Announcement} {routes : List Route} {routeCost : Int}
    (ok : announce i routeCost peers calls = some routes) : ∀ m ∈ routes, ∃ a ∈ calls, m = a.route i routeCost m.target := by
  induction calls generalizing routes with
  | nil => cases ok; simp
  | cons a rest ih =>
    simp only [announce,bind,Option.bind_eq_some_iff] at ok
    obtain ⟨sent,here,more,later,last⟩ := ok
    cases last
    intro m member
    rcases List.mem_append.mp member with first | second
    · refine ⟨a,List.mem_cons_self ..,?_⟩
      unfold sendRtMessage at here
      split at here
      · rename_i present
        split at here <;> try contradiction
        cases here
        obtain ⟨peer,_,rfl⟩ := List.mem_map.mp first
        simp [Announcement.route,present]
      · rename_i limit
        cases here
        obtain ⟨peer,_,rfl⟩ := List.mem_map.mp first
        have limit := not_not.mp limit
        simp [Announcement.route,limit]
    · obtain ⟨b,inside,same⟩ := ih later m second
      exact ⟨b,List.mem_cons_of_mem _ inside,same⟩

structure Given (cost : IP4 → Int) (events : List Event) (i : IP4) (entry : PeerRouteEntry) : Prop where
  foreign : entry.dst ≠ i
  direct : entry.dst = entry.next → withdrawn entry.rtt = false → Measured events ⟨i,entry.dst,entry.rtt⟩
  relayed : entry.dst ≠ entry.next → withdrawn entry.rtt = false → Reaches cost events entry.next entry.dst (entry.rtt - cost entry.next)

theorem storedExplains (grounded : Grounded cost events s) {entry : PeerRouteEntry} {rtt : Int} (given : Given cost events i entry)
    (stores : Stores (s.tables i) entry rtt) : Explains cost events i entry.dst {entry with rtt := rtt} := by
  by_cases direct : entry.dst = entry.next
  · have measured := given.direct direct stores.present
    refine ⟨[⟨i,entry.dst,entry.rtt⟩],.one ⟨i,entry.dst,entry.rtt⟩,?_,(stores.direct direct).symm,?_⟩
    · intro leg member
      exact List.mem_singleton.mp member ▸ measured
    · exact List.mem_singleton.mpr direct.symm
  · obtain ⟨via,through,sum⟩ := stores.relayed direct
    obtain ⟨front,here,legs,length,_⟩ := grounded.routes i entry.next via through
    obtain ⟨rest,there,more,behind⟩ := given.relayed direct stores.present
    refine ⟨front ++ rest,here.append there,?_,?_,?_⟩
    · intro leg member
      exact (List.mem_append.mp member).elim (legs leg) (more leg)
    · change total cost (front ++ rest) = rtt
      rw [here.totalAppend there,length,behind,sum]
      omega
    · rw [List.map_append]
      exact List.mem_append_left _ here.reached

theorem groundedUpdate (grounded : Grounded cost events s) {peers : List IP4} {entry : PeerRouteEntry} {calls : List Announcement}
    (given : Given cost events i entry) (ok : update cost s i peers entry = some (t,calls)) : Grounded cost events t := by
  obtain ⟨table,routes,changed,announced,rfl⟩ := updateParts ok
  have sane := grounded.sane i
  have spec := updateSpec sane changed
  have messages := announceRoutes announced
  -- the table of i, whatever the update did
  have own : ∀ d e, table.lookup d = some e → Explains cost events i d e := by
    intro d e found
    cases spec with
    | removed fewer => exact grounded.routes i d e (fewer d e found)
    | stored stores =>
      rw [Table.lookupInsert] at found
      split at found
      · rename_i same
        cases found
        exact same ▸ storedExplains grounded given stores
      · exact grounded.routes i d e found
  -- what it announces is withdrawn, or is in the table now
  have said : ∀ a ∈ calls, a.dst ≠ i ∧ (a.rtt = RTT_LIMIT ∨ Reaches cost events i a.dst a.rtt) := by
    intro a member
    cases spec with
    | removed _ withdrawals =>
      obtain ⟨limit,_,before⟩ := withdrawals a member
      refine ⟨?_,.inl limit⟩
      intro same
      cases here : (s.tables i).lookup a.dst with
      | none => exact before here
      | some e => rw [same] at here; exact sane.foreign e here
    | stored stores =>
      cases List.mem_singleton.mp member
      exact ⟨given.foreign,.inr (storedExplains grounded given stores).reaches⟩
  have new : ∀ m ∈ routes, m.next ≠ m.dst ∧ (withdrawn m.rtt = true ∨ Reaches cost events m.next m.dst (m.rtt - cost m.next)) := by
    intro m member
    obtain ⟨a,inside,same⟩ := messages m member
    obtain ⟨away,known⟩ := said a inside
    rw [same]
    refine ⟨Ne.symm away,?_⟩
    by_cases limit : a.rtt = RTT_LIMIT
    · left
      change withdrawn (if a.rtt = RTT_LIMIT then RTT_LIMIT else _) = true
      rw [if_pos limit]
      decide
    · right
      change Reaches cost events i a.dst ((if a.rtt = RTT_LIMIT then RTT_LIMIT else a.rtt + cost i) - cost i)
      rw [if_neg limit,add_sub_cancel_right]
      exact known.resolve_left limit
  constructor
  case sane =>
    intro k
    change Sane k (Function.update s.tables i table k)
    by_cases same : k = i
    · subst same
      rw [Function.update_self]
      exact saneUpdate sane given.foreign changed
    · rw [Function.update_of_ne same]
      exact grounded.sane k
  case routes =>
    intro k d e found
    change (Function.update s.tables i table k).lookup d = some e at found
    by_cases same : k = i
    · subst same
      rw [Function.update_self] at found
      exact own d e found
    · rw [Function.update_of_ne same] at found
      exact grounded.routes k d e found
  case foreign =>
    intro m member
    exact (List.mem_append.mp member).elim (grounded.foreign m) fun later => (new m later).1
  case adverts =>
    intro m member
    exact (List.mem_append.mp member).elim (grounded.adverts m) fun later => (new m later).2

theorem groundedStep {e : Event} (grounded : Grounded cost events s) (stepped : step cost s e t) : Grounded cost (events ++ [e]) t := by
  have before := grounded.later e
  obtain ⟨i,calls,handled⟩ := stepped
  cases e with
  | measured j d rtt peers =>
    simp only [handle] at handled
    split at handled <;> try contradiction
    rename_i enabled
    obtain ⟨⟨t,said⟩,ok,same⟩ := Option.map_eq_some_iff.mp handled
    cases same
    exact groundedUpdate before ⟨Ne.symm enabled.1,fun _ _ => ⟨peers,by simp⟩,fun other => absurd rfl other⟩ ok
  | linkLost j d peers =>
    simp only [handle] at handled
    split at handled <;> try contradiction
    rename_i enabled
    obtain ⟨⟨t,said⟩,ok,same⟩ := Option.map_eq_some_iff.mp handled
    cases same
    have gone : withdrawn RTT_LIMIT = true := by decide
    exact groundedUpdate before ⟨Ne.symm enabled.1,fun _ live => absurd (gone.symm.trans live) (by simp),fun other => absurd rfl other⟩ ok
  | dropped m =>
    simp only [handle] at handled
    split at handled <;> try contradiction
    cases handled
    exact before.forget m
  | delivered m peers =>
    simp only [handle] at handled
    split at handled <;> try contradiction
    rename_i enabled
    split at handled
    · rename_i other
      obtain ⟨⟨t,said⟩,ok,same⟩ := Option.map_eq_some_iff.mp handled
      cases same
      refine groundedUpdate (before.forget m) ⟨other,fun direct => ?_,fun _ live => ?_⟩ ok
      · exact absurd direct.symm (before.foreign m enabled.1)
      · rcases before.adverts m enabled.1 with gone | reaches
        · exact absurd (live.symm.trans gone) (by simp)
        · exact reaches
    · cases handled
      exact before.forget m

theorem startGrounded (cost : IP4 → Int) : Grounded cost [] State.start :=
  ⟨(startOrdered cost IP4.zero).sane,fun _ _ _ found => by simp [State.start] at found,
    fun _ member => by simp [State.start] at member,fun _ member => by simp [State.start] at member⟩

theorem groundedRun (run : Run (step cost) State.start events s) : Grounded cost events s := by
  induction run with
  | nil => exact startGrounded cost
  | snoc before last ih => exact groundedStep ih last

end

theorem routesMeasured (cost : IP4 → Int) (events : List Event) (s : State) (run : Run (step cost) State.start events s) (i d : IP4)
    (e : PeerRouteEntry) (found : (s.tables i).lookup d = some e) : Explains cost events i d e ∧
      ∀ least : IP4 → IP4 → Int, (∀ i j d, least i d ≤ least i j + cost j + least j d) →
        (∀ leg, Measured events leg → least leg.src leg.dst ≤ leg.length) → least i d ≤ e.rtt := by
  have explains := (groundedRun run).routes i d e found
  refine ⟨explains,fun least triangle links => ?_⟩
  obtain ⟨legs,path,measured,sum,_⟩ := explains
  rw [← sum]
  exact path.bound triangle fun leg member => links leg (measured leg member)

theorem learntMeasured : ∃ s e, Run (step fun _ => 1) State.start learnt s ∧ (s.tables (client 1)).lookup (client 4) = some e ∧
    e.rtt = 21 ∧ e.next = client 2 ∧ Explains (fun _ => 1) learnt (client 1) (client 4) e ∧
      ∀ least : IP4 → IP4 → Int, (∀ i j d, least i d ≤ least i j + 1 + least j d) →
        (∀ leg, Measured learnt leg → least leg.src leg.dst ≤ leg.length) → least (client 1) (client 4) ≤ e.rtt := by
  have outcome : (execute (advance fun _ => 1) State.start learnt).map (fun s => (s.tables (client 1)).lookup (client 4)) =
      some (some ⟨client 4,client 2,21⟩) := by decide +kernel
  obtain ⟨s,ok,found⟩ := Option.map_eq_some_iff.mp outcome
  have run : Run (step fun _ => 1) State.start learnt s := executeRun (fun _ _ _ => advanceStep) ok
  obtain ⟨explains,least⟩ := routesMeasured (fun _ => 1) learnt s run (client 1) (client 4) _ found
  exact ⟨s,_,run,found,rfl,rfl,explains,least⟩

end Candy.Relay
