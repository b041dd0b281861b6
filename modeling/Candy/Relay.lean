import Candy.RouteTable
import Candy.Runs
import Mathlib.Logic.Relation

/-! The clients of one network as relays. Every client measures its peers, loses
them, and announces each change to whoever it is connected to; announcements wait
in the network until they are delivered, in any order, or dropped. Nothing in the
protocol keeps routes from forming a loop. What does is a potential: the least rtt
a client has announced while others depended on it, its floor. As long as no relay
route is taken from an announcement above the floor, floors fall along every route. -/
namespace Candy.Relay
open Peer Runs

structure State where
  tables : IP4 → RtTable
  network : List Route

def State.start : State := ⟨fun _ => ∅,[]⟩

/- peers are the clients connected at that moment, never the client itself. -/
inductive Event where
  | measured (i d : IP4) (rtt : Int) (peers : List IP4)
  | linkLost (i d : IP4) (peers : List IP4)
  | delivered (m : Route) (peers : List IP4)
  | dropped (m : Route)
  deriving DecidableEq, Repr

def announce (tunIp : IP4) (routeCost : Int) (peers : List IP4) : List Announcement → Option (List Route)
  | [] => some []
  | a::rest => do
    let sent ← sendRtMessage tunIp routeCost peers a
    let more ← announce tunIp routeCost peers rest
    some (sent ++ more)

def update (cost : IP4 → Int) (s : State) (i : IP4) (peers : List IP4) (entry : PeerRouteEntry) :
    Option (State × List Announcement) := do
  let (table,calls) ← updateRtTable (s.tables i) entry
  let routes ← announce i (cost i) peers calls
  some (⟨Function.update s.tables i table,s.network ++ routes⟩,calls)

/- handleDelayMessage, Peer::tick and handleRouteMessage. The client is named that
announced something. -/
def handle (cost : IP4 → Int) (s : State) : Event → Option (State × IP4 × List Announcement)
  | .measured i d rtt peers =>
    if i ≠ d ∧ i ∉ peers ∧ fits rtt then
      (update cost s i peers ⟨d,d,rtt⟩).map (fun out => (out.1,i,out.2)) else none
  | .linkLost i d peers =>
    if i ≠ d ∧ i ∉ peers then
      (update cost s i peers ⟨d,d,RTT_LIMIT⟩).map (fun out => (out.1,i,out.2)) else none
  | .delivered m peers =>
    if m ∈ s.network ∧ m.target ∉ peers then
      let s := {s with network := s.network.erase m}
      if m.dst ≠ m.target then
        (update cost s m.target peers ⟨m.dst,m.next,m.rtt⟩).map (fun out => (out.1,m.target,out.2))
      else some (s,m.target,[])
    else none
  | .dropped m =>
    if m ∈ s.network then some ({s with network := s.network.erase m},m.target,[]) else none

def step (cost : IP4 → Int) (s : State) (e : Event) (t : State) : Prop :=
  ∃ i calls, handle cost s e = some (t,i,calls)

/- Where a client hands a packet for d that is not its own. -/
def Hop (s : State) (d i j : IP4) : Prop := i ≠ d ∧ ∃ e, (s.tables i).lookup d = some e ∧ e.next = j

def LoopFree (s : State) (d : IP4) : Prop := ∀ i, ¬ Relation.TransGen (Hop s d) i i

/- Another client's route to d goes through i, or an announcement of i for d that
is not a withdrawal is still on its way. -/
def Depended (s : State) (i d : IP4) : Prop :=
  (∃ k e, (s.tables k).lookup d = some e ∧ e.next = i) ∨
  ∃ m ∈ s.network, m.dst = d ∧ m.next = i ∧ withdrawn m.rtt = false

abbrev Floor := IP4 → IP4 → Option Int

/- The floor follows the announcements: it falls while someone depends on the
client and starts anew once nobody does. It never decides what a client does. -/
open Classical in
noncomputable def lower (s : State) (i : IP4) (floor : Floor) (a : Announcement) : Floor := fun j d =>
  if j = i ∧ d = a.dst then
    if Depended s i d then some (min ((floor i d).getD a.rtt) a.rtt) else some a.rtt
  else floor j d

structure Watched where
  state : State
  floor : Floor

def Watched.start : Watched := ⟨State.start,fun _ _ => none⟩

noncomputable def Watched.after (w : Watched) (s : State) (i : IP4) (calls : List Announcement) : Watched :=
  ⟨s,calls.foldl (lower w.state i) w.floor⟩

def watched (cost : IP4 → Int) (w : Watched) (e : Event) (w' : Watched) : Prop :=
  ∃ s i calls, handle cost w.state e = some (s,i,calls) ∧ w' = w.after s i calls

/- An announcement for d that makes the client change its next hop lies within its
floor, unless nobody depends on the client. -/
def Feasible (d : IP4) (w : Watched) : Event → Prop
  | .delivered m _ => m.dst = d → withdrawn m.rtt = false →
    (∃ via, (w.state.tables m.target).lookup m.next = some via ∧
      yields ((w.state.tables m.target).lookup d) m.next (via.rtt + m.rtt) = true) →
    (∀ old, (w.state.tables m.target).lookup d = some old → old.next ≠ m.next) →
    Depended w.state m.target d → ∀ f, w.floor m.target d = some f → m.rtt ≤ f
  | _ => True

theorem lowerSpec (s : State) (i : IP4) (floor : Floor) (a : Announcement) :
    (∀ j d, j ≠ i → lower s i floor a j d = floor j d) ∧
    (∀ j d, d ≠ a.dst → lower s i floor a j d = floor j d) ∧
    (∀ d f, Depended s i d → floor i d = some f → ∃ f', lower s i floor a i d = some f' ∧ f' ≤ f) ∧
    ∃ f, lower s i floor a i a.dst = some f ∧ f ≤ a.rtt ∧
      ∀ c, c < a.rtt → (Depended s i a.dst → ∀ g, floor i a.dst = some g → c < g) → c < f := by
  refine ⟨fun j d away => if_neg (by simp [away]),fun j d other => if_neg (by simp [other]),
    fun d f depended found => ?_,?_⟩
  · by_cases same : d = a.dst
    · refine ⟨min f a.rtt,?_,min_le_left _ _⟩
      simp only [lower,same,and_self,if_true]
      rw [← same,if_pos depended,found]
      rfl
    · exact ⟨f,by simp [lower,same,found],le_refl f⟩
  · by_cases depended : Depended s i a.dst
    · refine ⟨min ((floor i a.dst).getD a.rtt) a.rtt,by simp [lower,depended],min_le_right _ _,fun c below above => ?_⟩
      refine lt_min ?_ below
      cases known : floor i a.dst with
      | none => exact below
      | some g => exact above depended g known
    · exact ⟨a.rtt,by simp [lower,depended],le_refl _,fun c below _ => below⟩

theorem foldSpec (s : State) (i : IP4) (calls : List Announcement) (floor : Floor) :
    (∀ j d, j ≠ i → calls.foldl (lower s i) floor j d = floor j d) ∧
    (∀ j d, (∀ a ∈ calls, d ≠ a.dst) → calls.foldl (lower s i) floor j d = floor j d) ∧
    ∀ d f, Depended s i d → floor i d = some f → ∃ f', calls.foldl (lower s i) floor i d = some f' ∧ f' ≤ f := by
  induction calls generalizing floor with
  | nil => exact ⟨fun _ _ _ => rfl,fun _ _ _ => rfl,fun _ f _ found => ⟨f,found,le_refl f⟩⟩
  | cons a rest ih =>
    obtain ⟨others,quiet,falls⟩ := ih (lower s i floor a)
    obtain ⟨one,two,three,_⟩ := lowerSpec s i floor a
    refine ⟨fun j d away => (others j d away).trans (one j d away),fun j d none => ?_,fun d f depended found => ?_⟩
    · exact (quiet j d fun b member => none b (by simp [member])).trans (two j d (none a (by simp)))
    · obtain ⟨f₁,here,below⟩ := three d f depended found
      obtain ⟨f₂,there,further⟩ := falls d f₁ depended here
      exact ⟨f₂,there,le_trans further below⟩

theorem announceSpec {tunIp routeCost peers} {calls : List Announcement} {routes}
    (ok : announce tunIp routeCost peers calls = some routes) : ∀ m ∈ routes, m.target ∈ peers ∧ m.next = tunIp ∧
      ∃ a ∈ calls, m.dst = a.dst ∧ (withdrawn m.rtt = true ∨ m.rtt = a.rtt + routeCost) := by
  induction calls generalizing routes with
  | nil => cases ok; simp
  | cons a rest ih =>
    simp only [announce,bind,Option.bind_eq_some_iff] at ok
    obtain ⟨sent,here,more,later,last⟩ := ok
    cases last
    intro m member
    rcases List.mem_append.mp member with first | second
    · obtain ⟨listed,next,dst,rtt⟩ := sendSpec here m first
      exact ⟨listed,next,a,by simp,dst,rtt⟩
    · obtain ⟨listed,next,b,inside,rest⟩ := ih later m second
      exact ⟨listed,next,b,by simp [inside],rest⟩

/- Floors fall along every relay route to d, and an announcement on its way leaves
its sender's floor room for the relay cost. -/
structure Ordered (cost : IP4 → Int) (d : IP4) (w : Watched) : Prop where
  sane : ∀ i, Sane i (w.state.tables i)
  sent : ∀ m ∈ w.state.network, m.next ≠ m.dst ∧ m.target ≠ m.next
  edge : ∀ i e, (w.state.tables i).lookup d = some e → e.next ≠ d →
    ∃ fi fj, w.floor i d = some fi ∧ w.floor e.next d = some fj ∧ fj < fi
  advert : ∀ m ∈ w.state.network, m.dst = d → withdrawn m.rtt = false →
    ∃ f, w.floor m.next d = some f ∧ f + cost m.next ≤ m.rtt

theorem orderedLoopFree {cost d w} (ordered : Ordered cost d w) : LoopFree w.state d := by
  have falls {i j : IP4} (path : Relation.TransGen (Hop w.state d) i j) (before : j ≠ d) :
      ∃ fi fj, w.floor i d = some fi ∧ w.floor j d = some fj ∧ fj < fi := by
    induction path with
    | single hop =>
      obtain ⟨_,e,found,rfl⟩ := hop
      exact ordered.edge i e found before
    | tail _ hop ih =>
      obtain ⟨inner,e,found,rfl⟩ := hop
      obtain ⟨fi,fb,start,middle,first⟩ := ih inner
      obtain ⟨fb',fj,middle',last,second⟩ := ordered.edge _ e found before
      cases Option.some.inj (middle.symm.trans middle')
      exact ⟨fi,fj,start,last,lt_trans second first⟩
  intro i loop
  have inner : i ≠ d := by
    obtain ⟨_,hop,_⟩ := Relation.TransGen.head'_iff.mp loop
    exact hop.1
  obtain ⟨fi,fj,left,right,below⟩ := falls loop inner
  cases Option.some.inj (left.symm.trans right)
  exact lt_irrefl _ below

theorem Ordered.forget {cost d w} (ordered : Ordered cost d w) (m : Route) :
    Ordered cost d ⟨{w.state with network := w.state.network.erase m},w.floor⟩ :=
  ⟨ordered.sane,fun m' member => ordered.sent m' (List.mem_of_mem_erase member),ordered.edge,
    fun m' member => ordered.advert m' (List.mem_of_mem_erase member)⟩

theorem dependedForget {s : State} {m : Route} {i d : IP4}
    (depended : Depended {s with network := s.network.erase m} i d) : Depended s i d := by
  rcases depended with route | ⟨m',member,rest⟩
  · exact .inl route
  · exact .inr ⟨m',List.mem_of_mem_erase member,rest⟩

theorem updateParts {cost s i peers entry t calls} (ok : update cost s i peers entry = some (t,calls)) :
    ∃ table routes, updateRtTable (s.tables i) entry = some (table,calls) ∧
      announce i (cost i) peers calls = some routes ∧
      t = ⟨Function.update s.tables i table,s.network ++ routes⟩ := by
  simp only [update,bind,Option.bind_eq_some_iff] at ok
  obtain ⟨⟨table,calls'⟩,changed,routes,sent,last⟩ := ok
  cases last
  exact ⟨table,routes,changed,sent,rfl⟩

/- What an update needs to know about the entry it stores for d. -/
structure Below (d : IP4) (s : State) (floor : Floor) (i : IP4) (entry : PeerRouteEntry) : Prop where
  apart : entry.next ≠ i
  sender : ∃ f, floor entry.next d = some f ∧ f < entry.rtt
  within : (∃ via, (s.tables i).lookup entry.next = some via ∧
    yields ((s.tables i).lookup d) entry.next (via.rtt + entry.rtt) = true) →
    (∀ old, (s.tables i).lookup d = some old → old.next ≠ entry.next) →
    Depended s i d → ∀ f, floor i d = some f → entry.rtt ≤ f

section
variable {cost : IP4 → Int} {d i : IP4} {w : Watched} {peers : List IP4} {entry : PeerRouteEntry}
  {t old : State} {calls : List Announcement} {table : RtTable}

theorem announcedFloor {floor : Floor} (sane : Sane i (w.state.tables i)) (foreign : entry.dst ≠ i)
    (spec : Updated (w.state.tables i) entry table calls) : ∀ a ∈ calls, a.dst ≠ i ∧ (a.rtt = RTT_LIMIT ∨
      (a.dst = d → ∃ f, calls.foldl (lower old i) floor i d = some f ∧ f ≤ a.rtt)) := by
  intro a member
  cases spec with
  | removed _ withdrawals =>
    obtain ⟨limit,_,before⟩ := withdrawals a member
    refine ⟨?_,.inl limit⟩
    intro same
    cases here : (w.state.tables i).lookup a.dst with
    | none => exact before here
    | some e => rw [same] at here; exact sane.foreign e here
  | stored stores =>
    cases List.mem_singleton.mp member
    refine ⟨foreign,.inr ?_⟩
    intro same
    subst same
    obtain ⟨f,here,bound,_⟩ := (lowerSpec old i floor ⟨entry.dst,_⟩).2.2.2
    exact ⟨f,here,bound⟩

theorem ownEdge (ordered : Ordered cost d w) (spec : Updated (w.state.tables i) entry table calls)
    (tables : old.tables = w.state.tables)
    (below : entry.dst = d → entry.dst ≠ entry.next → withdrawn entry.rtt = false → Below d old w.floor i entry)
    {e : PeerRouteEntry} (found : table.lookup d = some e) (relayed : e.next ≠ d) :
    ∃ fi fj, calls.foldl (lower old i) w.floor i d = some fi ∧
      calls.foldl (lower old i) w.floor e.next d = some fj ∧ fj < fi := by
  obtain ⟨elsewhere,unsaid,_⟩ := foldSpec old i calls w.floor
  have before (silent : ∀ a ∈ calls, d ≠ a.dst) (kept : (w.state.tables i).lookup d = some e) :
      ∃ fi fj, calls.foldl (lower old i) w.floor i d = some fi ∧
        calls.foldl (lower old i) w.floor e.next d = some fj ∧ fj < fi := by
    obtain ⟨fi,fj,here,there,less⟩ := ordered.edge i e kept relayed
    exact ⟨fi,fj,(unsaid i d silent).trans here,(unsaid e.next d silent).trans there,less⟩
  cases spec with
  | removed fewer withdrawals =>
    refine before (fun a member same => ?_) (fewer d e found)
    rw [same,(withdrawals a member).2.1] at found
    contradiction
  | @stored rtt stores =>
    rw [Table.lookupInsert] at found
    split at found
    · rename_i own
      cases Option.some.inj found
      have distinct : entry.dst ≠ entry.next := by rw [← own]; exact Ne.symm relayed
      obtain ⟨apart,⟨f,known,less⟩,within⟩ := below own.symm distinct stores.present
      obtain ⟨g,here,_,above⟩ := (lowerSpec old i w.floor ⟨entry.dst,_⟩).2.2.2
      obtain ⟨via,through,sum⟩ := stores.relayed distinct
      have wins := stores.wins
      rw [sum,← own,← tables] at wins
      rw [← tables] at through
      refine ⟨g,f,by rw [own]; exact here,(elsewhere entry.next d apart).trans known,?_⟩
      refine above f (lt_of_lt_of_le less stores.longer) fun depended g' start => ?_
      rw [← own] at depended start
      by_cases refreshed : ∃ kept, (w.state.tables i).lookup d = some kept ∧ kept.next = entry.next
      · -- the edge is the one there was
        obtain ⟨kept,there,same⟩ := refreshed
        obtain ⟨fi,fj,mine,next,falls⟩ := ordered.edge i kept there (by rw [same]; exact relayed)
        rw [same] at next
        cases Option.some.inj (mine.symm.trans start)
        cases Option.some.inj (next.symm.trans known)
        exact falls
      · rw [← tables] at refreshed
        have other : ∀ kept, (old.tables i).lookup d = some kept → kept.next ≠ entry.next :=
          fun kept there same => refreshed ⟨kept,there,same⟩
        exact lt_of_lt_of_le less (within ⟨via,through,wins⟩ other depended g' start)
    · rename_i other
      refine before (fun a member => ?_) found
      rw [List.mem_singleton.mp member]
      exact other

theorem otherEdge (ordered : Ordered cost d w) (wider : ∀ i d, Depended w.state i d → Depended old i d)
    {k : IP4} {e : PeerRouteEntry} (away : k ≠ i) (found : (w.state.tables k).lookup d = some e) (relayed : e.next ≠ d) :
    ∃ fi fj, calls.foldl (lower old i) w.floor k d = some fi ∧
      calls.foldl (lower old i) w.floor e.next d = some fj ∧ fj < fi := by
  obtain ⟨elsewhere,_,falls⟩ := foldSpec old i calls w.floor
  obtain ⟨fi,fj,here,there,less⟩ := ordered.edge k e found relayed
  refine ⟨fi,?_⟩
  by_cases through : e.next = i
  · rw [through] at there ⊢
    obtain ⟨f',lowered,less'⟩ := falls d fj (wider i d (.inl ⟨k,e,found,through⟩)) there
    exact ⟨f',(elsewhere k d away).trans here,lowered,lt_of_le_of_lt less' less⟩
  · exact ⟨fj,(elsewhere k d away).trans here,(elsewhere e.next d through).trans there,less⟩

theorem oldAdvert (ordered : Ordered cost d w) (wider : ∀ i d, Depended w.state i d → Depended old i d)
    {m : Route} (before : m ∈ w.state.network) (dst : m.dst = d) (live : withdrawn m.rtt = false) :
    ∃ f, calls.foldl (lower old i) w.floor m.next d = some f ∧ f + cost m.next ≤ m.rtt := by
  obtain ⟨elsewhere,_,falls⟩ := foldSpec old i calls w.floor
  obtain ⟨f,known,room⟩ := ordered.advert m before dst live
  by_cases own : m.next = i
  · rw [own] at known room ⊢
    obtain ⟨f',lowered,less⟩ := falls d f (wider i d (.inr ⟨m,before,dst,own,live⟩)) known
    exact ⟨f',lowered,by omega⟩
  · exact ⟨f,(elsewhere m.next d own).trans known,room⟩

/- Floors after the step, from what is announced: the edges out of i are new, those
into i stay above because its floor only falls while they exist. -/
theorem orderedUpdate (positive : 0 < cost i) (ordered : Ordered cost d w) (foreign : entry.dst ≠ i)
    (others : i ∉ peers) (ok : update cost w.state i peers entry = some (t,calls))
    (tables : old.tables = w.state.tables) (wider : ∀ i d, Depended w.state i d → Depended old i d)
    (below : entry.dst = d → entry.dst ≠ entry.next → withdrawn entry.rtt = false → Below d old w.floor i entry) :
    Ordered cost d ⟨t,calls.foldl (lower old i) w.floor⟩ := by
  obtain ⟨table,routes,changed,announced,rfl⟩ := updateParts ok
  have sane := ordered.sane i
  have spec := updateSpec sane changed
  have messages := announceSpec announced
  have said : ∀ a ∈ calls, a.dst ≠ i ∧ (a.rtt = RTT_LIMIT ∨
      (a.dst = d → ∃ f, calls.foldl (lower old i) w.floor i d = some f ∧ f ≤ a.rtt)) :=
    announcedFloor sane foreign spec
  refine ⟨fun k => ?_,fun m member => ?_,fun k e found relayed => ?_,fun m member dst live => ?_⟩
  · by_cases same : k = i
    · subst same
      change Sane k (Function.update w.state.tables k table k)
      rw [Function.update_self]
      exact saneUpdate sane foreign changed
    · change Sane k (Function.update w.state.tables i table k)
      rw [Function.update_of_ne same]
      exact ordered.sane k
  · rcases List.mem_append.mp member with before | new
    · exact ordered.sent m before
    · obtain ⟨listed,next,a,inside,about,_⟩ := messages m new
      refine ⟨?_,?_⟩
      · rw [next,about]; exact Ne.symm (said a inside).1
      · rw [next]; intro same; rw [same] at listed; exact others listed
  · by_cases same : k = i
    · subst same
      change (Function.update w.state.tables k table k).lookup d = some e at found
      rw [Function.update_self] at found
      exact ownEdge ordered spec tables below found relayed
    · change (Function.update w.state.tables i table k).lookup d = some e at found
      rw [Function.update_of_ne same] at found
      exact otherEdge ordered wider same found relayed
  · rcases List.mem_append.mp member with before | new
    · exact oldAdvert ordered wider before dst live
    · obtain ⟨_,next,a,inside,about,rtt⟩ := messages m new
      have sum : m.rtt = a.rtt + cost i := by
        rcases rtt with gone | sum
        · rw [live] at gone; contradiction
        · exact sum
      rcases (said a inside).2 with limit | known
      · rw [sum,limit,withdrawnLimit positive] at live
        contradiction
      · obtain ⟨f,here,bound⟩ := known (about.symm.trans dst)
        rw [next]
        exact ⟨f,here,by omega⟩

end

theorem orderedStep {cost d w e w'} (positive : ∀ i, 0 < cost i) (ordered : Ordered cost d w)
    (feasible : Feasible d w e) (stepped : watched cost w e w') : Ordered cost d w' := by
  obtain ⟨s,i,calls,handled,rfl⟩ := stepped
  cases e with
  | measured j x rtt peers =>
    simp only [handle] at handled
    split at handled <;> try contradiction
    rename_i enabled
    obtain ⟨⟨t,said⟩,ok,same⟩ := Option.map_eq_some_iff.mp handled
    cases same
    exact orderedUpdate (positive _) ordered (Ne.symm enabled.1) enabled.2.1 ok rfl (fun _ _ h => h)
      fun _ distinct => absurd rfl distinct
  | linkLost j x peers =>
    simp only [handle] at handled
    split at handled <;> try contradiction
    rename_i enabled
    obtain ⟨⟨t,said⟩,ok,same⟩ := Option.map_eq_some_iff.mp handled
    cases same
    exact orderedUpdate (positive _) ordered (Ne.symm enabled.1) enabled.2 ok rfl (fun _ _ h => h)
      fun _ distinct => absurd rfl distinct
  | dropped m =>
    simp only [handle] at handled
    split at handled <;> try contradiction
    cases handled
    exact ordered.forget m
  | delivered m peers =>
    simp only [handle] at handled
    split at handled <;> try contradiction
    rename_i enabled
    split at handled
    · rename_i foreign
      obtain ⟨⟨t,said⟩,ok,same⟩ := Option.map_eq_some_iff.mp handled
      cases same
      refine orderedUpdate (w := ⟨{w.state with network := w.state.network.erase m},w.floor⟩) (positive _)
        (ordered.forget m) foreign enabled.2 ok rfl (fun _ _ depended => dependedForget depended)
        fun dst _ live => ?_
      change m.dst = d at dst
      change withdrawn m.rtt = false at live
      obtain ⟨f,known,room⟩ := ordered.advert m enabled.1 dst live
      exact ⟨Ne.symm (ordered.sent m enabled.1).2,⟨f,known,show f < m.rtt by have := positive m.next; omega⟩,
        fun stored other depended => feasible dst live stored other depended⟩
    · cases handled
      exact ordered.forget m

theorem startOrdered (cost : IP4 → Int) (d : IP4) : Ordered cost d Watched.start :=
  ⟨fun i => ⟨fun _ _ found => by simp [Watched.start,State.start] at found,
      fun _ found => by simp [Watched.start,State.start] at found,
      fun _ _ found => by simp [Watched.start,State.start] at found⟩,
    fun _ member => by simp [Watched.start,State.start] at member,
    fun _ _ found => by simp [Watched.start,State.start] at found,
    fun _ member => by simp [Watched.start,State.start] at member⟩

theorem watchedState {cost : IP4 → Int} {events : List Event} {w : Watched}
    (run : Run (watched cost) Watched.start events w) : Run (step cost) State.start events w.state := by
  induction run with
  | nil => exact .nil
  | snoc before last ih =>
    obtain ⟨t,i,calls,handled,rfl⟩ := last
    exact .snoc ih ⟨i,calls,handled⟩

/- Every run of the network can be watched, and watching adds nothing to it. -/
theorem watchedRun {cost : IP4 → Int} {events : List Event} {s : State} :
    Run (step cost) State.start events s ↔ ∃ floor, Run (watched cost) Watched.start events ⟨s,floor⟩ := by
  constructor
  · intro run
    induction run with
    | nil => exact ⟨_,.nil⟩
    | snoc before last ih =>
      obtain ⟨floor,run⟩ := ih
      obtain ⟨i,calls,handled⟩ := last
      exact ⟨_,.snoc run ⟨_,i,calls,handled,rfl⟩⟩
  · intro holds
    obtain ⟨floor,run⟩ := holds
    exact watchedState run

theorem feasibleLoopFree (cost : IP4 → Int) (positive : ∀ i, 0 < cost i) (d : IP4) (events : List Event)
    (w : Watched) (run : Run (Guarded (watched cost) (Feasible d)) Watched.start events w) : LoopFree w.state d :=
  orderedLoopFree (run.guardedInvariant (startOrdered cost d)
    fun _ _ _ ordered feasible stepped => orderedStep positive ordered feasible stepped)

/- Client 2 reaches client 4, client 1 learns it and tells client 2 so; client 2
loses the link and only then hears its own route back. -/
def client (i : Nat) : IP4 := ⟨10,0,0,BitVec.ofNat 8 i⟩

def learnt : List Event :=
  [.measured (client 2) (client 4) 10 [client 1],.measured (client 1) (client 2) 10 [],
    .delivered ⟨client 1,client 4,client 2,11⟩ [client 2]]

/- Client 3 learns the route from client 1, and then the last leg gets slower. -/
def slower : List Event := learnt.take 2 ++
  ([.delivered ⟨client 1,client 4,client 2,11⟩ [client 2,client 3],.measured (client 3) (client 1) 5 [],
    .delivered ⟨client 3,client 4,client 1,22⟩ [],.measured (client 2) (client 4) 50 [client 1],
    .delivered ⟨client 1,client 4,client 2,51⟩ []] : List Event)

theorem slowerLoopFree : ∃ w, Run (Guarded (watched fun _ => 1) (Feasible (client 4))) Watched.start slower w ∧
    LoopFree w.state (client 4) := by
  have first : Run (Guarded (watched fun _ => 1) (Feasible (client 4))) Watched.start (slower.take 2) _ :=
    .snoc (.snoc .nil ⟨⟨_,_,_,rfl,rfl⟩,trivial⟩) ⟨⟨_,_,_,rfl,rfl⟩,trivial⟩
  have second : Run _ _ (slower.take 3) _ := .snoc first ⟨⟨_,_,_,rfl,rfl⟩,fun _ _ _ _ _ f found => by
    have unset : (none : Option Int) = some f := found
    contradiction⟩
  have third : Run _ _ (slower.take 4) _ := .snoc second ⟨⟨_,_,_,rfl,rfl⟩,trivial⟩
  have fourth : Run _ _ (slower.take 5) _ := .snoc third ⟨⟨_,_,_,rfl,rfl⟩,fun _ _ _ _ _ f found => by
    have unset : (none : Option Int) = some f := found
    contradiction⟩
  have fifth : Run _ _ (slower.take 6) _ := .snoc fourth ⟨⟨_,_,_,rfl,rfl⟩,trivial⟩
  -- client 1 is depended on and above its floor, but keeps its next hop
  have run : Run _ _ slower _ := .snoc fifth ⟨⟨_,_,_,rfl,rfl⟩,fun _ _ _ other => absurd rfl (other ⟨client 4,client 2,21⟩ rfl)⟩
  exact ⟨_,run,feasibleLoopFree (fun _ => 1) (fun _ => by decide) (client 4) slower _ run⟩

def echoed : List Event := learnt ++
  ([.measured (client 2) (client 1) 10 [],.linkLost (client 2) (client 4) [client 1],
    .delivered ⟨client 2,client 4,client 1,22⟩ []] : List Event)

def advance (cost : IP4 → Int) (s : State) (e : Event) : Option State := (handle cost s e).map (·.1)

theorem advanceStep {cost s e t} (ok : advance cost s e = some t) : step cost s e t := by
  obtain ⟨⟨u,i,calls⟩,handled,same⟩ := Option.map_eq_some_iff.mp ok
  cases same
  exact ⟨i,calls,handled⟩

theorem echoLoops : ∃ s, Run (step fun _ => 1) State.start echoed s ∧ ¬ LoopFree s (client 4) := by
  have outcome : (execute (advance fun _ => 1) State.start echoed).map (fun s =>
      ((s.tables (client 1)).lookup (client 4),(s.tables (client 2)).lookup (client 4))) =
      some (some ⟨client 4,client 2,21⟩,some ⟨client 4,client 1,32⟩) := by decide +kernel
  obtain ⟨s,ok,same⟩ := Option.map_eq_some_iff.mp outcome
  obtain ⟨first,second⟩ := Prod.mk.inj same
  refine ⟨s,executeRun (fun _ _ _ => advanceStep) ok,fun free => free (client 1) ?_⟩
  exact .tail (.single ⟨by decide,_,first,rfl⟩) ⟨by decide,_,second,rfl⟩

end Candy.Relay
