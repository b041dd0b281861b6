import Candy.UdpConeSteps

/-! What a source gets from its own socket, and what is left of it in the end. The
table is what the reaper and the teardown go through, so a session that is not in it is
never ended: one whose dial failed, or one that has fallen out of it because a close
posted for another session came after that had been reaped and replaced. -/
namespace Candy.UdpCone
open Runs Shares
open NetStack (kSessionIdle)

def went (l : List (Datagram × Bool)) : List Datagram := tried (l.filter Prod.snd)

/- Full cone, one socket for a source: nobody else's datagrams go out of it, and what it
receives goes to nobody else, in order, and for as long as the session lives without a
loss but those of a failed call. -/
structure Apart (s : State) : Prop where
  owners : ∀ fd k, s.sockets fd = some k → ∃ c, s.sessions k.dialled = some c ∧ c.fd = some fd ∧
    ∀ other d, s.sessions other = some d → d.fd = some fd → other = k.dialled
  descriptors : ∀ id c fd, s.sessions id = some c → c.fd = some fd → ∃ k, s.sockets fd = some k ∧ k.dialled = id
  watchers : ∀ fd id, s.ioWatchers.lookup fd = some id → ∃ k, s.sockets fd = some k ∧ k.dialled = id
  pcbs : ∀ src id, s.pcbs.lookup src = some id ↔ ∃ c, Started s id c ∧ c.pcb = true ∧ c.src = src
  held : ∀ src id, s.pcbs.lookup src = some id → ∃ c, s.sessions id = some c ∧ (c.self = true ∨ (id,.closeFromStack) ∈ s.stackTasks)
  flows : ∀ id c, s.sessions id = some c → tried (s.sent id) <+: s.heard id ∧ tried (s.injected id) <+: full (s.arrived id)
  passed : ∀ id c, s.sessions id = some c → (went (s.sent id)).Sublist (s.heard id) ∧ (went (s.injected id)).Sublist (full (s.arrived id))
  live : ∀ id c, s.sessions id = some c → c.closing = false →
    tried (s.sent id) ++ sends (part id s.reactorTasks) = s.heard id ∧
    tried (s.injected id) ++ replies (part id s.stackTasks) ++ full (s.unread c) = full (s.arrived id)
  givenUp : ∀ id ∈ s.undialled, ∃ c, s.sessions id = some c ∧ GivenUp c ∧ Untouched s id

def Listed (s : State) : Prop := ∀ id c, s.sessions id = some c → c.pcb = true → s.udpSessions.lookup c.src.key = some id

structure Complete (s : State) : Prop where
  coherent : Coherent s
  listed : ∀ id c, Started s id c → c.pcb = true → s.udpSessions.lookup c.src.key = some id
  finished : s.running = false → ∀ id c, Started s id c → c.pcb = false

section
variable {s t : State}

theorem wentTried (l : List (Datagram × Bool)) : (went l).Sublist (tried l) := List.filter_sublist.map _

namespace Coherent
variable (coherent : Coherent s) {id : Id} {c : SessionUdp}
include coherent

theorem either (here : s.sessions id = some c) : Good (s.view id c) ∨ GivenUp c ∧ Untouched s id := by
  by_cases left : id ∈ s.undialled
  · obtain ⟨d,there,given⟩ := coherent.givenUp id left
    cases here.symm.trans there
    exact .inr ⟨given,coherent.untouched id (.inr left)⟩
  · exact .inl (coherent.good id c ⟨here,left⟩)

theorem holder {fd : Fd} (here : s.sessions id = some c) (has : c.fd = some fd) : Started s id c := by
  refine ⟨here,fun left => ?_⟩
  obtain ⟨d,there,given⟩ := coherent.givenUp id left
  cases here.symm.trans there
  exact absurd (has.symm.trans given.fd) (Option.some_ne_none fd)

theorem flows (here : s.sessions id = some c) :
    tried (s.sent id) <+: s.heard id ∧ tried (s.injected id) <+: full (s.arrived id) := by
  rcases coherent.either here with good | ⟨_,untouched⟩
  · exact ⟨good.forth,good.back⟩
  · rw [untouched.sent,untouched.injected]
    exact ⟨List.nil_prefix,List.nil_prefix⟩

theorem live (here : s.sessions id = some c) (running : c.closing = false) :
    tried (s.sent id) ++ sends (part id s.reactorTasks) = s.heard id ∧
    tried (s.injected id) ++ replies (part id s.stackTasks) ++ full (s.unread c) = full (s.arrived id) := by
  rcases coherent.either here with good | ⟨given,untouched⟩
  · exact ⟨good.forthAll running,good.backAll running⟩
  · have unread : s.unread c = [] := by simp [State.unread,given.fd]
    rw [untouched.sent,untouched.reactor,untouched.heard,untouched.injected,untouched.stack,untouched.arrived,unread]
    exact ⟨rfl,rfl⟩

end Coherent

theorem conesApart {events : List Event} (run : Run step initial events s) : Apart s := by
  have coherent := coherentRun run
  constructor
  case owners =>
    intro fd k found
    obtain ⟨c,here,has⟩ := coherent.dialled fd k found
    exact ⟨c,here.here,has,fun other d there same => coherent.apart here (coherent.holder there same) has same⟩
  case descriptors => exact fun id c fd here has => coherent.opened id c fd (coherent.holder here has) has
  case watchers =>
    intro fd id found
    obtain ⟨⟨c,here,has⟩,_⟩ := coherent.watched fd id found
    exact coherent.opened id c fd here has
  case pcbs => exact coherent.pcbs
  case held =>
    intro src id found
    obtain ⟨c,here,has,_⟩ := (coherent.pcbs src id).mp found
    exact ⟨c,here.here,((coherent.good id c here).held has).imp_right memPart.mp⟩
  case flows => exact fun _ _ here => coherent.flows here
  case passed =>
    intro id c here
    obtain ⟨forth,back⟩ := coherent.flows here
    exact ⟨(wentTried _).trans forth.sublist,(wentTried _).trans back.sublist⟩
  case live => exact fun _ _ here running => coherent.live here running
  case givenUp =>
    intro id left
    obtain ⟨c,here,given⟩ := coherent.givenUp id left
    exact ⟨c,here,given,coherent.untouched id (.inr left)⟩

theorem sourceKeyInjective : Function.Injective Source.key := by
  rintro ⟨⟨a0,a1,a2,a3⟩,p⟩ ⟨⟨b0,b1,b2,b3⟩,q⟩ same
  simp only [Source.key,NetStack.sessionKey,WsMsg.ip4Bytes,List.cons_append,List.nil_append,List.cons.injEq,and_true] at same
  obtain ⟨rfl,rfl,rfl,rfl,low,high⟩ := same
  have port : p = q := by
    have low := congrArg BitVec.toNat low
    have high := congrArg BitVec.toNat high
    simp only [BitVec.extractLsb'_toNat,Nat.shiftRight_eq_div_pow] at low high
    bv_omega
  rw [port]

theorem Complete.change {dials : Prop} (complete : Complete s) (change : Change dials s t) {other : Id} {d : SessionUdp} (there : Started t other d)
    (has : d.pcb = true) : t.udpSessions.lookup d.src.key = some other := by
  obtain ⟨coherent,listed,_⟩ := complete
  cases change with
  | @moves id c c' here alters good table =>
    rw [table]
    by_cases same : other = id
    · subst same
      cases alters.becomes there
      rw [alters.src]
      exact listed other c here (alters.pcb has)
    · exact listed other d ((alters.still same).mp there) has
  | @ended id c c' here alters good table gone own =>
    by_cases same : other = id
    · subst same
      cases alters.becomes there
      exact absurd (has.symm.trans gone) Bool.noConfusion
    · have found := listed other d ((alters.still same).mp there) has
      have apart : d.src.key ≠ c.src.key := fun equal => same (own other (equal ▸ found))
      rw [table,Table.lookupErase,if_neg apart]
      exact found
  | made now src fd _ fresh free made =>
    subst made
    rw [madeTable]
    by_cases same : other = s.next
    · subst same
      cases madeNew.symm.trans there.here
      exact if_pos rfl
    · have before := madeBefore same there
      have apart : d.src.key ≠ src.key := by
        intro equal
        have found := (coherent.pcbs d.src other).mpr ⟨d,before,has,rfl⟩
        rw [sourceKeyInjective equal,fresh] at found
        contradiction
      rw [if_neg apart]
      exact listed other d before has
  | undialled now src _ _ failed =>
    subst failed
    exact listed other d (coherent.failedStarted.mp there) has
  | stopped _ stopped =>
    subst stopped
    exact listed other d (stoppedStarted.mp there) has

theorem Complete.down {dials : Prop} (complete : Complete s) (change : Change dials s t) (down : t.running = false) {other : Id} {d : SessionUdp}
    (there : Started t other d) : d.pcb = false := by
  have finished := complete.finished
  cases change with
  | @moves id c c' here alters good table =>
    have before := alters.running.symm.trans down
    by_cases same : other = id
    · subst same
      cases alters.becomes there
      exact Bool.eq_false_iff.mpr fun has => absurd ((alters.pcb has).symm.trans (finished before other c here)) Bool.noConfusion
    · exact finished before other d ((alters.still same).mp there)
  | @ended id c c' here alters good table gone own =>
    by_cases same : other = id
    · subst same
      cases alters.becomes there
      exact gone
    · exact finished (alters.running.symm.trans down) other d ((alters.still same).mp there)
  | made now src fd running fresh free made =>
    subst made
    have before : s.running = false := down
    exact absurd (running.symm.trans before) Bool.noConfusion
  | undialled now src running _ failed =>
    subst failed
    have before : s.running = false := down
    exact absurd (running.symm.trans before) Bool.noConfusion
  | stopped empty stopped =>
    subst stopped
    refine Bool.eq_false_iff.mpr fun has => ?_
    have found := complete.listed other d (stoppedStarted.mp there) has
    rw [empty] at found
    contradiction

theorem Complete.changes {dials : Prop} (complete : Complete s) (changes : Changes dials s t) : Complete t := by
  induction changes with
  | refl => exact complete
  | tail _ change ih =>
    exact ⟨ih.coherent.change change,fun _ _ there has => ih.change change there has,fun down _ _ there => ih.down change down there⟩

theorem initialComplete : Complete initial :=
  ⟨initialCoherent,fun _ _ here => (by cases here.here),fun _ _ _ here => (by cases here.here)⟩

theorem Complete.step (complete : Complete s) {e : Event} (fresh : Fresh s e) (stepped : UdpCone.step s e t) : Complete t :=
  complete.changes (UdpCone.changes complete.coherent fresh stepped)

theorem undialledKept {dials : Prop} (changes : Changes dials s t) (holds : dials) : t.undialled = s.undialled := by
  induction changes with
  | refl => rfl
  | tail _ change ih =>
    cases change with
    | moves _ _ alters => exact alters.undialled.trans ih
    | ended _ _ alters => exact alters.undialled.trans ih
    | made _ _ _ _ _ _ made => exact made ▸ ih
    | undialled _ _ _ fails _ => exact absurd holds fails
    | stopped _ stopped => exact stopped ▸ ih

theorem undialledLost (coherent : Coherent s) {e : Event} (fails : ¬ Dials s e) (stepped : UdpCone.step s e t) : ¬ Listed t := by
  cases e with
  | datagram now src m dialled =>
    simp only [Dials,Classical.not_imp,not_not] at fails
    obtain ⟨rfl,fresh⟩ := fails
    simp only [UdpCone.step,handle,State.datagram,fresh] at stepped
    split at stepped
    · cases stepped
      intro listed
      have found : s.udpSessions.lookup src.key = some s.next := listed s.next _ (Function.update_self ..) rfl
      obtain ⟨c,there,_⟩ := coherent.listed src.key s.next found
      exact coherent.older there.here rfl
    · contradiction
  | _ => exact absurd trivial fails

structure Dialled (s : State) : Prop where
  complete : Complete s
  all : s.undialled = []

theorem listedExact {events : List Event} :
    Run (Guarded step fun s e => Fresh s e ∧ Dials s e) initial events s ↔ Run (Keeping step Listed) initial events s := by
  have start : Dialled initial := ⟨initialComplete,rfl⟩
  apply guardExact start
  · exact fun s dialled id c here => dialled.complete.listed id c ⟨here,by simp [dialled.all]⟩
  · rintro s e t dialled ⟨fresh,dials⟩ stepped
    have changes := UdpCone.changes dialled.complete.coherent fresh stepped
    exact ⟨dialled.complete.step fresh stepped,(undialledKept changes dials).trans dialled.all⟩
  · intro s e t dialled unmet stepped
    rcases not_and_or.mp unmet with unfresh | fails
    · intro listed
      obtain ⟨_,id,c,here,has,lost⟩ := stale dialled.complete.coherent unfresh stepped
      rw [listed id c here.here has] at lost
      contradiction
    · exact undialledLost dialled.complete.coherent fails stepped

theorem nothingLeft {events : List Event} (run : Run (Guarded step Fresh) initial events s) (down : s.running = false)
    (drained : s.reactorTasks = []) :
    (∀ fd, s.sockets fd = none) ∧ (∀ src, s.pcbs.lookup src = none) ∧ (∀ fd, s.ioWatchers.lookup fd = none) ∧
    ∀ id c, s.sessions id = some c → c.fd = none ∧ (c.self = true ↔ id ∈ s.undialled) := by
  obtain ⟨coherent,listed,finished⟩ := run.guardedInvariant initialComplete
    fun _ _ _ complete fresh stepped => complete.step fresh stepped
  have closed {id : Id} {c : SessionUdp} (here : Started s id c) : c.fd = none := by
    have good := coherent.good id c here
    cases closing : c.closing with
    | false => exact absurd ((good.live closing).1.symm.trans (finished down id c here)) Bool.noConfusion
    | true =>
      refine Option.not_isSome_iff_eq_none.mp fun has => ?_
      have pending : .shutdown ∈ part id s.reactorTasks := good.shutting closing has
      rw [drained] at pending
      contradiction
  refine ⟨fun fd => ?_,fun src => ?_,fun fd => ?_,fun id c here => ?_⟩
  · cases found : s.sockets fd with
    | none => rfl
    | some k =>
      obtain ⟨c,here,has⟩ := coherent.dialled fd k found
      rw [closed here] at has
      contradiction
  · cases found : s.pcbs.lookup src with
    | none => rfl
    | some id =>
      obtain ⟨c,here,has,_⟩ := (coherent.pcbs src id).mp found
      exact absurd (has.symm.trans (finished down id c here)) Bool.noConfusion
  · cases found : s.ioWatchers.lookup fd with
    | none => rfl
    | some id =>
      obtain ⟨⟨c,here,has⟩,_⟩ := coherent.watched fd id found
      rw [closed here] at has
      contradiction
  · by_cases left : id ∈ s.undialled
    · obtain ⟨d,there,given⟩ := coherent.givenUp id left
      cases here.symm.trans there
      exact ⟨given.fd,fun _ => left,fun _ => given.self⟩
    · have started : Started s id c := ⟨here,left⟩
      have alive : c.self = c.fd.isSome := (coherent.good id c started).alive
      rw [alive,closed started]
      exact ⟨rfl,fun holds => absurd holds Bool.noConfusion,fun there => absurd there left⟩

def resolver : Source := ⟨⟨10,0,0,1⟩,53⟩
def other : Source := ⟨⟨10,0,0,9⟩,53⟩
def query : Datagram := ⟨0x01010101,53,[1,2]⟩
def answer : Datagram := ⟨0x01010101,53,[3]⟩

/- The dial of another source fails, a question is lost at the socket and asked again. -/
def asked : List Event :=
  [.datagram 0 other query none,.datagram 0 resolver query (some 3),.reactorTask true,.reactorTask false,
    .datagram 1 resolver query none,.reactorTask true,.arrive 3 answer,.readable 3 false,.stackTask 1 true]

def askedThenOver : List Event := asked ++ [.teardown,.reactorTask true]

theorem askedApart : ∃ s, Run step initial asked s ∧ Apart s ∧ s.undialled = [0] ∧
    s.sent 1 = [(query,false),(query,true)] ∧ s.injected 1 = [(answer,true)] := by
  have outcome : (execute handle initial asked).map (fun s => (s.undialled,s.sent 1,s.injected 1)) =
      some ([0],[(query,false),(query,true)],[(answer,true)]) := by decide +kernel
  obtain ⟨s,ok,same⟩ := Option.map_eq_some_iff.mp outcome
  simp only [Prod.mk.injEq] at same
  have run : Run step initial asked s := executeRun (fun _ _ _ taken => taken) ok
  exact ⟨s,run,conesApart run,same⟩

/- Runs without a close are guarded ones. -/
def unclosed (s : State) : Bool := s.stackTasks.head?.map Prod.snd ≠ some .closeFromStack

theorem unclosedFresh {s : State} {e : Event} (open_ : unclosed s = true) : Fresh s e := by
  cases e with
  | stackTask now given =>
    intro id rest c first
    simp [unclosed,first] at open_
  | _ => trivial

theorem askedLeft : ∃ s, Run (Guarded step Fresh) initial askedThenOver s ∧ s.undialled = [0] ∧ (∀ fd, s.sockets fd = none) ∧
    ∀ id c, s.sessions id = some c → (c.self = true ↔ id ∈ s.undialled) := by
  have outcome : (execute (fun s e => if unclosed s = true then handle s e else none) initial askedThenOver).map (fun s =>
      (s.running,s.reactorTasks,s.undialled)) = some (false,[],[0]) := by decide +kernel
  obtain ⟨s,ok,same⟩ := Option.map_eq_some_iff.mp outcome
  simp only [Prod.mk.injEq] at same
  obtain ⟨down,drained,failed⟩ := same
  have run : Run (Guarded step Fresh) initial askedThenOver s :=
    executeGuarded (fun _ _ _ taken => taken) (fun _ _ => unclosedFresh) ok
  obtain ⟨sockets,_,_,sessions⟩ := nothingLeft run down drained
  exact ⟨s,run,failed,sockets,fun id c here => (sessions id c here).2⟩

/- The socket has failed, the session is reaped before the close that was posted for it,
and its source gets a new one: the close takes that one out of the table. -/
def failed : List Event :=
  [.datagram 0 resolver query (some 3),.reactorTask true,.reactorTask true,.failure 3,.reap (kSessionIdle + 1),
    .datagram (kSessionIdle + 1) resolver query (some 3),.stackTask (kSessionIdle + 1) true,.teardown,.reactorTask true,
    .reactorTask true,.reactorTask true]

example : (execute handle initial failed).map (fun s =>
    (s.running,s.reactorTasks,s.pcbs.lookup resolver,(s.sockets 3).map Socket.dialled)) = some (false,[],some 1,some 1) := by
  decide +kernel

end
end Candy.UdpCone
