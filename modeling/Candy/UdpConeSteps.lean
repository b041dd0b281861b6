import Candy.UdpConeFlows

/-! The steps of a session that exists: each of them alters only this one, and its new
view is what the kind of step makes of the old one. -/
namespace Candy.UdpCone
open Runs Shares
open State (received)

section
variable {s t : State} {id : Id} {c c' : SessionUdp} {dials : Prop}

theorem noteOther {α : Type} {history : Id → List α} {m : α} {other : Id} (apart : other ≠ id) :
    note history id m other = history other := Function.update_of_ne apart ..

@[simp] theorem noteOwn {α : Type} (history : Id → List α) (m : α) : note history id m id = history id ++ [m] :=
  Function.update_self ..

theorem Coherent.pcbsKept (coherent : Coherent s) (here : Started s id c) (pcb : c'.pcb = c.pcb)
    (pcbs : t.pcbs = s.pcbs) (src : Source) (other : Id) :
    t.pcbs.lookup src = some other ↔ s.pcbs.lookup src = some other ∧ (other = id → c'.pcb = true) := by
  rw [pcbs]
  constructor
  · intro found
    refine ⟨found,fun same => ?_⟩
    subst same
    obtain ⟨d,there,kept,_⟩ := (coherent.pcbs src other).mp found
    cases here.same there
    exact pcb.trans kept
  · exact And.left

theorem Coherent.listedKept (coherent : Coherent s) (here : Started s id c) (pcb : c'.pcb = c.pcb)
    (table : t.udpSessions = s.udpSessions) {key : Bytes} {other : Id} (found : t.udpSessions.lookup key = some other) :
    s.udpSessions.lookup key = some other ∧ (other = id → c'.pcb = true) := by
  rw [table] at found
  refine ⟨found,fun same => ?_⟩
  subst same
  obtain ⟨d,there,kept,_⟩ := coherent.listed key other found
  cases here.same there
  exact pcb.trans kept

theorem Coherent.calm (coherent : Coherent s) (here : Started s id c) (frame : Frame s t id)
    (sessions : t.sessions = Function.update s.sessions id (some c')) (src : c'.src = c.src) (fd : c'.fd = c.fd)
    (pcb : c'.pcb = c.pcb) (sockets : ∀ fd, c.fd ≠ some fd → t.sockets fd = s.sockets fd)
    (own : ∀ fd k, c.fd = some fd → s.sockets fd = some k → ∃ inbox, t.sockets fd = some {k with inbox := inbox})
    (tables : t.ioWatchers = s.ioWatchers ∧ t.pcbs = s.pcbs ∧ t.udpSessions = s.udpSessions)
    (adds : ∀ fd, .add fd ∈ part id t.reactorTasks → .add fd ∈ part id s.reactorTasks) : Alters s t id c c' where
  toFrame := frame
  sessions := sessions
  src := src
  sockets := sockets
  own fd' mine := by
    obtain ⟨k,found,dialled⟩ := coherent.opened id c fd' here mine
    obtain ⟨inbox,found'⟩ := own fd' k mine found
    exact .inl ⟨fd.trans mine,_,found',dialled⟩
  closed none := fd.trans none
  watched fd' other found := .inl ⟨tables.1 ▸ found,fun mine => fd.trans mine⟩
  unwatched fd' fd'' found pending := (coherent.watched fd' id (tables.1 ▸ found)).2 fd'' (adds fd'' pending)
  pcb kept := pcb ▸ kept
  pcbs := coherent.pcbsKept here pcb tables.2.1
  listed _ _ found := coherent.listedKept here pcb tables.2.2 found

theorem Coherent.onPcbRecv (coherent : Coherent s) (here : Started s id c) (now : Int) (m : Datagram) :
    Change dials s (s.onPcbRecv now id c m) := by
  have frame : Frame s (s.onPcbRecv now id c m) id :=
    ⟨rfl,rfl,rfl,fun _ _ => rfl,fun _ apart => partPutOther apart.symm,fun _ apart => noteOther apart,fun _ _ => rfl,
      fun _ _ => rfl,fun _ _ => rfl⟩
  refine .moves {c with lastActiveTs := now} here ?_ ?_ rfl
  · apply coherent.calm here frame rfl rfl rfl rfl (fun _ _ => rfl) (fun _ k _ found => ⟨k.inbox,found⟩) ⟨rfl,rfl,rfl⟩
    intro fd pending
    simpa [State.onPcbRecv,State.post,State.write] using pending
  · have view : (s.onPcbRecv now id c m).view id {c with lastActiveTs := now} =
        {s.view id c with
          c := {c with lastActiveTs := now}
          reactor := part id s.reactorTasks ++ [.sendTo m]
          heard := s.heard id ++ [m]} := by
      simp [State.view,State.onPcbRecv,State.post,State.write,State.unread]
    rw [view]
    exact ((coherent.good id c here).hear m).active now

theorem unchanged (here : s.sessions id = some c) : s.sessions = Function.update s.sessions id (some c) :=
  (Function.update_eq_self_iff.mpr here.symm).symm

theorem Coherent.replyToLwip (coherent : Coherent s) (here : Started s id c) {m : Datagram} {rest : List (Id × StackTask)}
    (first : s.stackTasks = (id,.replyToLwip m)::rest) (now : Int) (given : Bool) :
    Change dials s (State.replyToLwip {s with stackTasks := rest} now id c m given) := by
  have others {other : Id} (apart : other ≠ id) : part other rest = part other s.stackTasks := by
    rw [first,partOther apart.symm]
  have mine : (s.view id c).stack = .replyToLwip m::part id rest := by
    rw [State.view,first,partOwn]
  have good := coherent.good id c here
  unfold State.replyToLwip
  split
  · rename_i has
    refine .moves {c with lastActiveTs := now} here ?_ ?_ rfl
    · refine coherent.calm here ?_ rfl rfl rfl rfl (fun _ _ => rfl) (fun _ k _ found => ⟨k.inbox,found⟩) ⟨rfl,rfl,rfl⟩
        fun _ pending => pending
      exact ⟨rfl,rfl,rfl,fun _ apart => others apart,fun _ _ => rfl,fun _ _ => rfl,fun _ _ => rfl,fun _ _ => rfl,
        fun _ apart => noteOther apart⟩
    · have next := (good.reply mine given (.inl ⟨rfl,has⟩)).active now
      simpa [State.view,State.write,State.unread] using next
  · rename_i gone
    refine .moves c here ?_ ?_ rfl
    · refine coherent.calm here ?_ (unchanged here.here) rfl rfl rfl (fun _ _ => rfl) (fun _ k _ found => ⟨k.inbox,found⟩)
        ⟨rfl,rfl,rfl⟩ fun _ pending => pending
      exact ⟨rfl,rfl,rfl,fun _ apart => others apart,fun _ _ => rfl,fun _ _ => rfl,fun _ _ => rfl,fun _ _ => rfl,fun _ _ => rfl⟩
    · exact good.reply mine given (.inr ⟨rfl,Bool.eq_false_of_not_eq_true gone⟩)

theorem Coherent.removed (coherent : Coherent s) (here : Started s id c) (src : Source) (other : Id) :
    (s.removePcb c).pcbs.lookup src = some other ↔ s.pcbs.lookup src = some other ∧ other ≠ id := by
  unfold State.removePcb
  split
  · rename_i has
    have found := (coherent.pcbs c.src id).mpr ⟨c,here,has,rfl⟩
    simp only [Table.lookupErase]
    by_cases same : src = c.src
    · subst same
      simp only [if_true,found]
      grind
    · simp only [same,if_false]
      refine ⟨fun there => ⟨there,?_⟩,And.left⟩
      rintro rfl
      obtain ⟨d,there',_,named⟩ := (coherent.pcbs src other).mp there
      cases here.same there'
      exact same named.symm
  · rename_i gone
    refine ⟨fun there => ⟨there,?_⟩,And.left⟩
    rintro rfl
    obtain ⟨d,there',has,_⟩ := (coherent.pcbs src other).mp there
    cases here.same there'
    exact gone has

theorem Coherent.erased (coherent : Coherent s) (here : Started s id c) {key : Bytes} {other : Id}
    (found : (s.udpSessions.erase c.src.key).lookup key = some other) : s.udpSessions.lookup key = some other ∧ other ≠ id := by
  rw [Table.lookupErase] at found
  split at found
  · contradiction
  · rename_i apart
    refine ⟨found,?_⟩
    rintro rfl
    obtain ⟨d,there,_,named⟩ := coherent.listed key other found
    cases here.same there
    exact apart named.symm

theorem removePcbSame (s : State) (c : SessionUdp) : s.removePcb c = {s with pcbs := (s.removePcb c).pcbs} := by
  unfold State.removePcb
  split <;> rfl

theorem Coherent.unplugged (coherent : Coherent s) (here : Started s id c) (frame : Frame s t id)
    (sessions : t.sessions = Function.update s.sessions id (some c')) (src : c'.src = c.src) (fd : c'.fd = c.fd)
    (pcb : c'.pcb = false) (sockets : t.sockets = s.sockets) (watchers : t.ioWatchers = s.ioWatchers)
    (pcbs : t.pcbs = (s.removePcb c).pcbs) (table : t.udpSessions = s.udpSessions.erase c.src.key)
    (adds : ∀ fd, .add fd ∈ part id t.reactorTasks → .add fd ∈ part id s.reactorTasks) : Alters s t id c c' where
  toFrame := frame
  sessions := sessions
  src := src
  sockets fd' _ := by rw [sockets]
  own fd' mine := by
    obtain ⟨k,found,dialled⟩ := coherent.opened id c fd' here mine
    exact .inl ⟨fd.trans mine,k,sockets ▸ found,dialled⟩
  closed none := fd.trans none
  watched fd' other found := .inl ⟨watchers ▸ found,fun mine => fd.trans mine⟩
  unwatched fd' fd'' found pending := (coherent.watched fd' id (watchers ▸ found)).2 fd'' (adds fd'' pending)
  pcb kept := absurd (kept.symm.trans pcb) Bool.noConfusion
  pcbs src' other := by
    rw [pcbs,coherent.removed here]
    exact and_congr_right fun _ => ⟨fun apart same => absurd same apart,fun kept same => absurd ((kept same).symm.trans pcb) Bool.noConfusion⟩
  listed key other found := by
    rw [table] at found
    obtain ⟨before,apart⟩ := coherent.erased here found
    exact ⟨before,fun same => absurd same apart⟩

theorem Coherent.closeFromStack (coherent : Coherent s) (here : Started s id c) {rest : List (Id × StackTask)}
    (first : s.stackTasks = (id,.closeFromStack)::rest) :
    let t := State.closeFromStack {s with stackTasks := rest} id c
    Alters s t id c {c with pcb := false} ∧ Good (t.view id {c with pcb := false}) ∧ t.udpSessions = s.udpSessions.erase c.src.key := by
  have others {other : Id} (apart : other ≠ id) : part other rest = part other s.stackTasks := by
    rw [first,partOther apart.symm]
  have mine : (s.view id c).stack = .closeFromStack::part id rest := by
    rw [State.view,first,partOwn]
  have same : (State.removePcb {s with stackTasks := rest} c).pcbs = (s.removePcb c).pcbs := by
    unfold State.removePcb
    split <;> rfl
  unfold State.closeFromStack
  rw [removePcbSame]
  refine ⟨?_,?_,rfl⟩
  · refine coherent.unplugged here ?_ rfl rfl rfl rfl rfl rfl same rfl ?_
    · exact ⟨rfl,rfl,rfl,fun _ apart => others apart,fun _ apart => partPutOther apart.symm,fun _ _ => rfl,fun _ _ => rfl,
        fun _ _ => rfl,fun _ _ => rfl⟩
    · intro fd pending
      simpa [State.post,State.write] using pending
  · have next := (coherent.good id c here).closeFromStack mine
    simpa [State.view,State.post,State.write,State.unread] using next

theorem Coherent.shutdownFromStack (coherent : Coherent s) (here : Started s id c)
    (own : ∀ other, s.udpSessions.lookup c.src.key = some other → other = id) :
    Change dials s {s.shutdownFromStack id c with udpSessions := s.udpSessions.erase c.src.key} := by
  have next := (coherent.good id c here).shutdownFromStack
  unfold State.shutdownFromStack
  rw [removePcbSame]
  split
  · rename_i closing
    refine .ended {c with pcb := false,closing := true} here ?_ ?_ rfl rfl own
    · refine coherent.unplugged here ?_ rfl rfl rfl rfl rfl rfl rfl rfl fun _ pending => pending
      exact ⟨rfl,rfl,rfl,fun _ _ => rfl,fun _ _ => rfl,fun _ _ => rfl,fun _ _ => rfl,fun _ _ => rfl,fun _ _ => rfl⟩
    · simpa [State.view,State.write,State.unread,closing] using next
  · rename_i running
    refine .ended {c with pcb := false,closing := true} here ?_ ?_ rfl rfl own
    · refine coherent.unplugged here ?_ rfl rfl rfl rfl rfl rfl rfl rfl ?_
      · exact ⟨rfl,rfl,rfl,fun _ _ => rfl,fun _ apart => partPutOther apart.symm,fun _ _ => rfl,fun _ _ => rfl,fun _ _ => rfl,
          fun _ _ => rfl⟩
      · intro fd pending
        simpa [State.post,State.write] using pending
    · simpa [State.view,State.write,State.unread,State.post,running] using next

theorem Coherent.retire (coherent : Coherent s) {e : (_ : Bytes) × Id} (found : s.udpSessions.lookup e.1 = some e.2) :
    Change dials s (s.retire e) := by
  obtain ⟨c,here,_,named⟩ := coherent.listed e.1 e.2 found
  have next : Change dials s _ :=
    coherent.shutdownFromStack here fun other there => Option.some.inj (there.symm.trans (named ▸ found))
  rw [named] at next
  have table : (s.shutdownFromStack e.2 c).udpSessions = s.udpSessions := by
    unfold State.shutdownFromStack
    rw [removePcbSame]
    split <;> rfl
  unfold State.retire
  simp only [here.here,table]
  exact next

theorem retireTable (s : State) (e : (_ : Bytes) × Id) : (s.retire e).udpSessions = s.udpSessions.erase e.1 := by
  unfold State.retire State.shutdownFromStack
  split
  · rw [removePcbSame]
    split <;> rfl
  · rfl

theorem Coherent.retireAll (coherent : Coherent s) {l : List ((_ : Bytes) × Id)} (apart : (l.map Sigma.fst).Nodup)
    (found : ∀ e ∈ l, s.udpSessions.lookup e.1 = some e.2) : Changes dials s (l.foldl State.retire s) ∧
    ∀ key, (l.foldl State.retire s).udpSessions.lookup key = if key ∈ l.map Sigma.fst then none else s.udpSessions.lookup key := by
  induction l generalizing s with
  | nil => exact ⟨.refl,fun _ => rfl⟩
  | cons e rest ih =>
    obtain ⟨first,apart⟩ := List.nodup_cons.mp apart
    have still : ∀ e' ∈ rest, (s.retire e).udpSessions.lookup e'.1 = some e'.2 := by
      intro e' there
      have other : e'.1 ≠ e.1 := fun same => first (same ▸ List.mem_map_of_mem there)
      rw [retireTable,Table.lookupErase,if_neg other]
      exact found e' (List.mem_cons_of_mem _ there)
    have one : Change dials s (s.retire e) := coherent.retire (found e (List.mem_cons_self ..))
    obtain ⟨next,table⟩ := ih (coherent.change one) apart still
    refine ⟨.head one next,fun key => ?_⟩
    rw [List.foldl_cons,table,retireTable,Table.lookupErase,List.map_cons]
    by_cases same : key = e.1
    · simp [same]
    · simp only [List.mem_cons,same,false_or,if_false]

theorem Coherent.reapIdleUdpSessions (coherent : Coherent s) (now : Int) : Changes dials s (s.reapIdleUdpSessions now) := by
  have fewer : ((s.udpSessions.entries.filter fun e => s.idle now e.2).map Sigma.fst).Sublist (s.udpSessions.entries.map Sigma.fst) :=
    List.filter_sublist.map _
  exact (coherent.retireAll (fewer.nodup s.udpSessions.nodupKeys)
    fun e there => Table.lookupSome.mpr (List.mem_of_mem_filter there)).1

theorem Coherent.teardownStack (coherent : Coherent s) : Changes dials s s.teardownStack := by
  obtain ⟨next,table⟩ := coherent.retireAll s.udpSessions.nodupKeys fun e there => Table.lookupSome.mpr there
  refine next.tail (.stopped (fun key => ?_) rfl)
  rw [table]
  split
  · rfl
  · rename_i absent
    cases found : s.udpSessions.lookup key with
    | none => rfl
    | some id => exact absurd (List.mem_map_of_mem (f := Sigma.fst) (Table.lookupSome.mp found)) absent

theorem Coherent.add (coherent : Coherent s) (here : Started s id c) {fd : Fd} {rest : List (Id × ReactorTask)}
    (first : s.reactorTasks = (id,.add fd)::rest) :
    Change dials s {s with reactorTasks := rest,ioWatchers := s.ioWatchers.insert fd id} := by
  have mine : (s.view id c).reactor = .add fd::part id rest := by
    rw [State.view,first,partOwn]
  have good := coherent.good id c here
  refine .moves c here ?_ ?_ rfl
  · constructor
    case toFrame =>
      refine ⟨rfl,rfl,rfl,fun _ _ => rfl,?_,fun _ _ => rfl,fun _ _ => rfl,fun _ _ => rfl,fun _ _ => rfl⟩
      intro other apart
      rw [first,partOther apart.symm]
    case sessions => exact unchanged here.here
    case src => rfl
    case sockets => exact fun _ _ => rfl
    case own =>
      intro fd' has
      obtain ⟨k,found,dialled⟩ := coherent.opened id c fd' here has
      exact .inl ⟨has,k,found,dialled⟩
    case closed => exact fun none => none
    case watched =>
      intro fd' other found
      rw [Table.lookupInsert] at found
      split at found
      · rename_i same
        exact .inr ⟨(Option.some.inj found).symm,same ▸ (good.added fd (mine ▸ List.mem_cons_self ..)).1⟩
      · exact .inl ⟨found,fun has => has⟩
    case unwatched => exact fun _ fd' _ => good.unadded mine fd'
    case pcb => exact fun has => has
    case pcbs => exact coherent.pcbsKept here rfl rfl
    case listed => exact fun _ _ found => coherent.listedKept here rfl rfl found
  · exact good.add mine

theorem Coherent.sendTo (coherent : Coherent s) (here : Started s id c) {m : Datagram} {rest : List (Id × ReactorTask)}
    (first : s.reactorTasks = (id,.sendTo m)::rest) (taken : Bool) :
    Change dials s (State.sendTo {s with reactorTasks := rest} c m taken) := by
  have others {other : Id} (apart : other ≠ id) : part other rest = part other s.reactorTasks := by
    rw [first,partOther apart.symm]
  have mine : (s.view id c).reactor = .sendTo m::part id rest := by
    rw [State.view,first,partOwn]
  have shorter (fd : Fd) (adds : .add fd ∈ part id rest) : .add fd ∈ part id s.reactorTasks := by
    rw [first,partOwn]
    exact List.mem_cons_of_mem _ adds
  have good := coherent.good id c here
  unfold State.sendTo
  split
  · rename_i closing
    refine .moves c here ?_ ?_ rfl
    · refine coherent.calm here ?_ (unchanged here.here) rfl rfl rfl (fun _ _ => rfl) (fun _ k _ found => ⟨k.inbox,found⟩)
        ⟨rfl,rfl,rfl⟩ shorter
      exact ⟨rfl,rfl,rfl,fun _ _ => rfl,fun _ apart => others apart,fun _ _ => rfl,fun _ _ => rfl,fun _ _ => rfl,fun _ _ => rfl⟩
    · exact good.sendTo mine taken (.inr ⟨rfl,closing⟩)
  · rename_i running
    obtain ⟨fd,has⟩ := Option.isSome_iff_exists.mp (good.live (Bool.eq_false_of_not_eq_true running)).2
    obtain ⟨k,found,dialled⟩ := coherent.opened id c fd here has
    have socket : c.fd.bind s.sockets = some k := (congrArg (·.bind s.sockets) has).trans found
    simp only [socket,dialled]
    refine .moves c here ?_ ?_ rfl
    · refine coherent.calm here ?_ (unchanged here.here) rfl rfl rfl (fun _ _ => rfl) (fun _ k _ found => ⟨k.inbox,found⟩)
        ⟨rfl,rfl,rfl⟩ shorter
      exact ⟨rfl,rfl,rfl,fun _ _ => rfl,fun _ apart => others apart,fun _ _ => rfl,fun _ apart => noteOther apart,fun _ _ => rfl,
        fun _ _ => rfl⟩
    · have next := good.sendTo mine taken (.inl ⟨rfl,Bool.eq_false_of_not_eq_true running⟩)
      simpa [State.view,State.unread] using next

theorem closeFdSame (s : State) (c : SessionUdp) : s.closeFd c = {s with
    sockets := (s.closeFd c).sockets,ioWatchers := (s.closeFd c).ioWatchers} := by
  unfold State.closeFd
  split <;> rfl

theorem closeFdSockets (s : State) (c : SessionUdp) (fd : Fd) :
    (s.closeFd c).sockets fd = if c.fd = some fd then none else s.sockets fd := by
  unfold State.closeFd
  split
  · rename_i none
    simp [none]
  · rename_i fd' has
    by_cases same : fd' = fd
    · subst same
      simp [has,State.setSocket]
    · rw [has,if_neg fun equal => same (Option.some.inj equal)]
      exact Function.update_of_ne (Ne.symm same) ..

theorem closeFdWatchers {fd : Fd} {other : Id} (found : (s.closeFd c).ioWatchers.lookup fd = some other) :
    s.ioWatchers.lookup fd = some other ∧ c.fd ≠ some fd := by
  unfold State.closeFd at found
  split at found
  · rename_i none
    exact ⟨found,by simp [none]⟩
  · rename_i fd' has
    simp only [Table.lookupErase] at found
    split at found
    · contradiction
    · rename_i apart
      exact ⟨found,by simpa [has] using Ne.symm apart⟩

theorem Coherent.shut (coherent : Coherent s) (here : Started s id c) (frame : Frame s t id)
    (sessions : t.sessions = Function.update s.sessions id (some c')) (src : c'.src = c.src) (fd : c'.fd = none)
    (pcb : c'.pcb = c.pcb) (sockets : t.sockets = (s.closeFd c).sockets) (watchers : t.ioWatchers = (s.closeFd c).ioWatchers)
    (pcbs : t.pcbs = s.pcbs) (table : t.udpSessions = s.udpSessions)
    (unadded : ∀ fd, .add fd ∉ part id t.reactorTasks) : Alters s t id c c' where
  toFrame := frame
  sessions := sessions
  src := src
  sockets fd' apart := by rw [sockets,closeFdSockets,if_neg apart]
  own fd' mine := .inr ⟨fd,by rw [sockets,closeFdSockets,if_pos mine]⟩
  closed _ := fd
  watched fd' other found := by
    obtain ⟨before,apart⟩ := closeFdWatchers (watchers ▸ found)
    exact .inl ⟨before,fun mine => absurd mine apart⟩
  unwatched _ fd' _ := unadded fd'
  pcb kept := pcb ▸ kept
  pcbs := coherent.pcbsKept here pcb pcbs
  listed _ _ found := coherent.listedKept here pcb table found

theorem Coherent.closeFromReactor (coherent : Coherent s) (here : Started s id c)
    (unadded : ∀ fd, .add fd ∉ part id s.reactorTasks) : Changes dials s (s.closeFromReactor id c) := by
  have next := (coherent.good id c here).closeFromReactor unadded
  unfold State.closeFromReactor
  split
  · exact .refl
  · rw [closeFdSame]
    apply Relation.ReflTransGen.single
    split
    · rename_i has
      refine .moves {c with closing := true,fd := none,self := false} here ?_ ?_ rfl
      · refine coherent.shut here ?_ rfl rfl rfl rfl rfl rfl rfl rfl unadded
        exact ⟨rfl,rfl,rfl,fun _ apart => partPutOther apart.symm,fun _ _ => rfl,fun _ _ => rfl,fun _ _ => rfl,fun _ _ => rfl,
          fun _ _ => rfl⟩
      · simpa [State.view,State.write,State.unread,State.postToStack,has] using next
    · rename_i gone
      refine .moves {c with closing := true,fd := none,self := false} here ?_ ?_ rfl
      · refine coherent.shut here ?_ rfl rfl rfl rfl rfl rfl rfl rfl unadded
        exact ⟨rfl,rfl,rfl,fun _ _ => rfl,fun _ _ => rfl,fun _ _ => rfl,fun _ _ => rfl,fun _ _ => rfl,fun _ _ => rfl⟩
      · simpa [State.view,State.write,State.unread,gone] using next

theorem Coherent.closeTask (coherent : Coherent s) (here : Started s id c) {rest : List (Id × ReactorTask)}
    (first : s.reactorTasks = (id,.closeFromReactor)::rest) :
    Change dials s (State.closeFromReactor {s with reactorTasks := rest} id c) := by
  have mine : (s.view id c).reactor = .closeFromReactor::part id rest := by
    rw [State.view,first,partOwn]
  obtain ⟨closing,next⟩ := (coherent.good id c here).closed mine
  have done : c.closing = true := closing
  unfold State.closeFromReactor
  rw [if_pos done]
  refine .moves c here ?_ ?_ rfl
  · refine coherent.calm here ?_ (unchanged here.here) rfl rfl rfl (fun _ _ => rfl) (fun _ k _ found => ⟨k.inbox,found⟩) ⟨rfl,rfl,rfl⟩ ?_
    · refine ⟨rfl,rfl,rfl,fun _ _ => rfl,?_,fun _ _ => rfl,fun _ _ => rfl,fun _ _ => rfl,fun _ _ => rfl⟩
      intro other apart
      rw [first,partOther apart.symm]
    · intro fd adds
      rw [first,partOwn]
      exact List.mem_cons_of_mem _ adds
  · exact next

theorem Coherent.shutdown (coherent : Coherent s) (here : Started s id c) {rest : List (Id × ReactorTask)}
    (first : s.reactorTasks = (id,.shutdown)::rest) : Change dials s (State.shutdown {s with reactorTasks := rest} id c) := by
  have mine : (s.view id c).reactor = .shutdown::part id rest := by
    rw [State.view,first,partOwn]
  have good := coherent.good id c here
  have same : State.closeFd {s with reactorTasks := rest} c = {s.closeFd c with reactorTasks := rest} := by
    unfold State.closeFd
    split <;> rfl
  unfold State.shutdown
  rw [same,closeFdSame]
  refine .moves {c with fd := none,self := false} here ?_ ?_ rfl
  · refine coherent.shut here ?_ rfl rfl rfl rfl rfl rfl rfl rfl (good.unadded mine)
    refine ⟨rfl,rfl,rfl,fun _ _ => rfl,?_,fun _ _ => rfl,fun _ _ => rfl,fun _ _ => rfl,fun _ _ => rfl⟩
    intro other apart
    change part other rest = _
    rw [first,partOther apart.symm]
  · have next := good.shutdown mine
    simpa [State.view,State.write,State.unread] using next

theorem Coherent.arrive (coherent : Coherent s) {fd : Fd} {k : Socket} (found : s.sockets fd = some k) (m : Datagram) :
    Change dials s {s.setSocket fd (some {k with inbox := k.inbox ++ [m]}) with arrived := note s.arrived k.dialled m} := by
  obtain ⟨c,here,has⟩ := coherent.dialled fd k found
  have unread : s.unread c = k.inbox := by simp [State.unread,has,found]
  refine .moves c here ?_ ?_ rfl
  · refine coherent.calm here ?_ (unchanged here.here) rfl rfl rfl ?_ ?_ ⟨rfl,rfl,rfl⟩ fun _ adds => adds
    · exact ⟨rfl,rfl,rfl,fun _ _ => rfl,fun _ _ => rfl,fun _ _ => rfl,fun _ _ => rfl,fun _ apart => noteOther apart,fun _ _ => rfl⟩
    · rintro fd' apart
      refine Function.update_of_ne ?_ ..
      rintro rfl
      exact apart has
    · intro fd' k' mine found'
      cases has.symm.trans mine
      cases found.symm.trans found'
      exact ⟨_,Function.update_self ..⟩
  · have next := (coherent.good k.dialled c here).arrive (Option.isSome_of_mem has) m
    simp only [State.view,unread] at next
    simpa [State.view,State.unread,has,State.setSocket] using next

theorem Coherent.received (coherent : Coherent s) (here : Started s id c) {fd : Fd} {k : Socket} (has : c.fd = some fd)
    (found : s.sockets fd = some k) : Change dials s {s.setSocket fd (some {k with inbox := (received k.inbox).2}) with
      stackTasks := s.stackTasks ++ ((received k.inbox).1.map StackTask.replyToLwip).map fun task => (id,task)} := by
  have unread : s.unread c = k.inbox := by simp [State.unread,has,found]
  refine .moves c here ?_ ?_ rfl
  · refine coherent.calm here ?_ (unchanged here.here) rfl rfl rfl ?_ ?_ ⟨rfl,rfl,rfl⟩ fun _ adds => adds
    · refine ⟨rfl,rfl,rfl,?_,fun _ _ => rfl,fun _ _ => rfl,fun _ _ => rfl,fun _ _ => rfl,fun _ _ => rfl⟩
      intro other apart
      rw [partAppend,partAllOther apart.symm,List.append_nil]
    · rintro fd' apart
      refine Function.update_of_ne ?_ ..
      rintro rfl
      exact apart has
    · intro fd' k' mine found'
      cases has.symm.trans mine
      cases found.symm.trans found'
      exact ⟨_,Function.update_self ..⟩
  · have next := (coherent.good id c here).read
    simp only [State.view,unread] at next
    simpa [State.view,State.unread,has,State.setSocket,partAll,-List.map_map] using next

theorem Coherent.onFdReadable (coherent : Coherent s) (here : Started s id c)
    (unadded : ∀ fd, .add fd ∉ part id s.reactorTasks) (failed : Bool) : Changes dials s (s.onFdReadable id c failed) := by
  unfold State.onFdReadable
  split
  · exact coherent.closeFromReactor here unadded
  · rename_i fd has
    split
    · exact coherent.closeFromReactor here unadded
    · rename_i k found
      have read : Change dials s _ := coherent.received here has found
      simp only
      split
      · exact .head read ((coherent.change read).closeFromReactor ⟨here.here,here.dialled⟩ unadded)
      · exact .single read

theorem Coherent.datagram (coherent : Coherent s) (running : s.running = true) {now : Int} {src : Source} {m : Datagram}
    {dialled : Option Fd} (ok : s.datagram now src m dialled = some t) :
    Changes (dialled = none → s.pcbs.lookup src ≠ none) s t := by
  unfold State.datagram at ok
  split at ok
  · rename_i id found
    obtain ⟨c,here,rfl⟩ := Option.map_eq_some_iff.mp ok
    obtain ⟨_,there,_⟩ := (coherent.pcbs src id).mp found
    exact .single (coherent.onPcbRecv ⟨here,there.dialled⟩ now m)
  · rename_i fresh
    split at ok
    · cases ok
      exact .single (.undialled now src running (fun dials => dials rfl fresh) rfl)
    · rename_i fd
      split at ok
      · contradiction
      · rename_i closed
        obtain ⟨c,here,rfl⟩ := Option.map_eq_some_iff.mp ok
        have made : Change (some fd = none → s.pcbs.lookup src ≠ none) s (s.onUdpRecv now src fd) :=
          .made now src fd running fresh (Option.not_isSome_iff_eq_none.mp closed) rfl
        exact .head made (.single ((coherent.change made).onPcbRecv ⟨here,coherent.nextDialled⟩ now m))

/- No other session is in the table under the key of the one that is closed. -/
def Fresh (s : State) : Event → Prop
  | .stackTask .. => ∀ id rest c, s.stackTasks = (id,.closeFromStack)::rest → s.sessions id = some c →
    ∀ other, s.udpSessions.lookup c.src.key = some other → other = id
  | _ => True

def Dials (s : State) : Event → Prop
  | .datagram _ src _ dialled => dialled = none → s.pcbs.lookup src ≠ none
  | _ => True

theorem changes (coherent : Coherent s) {e : Event} (fresh : Fresh s e) (stepped : step s e t) : Changes (Dials s e) s t := by
  unfold step handle at stepped
  split at stepped
  case h_1 =>
    split at stepped
    · exact coherent.datagram (by assumption) stepped
    · contradiction
  case h_2 now given =>
    split at stepped
    · unfold State.stackTask at stepped
      split at stepped
      · contradiction
      · rename_i id task rest first
        obtain ⟨c,here,rfl⟩ := Option.map_eq_some_iff.mp stepped
        have started : Started s id c := ⟨here,coherent.stackBusy first⟩
        cases task with
        | replyToLwip m => exact .single (coherent.replyToLwip started first now given)
        | closeFromStack =>
          obtain ⟨alters,good,table⟩ := coherent.closeFromStack started first
          exact .single (.ended _ started alters good table rfl (fresh id rest c first here))
    · contradiction
  case h_3 now =>
    split at stepped
    · cases stepped
      exact coherent.reapIdleUdpSessions now
    · contradiction
  case h_4 =>
    split at stepped
    · cases stepped
      exact coherent.teardownStack
    · contradiction
  case h_5 fd m =>
    obtain ⟨k,found,rfl⟩ := Option.map_eq_some_iff.mp stepped
    exact .single (coherent.arrive found m)
  case h_6 fd failed =>
    obtain ⟨id,watched,acts⟩ := Option.bind_eq_some_iff.mp stepped
    obtain ⟨c,here,rfl⟩ := Option.map_eq_some_iff.mp acts
    obtain ⟨⟨_,there,_⟩,unadded⟩ := coherent.watched fd id watched
    exact coherent.onFdReadable ⟨here,there.dialled⟩ unadded failed
  case h_7 fd =>
    obtain ⟨id,watched,acts⟩ := Option.bind_eq_some_iff.mp stepped
    obtain ⟨c,here,rfl⟩ := Option.map_eq_some_iff.mp acts
    obtain ⟨⟨_,there,_⟩,unadded⟩ := coherent.watched fd id watched
    exact coherent.closeFromReactor ⟨here,there.dialled⟩ unadded
  case h_8 taken =>
    unfold State.reactorTask at stepped
    split at stepped
    · contradiction
    · rename_i id task rest first
      obtain ⟨c,here,rfl⟩ := Option.map_eq_some_iff.mp stepped
      have started : Started s id c := ⟨here,coherent.reactorBusy first⟩
      cases task with
      | add fd => exact .single (coherent.add started first)
      | sendTo m => exact .single (coherent.sendTo started first taken)
      | closeFromReactor => exact .single (coherent.closeTask started first)
      | shutdown => exact .single (coherent.shutdown started first)

theorem stale (coherent : Coherent s) {e : Event} (unfresh : ¬ Fresh s e) (stepped : step s e t) :
    Coherent t ∧ ∃ id c, Started t id c ∧ c.pcb = true ∧ t.udpSessions.lookup c.src.key = none := by
  cases e with
  | stackTask now given =>
    simp only [Fresh,not_forall] at unfresh
    obtain ⟨id,rest,c,first,here,other,found,apart⟩ := unfresh
    simp only [step,handle,State.stackTask,first,here,Option.map_some] at stepped
    split at stepped
    · cases stepped
      have started : Started s id c := ⟨here,coherent.stackBusy first⟩
      obtain ⟨alters,good,table⟩ := coherent.closeFromStack started first
      refine ⟨coherent.alters started alters good,?_⟩
      obtain ⟨d,there,pcb,named⟩ := coherent.listed c.src.key other found
      refine ⟨other,d,(alters.still apart).mpr there,pcb,?_⟩
      rw [table,named,Table.lookupErase,if_pos rfl]
    · contradiction
  | _ => exact absurd trivial unfresh

theorem coherentStep (coherent : Coherent s) {e : Event} (stepped : step s e t) : Coherent t := by
  by_cases fresh : Fresh s e
  · exact coherent.changes (changes coherent fresh stepped)
  · exact (stale coherent fresh stepped).1

theorem coherentRun {events : List Event} (run : Run step initial events s) : Coherent s :=
  run.invariant initialCoherent fun _ _ _ coherent stepped => coherentStep coherent stepped

end
end Candy.UdpCone
