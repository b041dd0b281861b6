import Candy.Instance
import Candy.Net

/-! candy-service over the library. RunHandler starts a thread for client::run and
stores it under its id; ShutdownHandler stops the instance, then detaches the thread
and forgets it, finished or not. threadMap and instance_map have a lock each, so an
id can be free in one and taken in the other. -/
namespace Candy.Service
open Runs

/- An id of a request, a thread by the order of its start, a request in progress. -/
abbrev Id := Bytes
abbrev Tid := Nat
abbrev Hid := Nat

/- client::run: before try_create_instance, past it with no instance, or with one. -/
inductive Thread where
  | spawned
  | discarded
  | inside (i : Instance.State)

/- ShutdownHandler: in client::shutdown with the shared lock, or past it. -/
inductive Handler where
  | inside (id : Id) (t : Tid)
  | back (id : Id)
  deriving DecidableEq, Repr

inductive Message where
  | success
  | idAlreadyExists
  | idDoesNotExist
  | unableToGetStatus
  deriving DecidableEq, Repr

/- Instances go by the thread that created them. -/
structure State where
  threadMap : Table Id Tid
  instanceMap : Table Id Tid
  made : Tid
  name : Tid → Id
  thread : Tid → Thread
  handlers : Table Hid Handler

def State.start : State := ⟨∅,∅,0,fun _ => [],fun _ => .spawned,∅⟩

def State.put (s : State) (t : Tid) (thread : Thread) : State := {s with thread := Function.update s.thread t thread}

def runHandler (s : State) (id : Id) : State × Message :=
  match s.threadMap.lookup id with
  | some _ => (s,.idAlreadyExists)
  | none =>
    ({s with
      made := s.made + 1
      name := Function.update s.name s.made id
      thread := Function.update s.thread s.made .spawned
      threadMap := s.threadMap.insert id s.made},.success)

def statusHandler (s : State) (id : Id) : Message :=
  match s.threadMap.lookup id with
  | some _ => if (s.instanceMap.lookup id).isSome then .success else .unableToGetStatus
  | none => .idDoesNotExist

def forget (s : State) (id : Id) : State × Message :=
  match s.threadMap.lookup id with
  | some _ => ({s with threadMap := s.threadMap.erase id},.success)
  | none => (s,.idDoesNotExist)

def tryCreateInstance (s : State) (t : Tid) : State :=
  match s.instanceMap.lookup (s.name t) with
  | some _ => s.put t .discarded
  | none => {s.put t (.inside Instance.State.start) with instanceMap := s.instanceMap.insert (s.name t) t}

def tryEraseInstance (s : State) (t : Tid) : State := {s with instanceMap := s.instanceMap.erase (s.name t)}

def live (s : State) (t : Tid) (e : Instance.Event) : Option State :=
  match s.thread t with
  | .inside i => (Instance.handle i e).map fun i => s.put t (.inside i)
  | _ => none

def unlocked (s : State) : Bool := s.handlers.entries.all fun e => match e.2 with
  | .inside _ _ => false
  | .back _ => true

/- What the thread itself does in the loop of client::run. An exception there ends the
whole service, so that no state follows. -/
def ofLoop : Instance.Event → Bool
  | .checked | .slept | .createdClient | .configured | .storedTrue | .moduleShutdown | .clientReturned | .released => true
  | _ => false

inductive Event where
  | run (id : Id)
  | status (id : Id)
  | shutdown (k : Hid) (id : Id)
  | storedFalse (k : Hid)
  | locked (k : Hid)
  | clientShutdown (k : Hid)
  | returned (k : Hid)
  | forgot (k : Hid)
  | reached (t : Tid)
  | looped (t : Tid) (e : Instance.Event)
  | erased (t : Tid)
  deriving DecidableEq, Repr

def stopping (s : State) (k : Hid) (e : Instance.Event) : Option State :=
  match s.handlers.lookup k with
  | some (.inside _ t) => live s t e
  | _ => none

def handle (s : State) : Event → Option State
  | .run id => some (runHandler s id).1
  | .status _ => some s
  | .shutdown k id => match s.handlers.lookup k,s.instanceMap.lookup id with
    | none,some t => (live s t (.entered k)).map fun s => {s with handlers := s.handlers.insert k (.inside id t)}
    | none,none => some {s with handlers := s.handlers.insert k (.back id)}
    | _,_ => none
  | .storedFalse k => stopping s k (.storedFalse k)
  | .locked k => stopping s k (.locked k)
  | .clientShutdown k => stopping s k (.clientShutdown k)
  | .returned k => match s.handlers.lookup k with
    | some (.inside id t) => (live s t (.returnedTrue k)).map fun s => {s with handlers := s.handlers.insert k (.back id)}
    | _ => none
  | .forgot k => match s.handlers.lookup k with
    | some (.back id) => some {(forget s id).1 with handlers := s.handlers.erase k}
    | _ => none
  | .reached t => if t < s.made ∧ unlocked s = true then match s.thread t with
      | .spawned => some (tryCreateInstance s t)
      | _ => none
    else none
  | .looped t e => if ofLoop e then live s t e else none
  | .erased t => if t < s.made ∧ unlocked s = true then (live s t .erased).map fun s => tryEraseInstance s t else none

def step (s : State) (e : Event) (t : State) : Prop := handle s e = some t

/- An id in threadMap has its instance, or its thread has yet to make one; and no
thread, each of them a run request answered with success, was sent away. -/
structure Agreed (s : State) : Prop where
  law : ∀ id t, s.threadMap.lookup id = some t → (s.instanceMap.lookup id).isSome = true ∨ s.thread t = .spawned
  answered : ∀ t < s.made, s.thread t ≠ .discarded

/- A thread comes to try_create_instance when no earlier instance of its id is left, and
to try_erase_instance when ShutdownHandler has forgotten it. -/
def Orderly (s : State) : Event → Prop
  | .reached t => s.instanceMap.lookup (s.name t) = none
  | .erased t => s.threadMap.lookup (s.name t) ≠ some t
  | _ => True

structure Matched (s : State) : Prop where
  stored : ∀ id t, s.threadMap.lookup id = some t →
    t < s.made ∧ s.name t = id ∧ (s.thread t = .spawned ∨ s.instanceMap.lookup id = some t)
  registered : ∀ t < s.made, ∀ i, s.thread t = .inside i → i.pc ≠ .ended → s.instanceMap.lookup (s.name t) = some t
  answered : ∀ t < s.made, s.thread t ≠ .discarded

theorem Matched.agreed {s : State} (matched : Matched s) : Agreed s := by
  refine ⟨fun id t found => ?_,matched.answered⟩
  rcases (matched.stored id t found).2.2 with spawned | registered
  · exact .inr spawned
  · exact .inl (by rw [registered]; rfl)

theorem endedStays {i j : Instance.State} {e : Instance.Event} (ok : Instance.handle i e = some j) (past : i.pc = .ended) :
    j.pc = .ended := by
  cases Instance.stepCases ok with
  | checked here | slept here | createdClient here | configured here | configureThrew here | storedTrue here
  | clientReturned here | released here => rw [past] at here; contradiction
  | erased => rfl
  | moduleShutdown | entered | storedFalse | locked | expired | clientShutdown | returnedTrue => exact past

theorem liveSpec {s m : State} {t : Tid} {e : Instance.Event} (ok : live s t e = some m) : ∃ i j,
    s.thread t = .inside i ∧ Instance.handle i e = some j ∧ m = s.put t (.inside j) := by
  unfold live at ok
  split at ok <;> try contradiction
  rename_i i here
  obtain ⟨j,handled,same⟩ := Option.map_eq_some_iff.mp ok
  exact ⟨i,j,here,handled,same.symm⟩

theorem putSelf (s : State) (t : Tid) (thread : Thread) : (s.put t thread).thread t = thread := Function.update_self ..

theorem putOther {s : State} {t x : Tid} (thread : Thread) (other : x ≠ t) : (s.put t thread).thread x = s.thread x :=
  Function.update_of_ne other ..

theorem liveMatched {s m : State} {t : Tid} {e : Instance.Event} (matched : Matched s) (ok : live s t e = some m) :
    Matched m := by
  obtain ⟨i,j,here,handled,same⟩ := liveSpec ok
  subst same
  refine ⟨fun id x found => ?_,fun x made k inside pending => ?_,fun x made => ?_⟩
  · obtain ⟨made,name,progress⟩ := matched.stored id x found
    refine ⟨made,name,progress.imp_left fun spawned => ?_⟩
    by_cases same : x = t
    · rw [same,here] at spawned; contradiction
    · rw [putOther _ same]; exact spawned
  · by_cases same : x = t
    · subst same
      rw [putSelf] at inside
      cases inside
      exact matched.registered x made i here fun past => pending (endedStays handled past)
    · rw [putOther _ same] at inside
      exact matched.registered x made k inside pending
  · by_cases same : x = t
    · rw [same,putSelf]; simp
    · rw [putOther _ same]; exact matched.answered x made

theorem handlersMatched {s : State} (handlers : Table Hid Handler) (matched : Matched s) :
    Matched {s with handlers := handlers} := ⟨matched.stored,matched.registered,matched.answered⟩

theorem runMatched {s : State} (id : Id) (matched : Matched s) : Matched (runHandler s id).1 := by
  unfold runHandler
  split
  · exact matched
  have old {x : Tid} (before : x < s.made) : Function.update s.name s.made id x = s.name x ∧
      Function.update s.thread s.made .spawned x = s.thread x :=
    ⟨Function.update_of_ne (Nat.ne_of_lt before) ..,Function.update_of_ne (Nat.ne_of_lt before) ..⟩
  refine ⟨fun q x found => ?_,fun x made i inside pending => ?_,fun x made => ?_⟩
  · simp only [Table.lookupInsert] at found
    split at found
    · rename_i same
      cases Option.some.inj found
      exact ⟨Nat.lt_succ_self _,by simp [same],.inl (by simp)⟩
    · obtain ⟨before,name,progress⟩ := matched.stored q x found
      refine ⟨Nat.lt_succ_of_lt before,?_⟩
      simp only [old before]
      exact ⟨name,progress⟩
  · rcases Nat.lt_succ_iff_lt_or_eq.mp made with before | same
    · simp only [old before] at inside
      change s.instanceMap.lookup (Function.update s.name s.made id x) = some x
      rw [(old before).1]
      exact matched.registered x before i inside pending
    · simp [same] at inside
  · rcases Nat.lt_succ_iff_lt_or_eq.mp made with before | same
    · simp only [old before]
      exact matched.answered x before
    · simp [same]

theorem forgetMatched {s : State} (id : Id) (matched : Matched s) : Matched (forget s id).1 := by
  unfold forget
  split
  · refine ⟨fun q x found => ?_,matched.registered,matched.answered⟩
    simp only [Table.lookupErase] at found
    split at found <;> try contradiction
    exact matched.stored q x found
  · exact matched

theorem createMatched {s : State} {t : Tid} (matched : Matched s) (here : s.thread t = .spawned)
    (free : s.instanceMap.lookup (s.name t) = none) : Matched (tryCreateInstance s t) := by
  rw [tryCreateInstance,free]
  refine ⟨fun id x found => ?_,fun x made i inside pending => ?_,fun x made => ?_⟩
  · obtain ⟨made,name,progress⟩ := matched.stored id x found
    refine ⟨made,name,?_⟩
    by_cases same : x = t
    · subst same
      exact .inr (by simp only [← name,Table.lookupInsert,if_true])
    · refine progress.imp (fun spawned => ?_) fun registered => ?_
      · exact (putOther _ same).trans spawned
      · have other : id ≠ s.name t := fun wrong => by rw [← wrong,registered] at free; contradiction
        simp only [Table.lookupInsert,if_neg other]
        exact registered
  · by_cases same : x = t
    · subst same
      simp only [State.put,Table.lookupInsert,if_true]
    · have inside : s.thread x = .inside i := (putOther _ same).symm.trans inside
      have registered := matched.registered x made i inside pending
      have other : s.name x ≠ s.name t := fun wrong => by rw [← wrong,registered] at free; contradiction
      simp only [State.put,Table.lookupInsert,if_neg other]
      exact registered
  · by_cases same : x = t
    · subst same
      rw [show _ = Thread.inside _ from putSelf s x _]; simp
    · rw [show _ = s.thread x from putOther _ same]
      exact matched.answered x made

theorem eraseMatched {s m : State} {t : Tid} (matched : Matched s) (made : t < s.made) (forgotten : s.threadMap.lookup (s.name t) ≠ some t)
    (ok : live s t .erased = some m) : Matched (tryEraseInstance m t) := by
  have after := liveMatched matched ok
  obtain ⟨i,j,here,handled,same⟩ := liveSpec ok
  have leaving : i.pc = .leaving ∧ j.pc = .ended := by
    cases Instance.stepCases handled with
    | erased here => exact ⟨here,rfl⟩
  have own : s.instanceMap.lookup (s.name t) = some t := matched.registered t made i here (by rw [leaving.1]; simp)
  subst same
  refine ⟨fun id x found => ?_,fun x before k inside pending => ?_,after.answered⟩
  · obtain ⟨before,name,progress⟩ := after.stored id x found
    refine ⟨before,name,progress.imp_right fun registered => ?_⟩
    have other : id ≠ s.name t := fun wrong => by
      have same : some x = some t := by rw [← own,← wrong]; exact registered.symm
      exact forgotten (by rw [← wrong,← same]; exact found)
    change (s.instanceMap.erase (s.name t)).lookup id = some x
    rw [Table.lookupErase,if_neg other]
    exact registered
  · have registered : s.instanceMap.lookup (s.name x) = some x := after.registered x before k inside pending
    have other : s.name x ≠ s.name t := fun wrong => by
      rw [wrong,own] at registered
      cases Option.some.inj registered
      have same : Thread.inside j = Thread.inside k := (putSelf s t _).symm.trans inside
      cases same
      exact pending leaving.2
    change (s.instanceMap.erase (s.name t)).lookup (s.name x) = some x
    rw [Table.lookupErase,if_neg other]
    exact registered

theorem matchedStep {s m : State} {e : Event} (matched : Matched s) (orderly : Orderly s e) (stepped : step s e m) :
    Matched m := by
  unfold step at stepped
  cases e with
  | run id => cases Option.some.inj stepped; exact runMatched id matched
  | status id => cases Option.some.inj stepped; exact matched
  | shutdown k id =>
    simp only [handle] at stepped
    split at stepped <;> try contradiction
    · obtain ⟨u,lived,same⟩ := Option.map_eq_some_iff.mp stepped
      subst same
      exact handlersMatched _ (liveMatched matched lived)
    · cases Option.some.inj stepped
      exact handlersMatched _ matched
  | storedFalse k | locked k | clientShutdown k =>
    simp only [handle,stopping] at stepped
    split at stepped <;> try contradiction
    exact liveMatched matched stepped
  | returned k =>
    simp only [handle] at stepped
    split at stepped <;> try contradiction
    obtain ⟨u,lived,same⟩ := Option.map_eq_some_iff.mp stepped
    subst same
    exact handlersMatched _ (liveMatched matched lived)
  | forgot k =>
    simp only [handle] at stepped
    split at stepped <;> try contradiction
    cases Option.some.inj stepped
    exact handlersMatched _ (forgetMatched _ matched)
  | reached t =>
    simp only [handle] at stepped
    split at stepped <;> try contradiction
    split at stepped <;> try contradiction
    cases Option.some.inj stepped
    exact createMatched matched (by assumption) orderly
  | looped t e =>
    simp only [handle] at stepped
    split at stepped <;> try contradiction
    exact liveMatched matched stepped
  | erased t =>
    simp only [handle] at stepped
    split at stepped <;> try contradiction
    rename_i able
    obtain ⟨u,lived,same⟩ := Option.map_eq_some_iff.mp stepped
    subst same
    exact eraseMatched matched able.1 orderly lived

theorem disorderlyStep {s m : State} {e : Event} (disorderly : ¬ Orderly s e) (stepped : step s e m) : ¬ Agreed m := by
  intro agreed
  unfold step at stepped
  cases e with
  | reached t =>
    simp only [handle] at stepped
    split at stepped <;> try contradiction
    rename_i able
    split at stepped <;> try contradiction
    cases Option.some.inj stepped
    simp only [tryCreateInstance] at agreed
    split at agreed
    · exact agreed.answered t able.1 (putSelf s t _)
    · rename_i free
      exact disorderly free
  | erased t =>
    simp only [handle] at stepped
    split at stepped <;> try contradiction
    obtain ⟨u,lived,same⟩ := Option.map_eq_some_iff.mp stepped
    obtain ⟨i,j,_,_,put⟩ := liveSpec lived
    subst put same
    simp only [Orderly,ne_eq,not_not] at disorderly
    rcases agreed.law (s.name t) t disorderly with registered | spawned
    · simp [tryEraseInstance,State.put] at registered
    · have inside : (tryEraseInstance (s.put t (.inside j)) t).thread t = .inside j := putSelf s t _
      rw [inside] at spawned
      contradiction
  | _ => exact disorderly trivial

theorem bookkeepingExact (events : List Event) (s : State) :
    Run (Guarded step Orderly) State.start events s ↔ Run (Keeping step Agreed) State.start events s := by
  have start : Matched State.start :=
    ⟨fun _ _ found => by contradiction,fun _ wrong => by contradiction,fun _ wrong => by contradiction⟩
  exact guardExact start (fun _ matched => matched.agreed)
    (fun _ _ _ matched orderly stepped => matchedStep matched orderly stepped)
    fun _ _ _ _ disorderly stepped => disorderlyStep disorderly stepped

/- Run, shutdown, and run again while the first client still stops. -/
def restarted : List Event :=
  [.run [1],.reached 0,.looped 0 .checked,.shutdown 0 [1],.storedFalse 0,.locked 0,.returned 0,.forgot 0,.run [1],.reached 1]

def stopped : List Event :=
  ([.slept,.createdClient,.configured,.storedTrue,.clientReturned,.released,.checked] : List Instance.Event).map (.looped 0) ++
    [.erased 0]

theorem restartDiscarded : (∃ s, Run step State.start restarted s ∧ s.threadMap.lookup [1] = some 1 ∧ ¬ Agreed s) ∧
    ∃ s, Run step State.start (restarted ++ stopped) s ∧ statusHandler s [1] = .unableToGetStatus := by
  constructor
  · obtain ⟨s,ok,stored,made,gone⟩ : ∃ s, execute handle State.start restarted = some s ∧
        s.threadMap.lookup [1] = some 1 ∧ s.made = 2 ∧ s.thread 1 = .discarded := ⟨_,rfl,by decide,rfl,rfl⟩
    have run : Run step State.start restarted s := executeRun (fun _ _ _ h => h) ok
    exact ⟨s,run,stored,fun agreed => agreed.answered 1 (by rw [made]; exact Nat.one_lt_two) gone⟩
  · have outcome : (execute handle State.start (restarted ++ stopped)).map (fun s => statusHandler s [1]) = some .unableToGetStatus := by
      decide +kernel
    obtain ⟨s,ok,unable⟩ := Option.map_eq_some_iff.mp outcome
    exact ⟨s,executeRun (fun _ _ _ h => h) ok,unable⟩

end Candy.Service
