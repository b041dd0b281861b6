import Candy.Runs
import Candy.Table

/-! client::run and client::shutdown of one id. One thread runs the loop, any number
of callers shut it down under the shared lock of the instance map; a load or store
of an Atomic is one step. A call of shutdown that makes its last access between the
loop's check and Client::run's store(true) is lost; in every other run it holds. -/
namespace Candy.Instance
open Runs

/- check and the two ends of the loop body: create holds no client yet, configure,
start, inside and closing hold the newest one. -/
inductive RunPc where
  | check
  | sleep
  | create
  | configure
  | start
  | inside
  | closing
  | leaving
  | ended
  | threw
  deriving DecidableEq, Repr

inductive Caller where
  | entered
  | stored
  | holding (client : Nat)
  | finished
  | returned
  deriving DecidableEq, Repr

/- Clients are numbered in the order of their creation; the weak pointer names the
newest. flag is Client::running of each. -/
structure State where
  running : Bool
  registered : Bool
  pc : RunPc
  created : Nat
  flag : Nat → Bool
  callers : Table Nat Caller

def State.start : State := ⟨true,true,.check,0,fun _ => false,∅⟩

def RunPc.holds : RunPc → Bool
  | .configure | .start | .inside | .closing => true
  | _ => false

/- is_running said true and running.store(true) has not happened. -/
def RunPc.window : RunPc → Bool
  | .sleep | .create | .configure | .start => true
  | _ => false

def Alive (s : State) (c : Nat) : Prop :=
  (s.pc.holds = true ∧ c + 1 = s.created) ∨ ∃ k, s.callers.lookup k = some (.holding c)

def alive (s : State) (c : Nat) : Bool :=
  (s.pc.holds && c + 1 == s.created) || s.callers.entries.any (fun e => e.2 == .holding c)

def lock (s : State) : Option Nat :=
  match s.created with
  | 0 => none
  | c+1 => if alive s c then some c else none

inductive Event where
  | checked
  | slept
  | createdClient
  | configured
  | configureThrew
  | storedTrue
  | moduleShutdown
  | clientReturned
  | released
  | erased
  | entered (k : Nat)
  | storedFalse (k : Nat)
  | locked (k : Nat)
  | clientShutdown (k : Nat)
  | returnedTrue (k : Nat)
  deriving DecidableEq, Repr

def State.move (s : State) (k : Nat) (c : Caller) : State := {s with callers := s.callers.insert k c}

def handle (s : State) : Event → Option State
  | .checked => if s.pc = .check then
      some {s with pc := if s.running then .sleep else .leaving} else none
  | .slept => if s.pc = .sleep then some {s with pc := .create} else none
  | .createdClient => if s.pc = .create then
      some {s with pc := .configure, created := s.created + 1, flag := Function.update s.flag s.created false}
      else none
  | .configured => if s.pc = .configure then some {s with pc := .start} else none
  | .configureThrew => if s.pc = .configure then some {s with pc := .threw} else none
  | .storedTrue => if s.pc = .start then
      some {s with pc := .inside, flag := Function.update s.flag (s.created - 1) true} else none
  | .moduleShutdown => if s.pc = .inside ∨ s.pc = .closing then
      some {s with flag := Function.update s.flag (s.created - 1) false} else none
  | .clientReturned => if s.pc = .inside then some {s with pc := .closing} else none
  | .released => if s.pc = .closing then some {s with pc := .check} else none
  | .erased => if s.pc = .leaving ∧ s.callers.entries.all (fun e => e.2 == .returned) then
      some {s with pc := .ended, registered := false} else none
  | .entered k => if s.registered ∧ s.callers.lookup k = none then some (s.move k .entered) else none
  | .storedFalse k => if s.callers.lookup k = some .entered then
      some ({s with running := false}.move k .stored) else none
  | .locked k => if s.callers.lookup k = some .stored then
      match lock s with
      | some c => some (s.move k (.holding c))
      | none => some (s.move k .finished)
      else none
  | .clientShutdown k => match s.callers.lookup k with
    | some (.holding c) => some ({s with flag := Function.update s.flag c false}.move k .finished)
    | _ => none
  | .returnedTrue k => if s.callers.lookup k = some .finished then some (s.move k .returned) else none

def step (s : State) (e : Event) (t : State) : Prop := handle s e = some t

inductive Stepped (s : State) : Event → State → Prop
  | checked (here : s.pc = .check) : Stepped s .checked {s with pc := if s.running then .sleep else .leaving}
  | slept (here : s.pc = .sleep) : Stepped s .slept {s with pc := .create}
  | createdClient (here : s.pc = .create) : Stepped s .createdClient {s with
      pc := .configure, created := s.created + 1, flag := Function.update s.flag s.created false}
  | configured (here : s.pc = .configure) : Stepped s .configured {s with pc := .start}
  | configureThrew (here : s.pc = .configure) : Stepped s .configureThrew {s with pc := .threw}
  | storedTrue (here : s.pc = .start) :
      Stepped s .storedTrue {s with pc := .inside, flag := Function.update s.flag (s.created - 1) true}
  | moduleShutdown (here : s.pc = .inside ∨ s.pc = .closing) :
      Stepped s .moduleShutdown {s with flag := Function.update s.flag (s.created - 1) false}
  | clientReturned (here : s.pc = .inside) : Stepped s .clientReturned {s with pc := .closing}
  | released (here : s.pc = .closing) : Stepped s .released {s with pc := .check}
  | erased (here : s.pc = .leaving) (unlocked : s.callers.entries.all (fun e => e.2 == .returned)) :
      Stepped s .erased {s with pc := .ended, registered := false}
  | entered {k : Nat} (registered : s.registered) (fresh : s.callers.lookup k = none) : Stepped s (.entered k) (s.move k .entered)
  | storedFalse {k : Nat} (here : s.callers.lookup k = some .entered) :
      Stepped s (.storedFalse k) ({s with running := false}.move k .stored)
  | locked {k c : Nat} (here : s.callers.lookup k = some .stored) (found : lock s = some c) :
      Stepped s (.locked k) (s.move k (.holding c))
  | expired {k : Nat} (here : s.callers.lookup k = some .stored) (expired : lock s = none) :
      Stepped s (.locked k) (s.move k .finished)
  | clientShutdown {k c : Nat} (here : s.callers.lookup k = some (.holding c)) :
      Stepped s (.clientShutdown k) ({s with flag := Function.update s.flag c false}.move k .finished)
  | returnedTrue {k : Nat} (here : s.callers.lookup k = some .finished) : Stepped s (.returnedTrue k) (s.move k .returned)

theorem stepCases {s t : State} {e : Event} (stepped : step s e t) : Stepped s e t := by
  unfold step at stepped
  cases e with
  | checked | slept | createdClient | configured | configureThrew | storedTrue | moduleShutdown | clientReturned
  | released | storedFalse | returnedTrue =>
    simp only [handle] at stepped
    split at stepped <;> try contradiction
    rename_i here
    cases Option.some.inj stepped
    constructor
    exact here
  | erased =>
    simp only [handle] at stepped
    split at stepped <;> try contradiction
    rename_i able
    cases Option.some.inj stepped
    exact .erased able.1 able.2
  | entered k =>
    simp only [handle] at stepped
    split at stepped <;> try contradiction
    rename_i able
    cases Option.some.inj stepped
    exact .entered able.1 able.2
  | locked k =>
    simp only [handle] at stepped
    split at stepped <;> try contradiction
    rename_i here
    split at stepped
    · rename_i found
      cases Option.some.inj stepped
      exact .locked here found
    · rename_i expired
      cases Option.some.inj stepped
      exact .expired here expired
  | clientShutdown k =>
    simp only [handle] at stepped
    split at stepped <;> try contradiction
    rename_i here
    cases Option.some.inj stepped
    exact .clientShutdown here

/- A caller has returned true: every client is stopped and no step starts one. -/
def Kept (s : State) : Prop := ∀ k, s.callers.lookup k = some .returned →
  (∀ c, Alive s c → s.flag c = false) ∧
  ∀ e t, step s e t → ∀ c, t.flag c = true → s.flag c = true

/- The last access of a call, an expired pointer or the client's store, is not made
in the window. -/
def Timely (s : State) : Event → Prop
  | .locked _ => lock s = none → s.pc.window = false
  | .clientShutdown _ => s.pc.window = false
  | _ => True

theorem aliveIff (s : State) (c : Nat) : alive s c = true ↔ Alive s c := by
  simp only [alive,Alive,Bool.or_eq_true,Bool.and_eq_true,beq_iff_eq,List.any_eq_true]
  refine or_congr Iff.rfl ⟨?_,?_⟩
  · intro holds
    obtain ⟨⟨k,caller⟩,member,rfl⟩ := holds
    exact ⟨k,Table.lookupSome.mpr member⟩
  · intro holds
    obtain ⟨k,found⟩ := holds
    exact ⟨⟨k,.holding c⟩,Table.lookupSome.mp found,rfl⟩

theorem lockSome {s : State} {c : Nat} (ok : lock s = some c) : c + 1 = s.created ∧ Alive s c := by
  unfold lock at ok
  split at ok
  · contradiction
  · rename_i made
    split at ok <;> try contradiction
    rename_i here
    cases ok
    exact ⟨made.symm,(aliveIff s c).mp here⟩

theorem lockNone {s : State} {c : Nat} (expired : lock s = none) (newest : c + 1 = s.created) : ¬ Alive s c := by
  unfold lock at expired
  split at expired
  · omega
  · rename_i made
    split at expired <;> try contradiction
    rename_i gone
    cases Nat.succ.inj (newest.trans made)
    rwa [aliveIff] at gone

theorem moveLookup (s : State) (k : Nat) (c : Caller) (q : Nat) :
    (s.move k c).callers.lookup q = if q = k then some c else s.callers.lookup q := Table.lookupInsert ..

def Done (s : State) : Prop := ∃ k, s.callers.lookup k = some .finished ∨ s.callers.lookup k = some .returned

/- Whoever stored running := false keeps it false; a caller can only hold the newest
client, and only in that client's turn or after the loop has seen the flag; once a
call is done the loop is out of the window for good. -/
structure Settled (s : State) : Prop where
  stopped : ∀ k c, s.callers.lookup k = some c → c ≠ .entered → s.running = false
  held : ∀ k c, s.callers.lookup k = some (.holding c) → c + 1 = s.created ∧ s.pc ≠ .sleep ∧ s.pc ≠ .create
  outside : Done s → s.pc.window = false
  quiet : Done s → ∀ c, Alive s c → s.flag c = false

theorem notDone {s : State} (settled : Settled s) (inside : s.pc.window = true) : ¬ Done s := by
  intro done
  rw [settled.outside done] at inside
  contradiction

theorem doneStopped {s : State} (settled : Settled s) (done : Done s) : s.running = false := by
  obtain ⟨k,found | found⟩ := done
  · exact settled.stopped k _ found (by simp)
  · exact settled.stopped k _ found (by simp)

theorem settledMove {s t : State} (settled : Settled s) (callers : t.callers = s.callers)
    (running : t.running = s.running) (created : t.created = s.created)
    (pc : (∃ k c, s.callers.lookup k = some (.holding c)) → t.pc ≠ .sleep ∧ t.pc ≠ .create)
    (window : Done s → t.pc.window = false) (holds : t.pc.holds = true → s.pc.holds = true)
    (flag : ∀ c, t.flag c = true → s.flag c = true) : Settled t := by
  have same : Done t ↔ Done s := by simp only [Done,callers]
  refine ⟨fun k c found => ?_,fun k c found => ?_,fun done => window (same.mp done),fun done c living => ?_⟩
  · rw [callers] at found; rw [running]; exact settled.stopped k c found
  · rw [callers] at found
    rw [created]
    exact ⟨(settled.held k c found).1,pc ⟨k,c,found⟩⟩
  · have before : Alive s c := by
      rcases living with ⟨kept,newest⟩ | ⟨k,found⟩
      · exact .inl ⟨holds kept,by rw [← created]; exact newest⟩
      · exact .inr ⟨k,by rw [← callers]; exact found⟩
    have quiet := settled.quiet (same.mp done) c before
    cases raised : t.flag c with
    | false => rfl
    | true => rw [flag c raised] at quiet; contradiction

/- Nobody is done while a client is made or started, so nothing is promised yet. -/
theorem settledWindow {s t : State} (settled : Settled s) (inside : s.pc.window = true)
    (callers : t.callers = s.callers) (running : t.running = s.running)
    (held : ∀ k c, s.callers.lookup k = some (.holding c) → c + 1 = t.created ∧ t.pc ≠ .sleep ∧ t.pc ≠ .create) :
    Settled t := by
  have nobody : ¬ Done t := by
    have same : Done t ↔ Done s := by simp only [Done,callers]
    rw [same]; exact notDone settled inside
  refine ⟨fun k c found => ?_,fun k c found => ?_,fun done => absurd done nobody,fun done => absurd done nobody⟩
  · rw [callers] at found; rw [running]; exact settled.stopped k c found
  · rw [callers] at found; exact held k c found

theorem settledCaller {s : State} {k : Nat} {c : Caller} (settled : Settled s) (running : Bool)
    (stopped : (∃ q d, s.callers.lookup q = some d ∧ d ≠ .entered) ∨ c ≠ .entered → running = false)
    (pending : c ≠ .finished ∧ (c = .returned → s.callers.lookup k = some .finished))
    (held : ∀ n, c = .holding n → n + 1 = s.created ∧ s.pc ≠ .sleep ∧ s.pc ≠ .create ∧ Alive s n) :
    Settled ({s with running := running}.move k c) := by
  have done : Done ({s with running := running}.move k c) → Done s := by
    intro holds
    obtain ⟨q,found⟩ := holds
    simp only [moveLookup] at found
    by_cases own : q = k
    · simp only [if_pos own,Option.some.injEq] at found
      rcases found with found | found
      · exact absurd found pending.1
      · exact ⟨k,.inl (pending.2 found)⟩
    · simp only [if_neg own] at found
      exact ⟨q,found⟩
  refine ⟨fun q d found other => ?_,fun q n found => ?_,fun now => settled.outside (done now),fun now n living => ?_⟩
  · rw [moveLookup] at found
    split at found
    · cases Option.some.inj found; exact stopped (.inr other)
    · exact stopped (.inl ⟨q,d,found,other⟩)
  · rw [moveLookup] at found
    split at found
    · obtain ⟨newest,noSleep,noCreate,_⟩ := held n (Option.some.inj found)
      exact ⟨newest,noSleep,noCreate⟩
    · exact settled.held q n found
  · refine settled.quiet (done now) n ?_
    rcases living with kept | ⟨q,found⟩
    · exact .inl kept
    · rw [moveLookup] at found
      split at found
      · exact (held n (Option.some.inj found)).2.2.2
      · exact .inr ⟨q,found⟩

theorem settledFinish {s : State} {k : Nat} {old : Caller} {flag : Nat → Bool} (settled : Settled s)
    (here : s.callers.lookup k = some old) (active : old ≠ .entered) (outside : s.pc.window = false)
    (quiet : ∀ c, c + 1 = s.created → Alive s c → flag c = false) :
    Settled ({s with flag := flag}.move k .finished) := by
  have stopped : s.running = false := settled.stopped k old here active
  have others (q n) (found : ({s with flag := flag}.move k .finished).callers.lookup q = some (.holding n)) :
      s.callers.lookup q = some (.holding n) := by
    rw [moveLookup] at found
    split at found
    · simp at found
    · exact found
  refine ⟨fun _ _ _ _ => stopped,fun q n found => settled.held q n (others q n found),fun _ => outside,
    fun _ n living => ?_⟩
  rcases living with ⟨kept,newest⟩ | ⟨q,found⟩
  · exact quiet n newest (.inl ⟨kept,newest⟩)
  · exact quiet n (settled.held q n (others q n found)).1 (.inr ⟨q,others q n found⟩)

theorem settledStep {s t : State} {e : Event} (settled : Settled s) (timely : Timely s e) (stepped : step s e t) :
    Settled t := by
  cases stepCases stepped with
  | checked =>
    cases running : s.running with
    | false =>
      exact settledMove settled rfl running.symm rfl (by simp) (by simp [RunPc.window]) (by simp [RunPc.holds])
        (fun _ h => h)
    | true =>
      refine settledMove settled rfl running.symm rfl ?_ ?_ (by simp [RunPc.holds]) (fun _ h => h)
      · intro holds
        obtain ⟨k,c,found⟩ := holds
        rw [settled.stopped k _ found (by simp)] at running
        contradiction
      · intro done
        rw [doneStopped settled done] at running
        contradiction
  | slept here =>
    exact settledWindow settled (by rw [here]; rfl) rfl rfl fun k c found =>
      absurd here (settled.held k c found).2.1
  | createdClient here =>
    exact settledWindow settled (by rw [here]; rfl) rfl rfl fun k c found =>
      absurd here (settled.held k c found).2.2
  | configured here | configureThrew here | storedTrue here =>
    exact settledWindow settled (by rw [here]; rfl) rfl rfl fun k c found =>
      ⟨(settled.held k c found).1,by simp,by simp⟩
  | moduleShutdown =>
    refine settledMove settled rfl rfl rfl (fun ⟨k,c,found⟩ => (settled.held k c found).2) settled.outside
      (fun h => h) fun c raised => ?_
    by_cases same : c = s.created - 1
    · subst same; simp at raised
    · simpa [Function.update_of_ne same] using raised
  | clientReturned here | released here =>
    exact settledMove settled rfl rfl rfl (fun _ => ⟨by simp,by simp⟩) (fun _ => rfl) (by simp [here,RunPc.holds])
      (fun _ h => h)
  | erased =>
    exact settledMove settled rfl rfl rfl (fun _ => ⟨by simp,by simp⟩) (fun _ => rfl) (by simp [RunPc.holds])
      (fun _ h => h)
  | entered =>
    refine settledCaller settled s.running (fun before => ?_) ⟨by simp,by simp⟩ (by simp)
    rcases before with ⟨q,d,found,other⟩ | other
    · exact settled.stopped q d found other
    · exact absurd rfl other
  | storedFalse => exact settledCaller settled false (fun _ => rfl) ⟨by simp,by simp⟩ (by simp)
  | locked here found =>
    have stopped : s.running = false := settled.stopped _ _ here (by simp)
    obtain ⟨newest,living⟩ := lockSome found
    refine settledCaller settled s.running (fun _ => stopped) ⟨by simp,by simp⟩ fun n same => ?_
    cases same
    rcases living with ⟨holds,_⟩ | ⟨q,other⟩
    · refine ⟨newest,?_,?_,.inl ⟨holds,newest⟩⟩
      · intro asleep; rw [asleep] at holds; contradiction
      · intro creating; rw [creating] at holds; contradiction
    · exact ⟨newest,(settled.held q _ other).2.1,(settled.held q _ other).2.2,.inr ⟨q,other⟩⟩
  | expired here expired =>
    exact settledFinish settled here (by simp) (timely expired) fun c newest living =>
      absurd living (lockNone expired newest)
  | @clientShutdown k c here =>
    refine settledFinish settled here (by simp) timely fun n newest _ => ?_
    have own := (settled.held k c here).1
    obtain rfl : n = c := by omega
    exact Function.update_self ..
  | returnedTrue here =>
    have stopped : s.running = false := settled.stopped _ _ here (by simp)
    exact settledCaller settled s.running (fun _ => stopped) ⟨by simp,fun _ => here⟩ (by simp)

theorem startSettled : Settled State.start :=
  ⟨fun k c found => by simp [State.start] at found,fun k c found => by simp [State.start] at found,
    fun done => by simp [Done,State.start] at done,fun done => by simp [Done,State.start] at done⟩

theorem raisedInWindow {s t : State} {e : Event} {c : Nat} (stepped : step s e t) (raised : t.flag c = true) :
    s.flag c = true ∨ s.pc.window = true := by
  cases stepCases stepped with
  | storedTrue here | createdClient here => exact .inr (by rw [here]; rfl)
  | moduleShutdown =>
    by_cases same : c = s.created - 1
    · subst same; simp at raised
    · exact .inl (by simpa [Function.update_of_ne same] using raised)
  | @clientShutdown k n =>
    by_cases same : c = n
    · subst same; simp [State.move] at raised
    · exact .inl (by simpa [State.move,Function.update_of_ne same] using raised)
  | checked | slept | configured | configureThrew | clientReturned | released | erased | entered | storedFalse | locked
  | expired | returnedTrue => exact .inl raised

theorem timelyKept (events : List Event) (s : State) (run : Run (Guarded step Timely) State.start events s) :
    Kept s := by
  have settled := run.guardedInvariant startSettled fun _ _ _ settled timely stepped =>
    settledStep settled timely stepped
  intro k found
  have done : Done s := ⟨k,.inr found⟩
  refine ⟨settled.quiet done,fun e t stepped c raised => ?_⟩
  rcases raisedInWindow stepped raised with before | inside
  · exact before
  · rw [settled.outside done] at inside; contradiction

/- The loop has passed its check; the whole call of shutdown falls into its sleep. -/
def asleep : List Event :=
  [.checked,.entered 0,.storedFalse 0,.locked 0,.returnedTrue 0,.slept,.createdClient,.configured]

theorem asleepLost : ∃ s, Run step State.start asleep s ∧ ¬ Kept s := by
  have outcome : (execute handle State.start asleep).map (fun s => (s.callers.lookup 0,s.flag 0,s.pc,s.created)) =
      some (some .returned,false,.start,1) := by decide +kernel
  obtain ⟨s,ok,same⟩ := Option.map_eq_some_iff.mp outcome
  simp only [Prod.mk.injEq] at same
  obtain ⟨returned,lowered,pc,created⟩ := same
  refine ⟨s,executeRun (fun _ _ _ h => h) ok,fun kept => ?_⟩
  have raised := (kept 0 returned).2 .storedTrue _ (if_pos pc) 0 (by rw [created]; rfl)
  rw [lowered] at raised
  contradiction

/- The same call once the client runs. -/
def awake : List Event :=
  [.checked,.slept,.createdClient,.configured,.storedTrue,.entered 0,.storedFalse 0,.locked 0,.clientShutdown 0,
    .returnedTrue 0]

instance (s : State) : (e : Event) → Decidable (Timely s e)
  | .locked _ => inferInstanceAs (Decidable (lock s = none → s.pc.window = false))
  | .clientShutdown _ => inferInstanceAs (Decidable (s.pc.window = false))
  | .checked | .slept | .createdClient | .configured | .configureThrew | .storedTrue | .moduleShutdown
  | .clientReturned | .released | .erased | .entered _ | .storedFalse _ | .returnedTrue _ => isTrue trivial

theorem awakeKept : ∃ s, Run (Guarded step Timely) State.start awake s ∧ s.callers.lookup 0 = some .returned ∧
    s.flag 0 = false ∧ Kept s := by
  have outcome : (execute (fun s e => if Timely s e then handle s e else none) State.start awake).map (fun s =>
      (s.callers.lookup 0,s.flag 0)) = some (some .returned,false) := by decide +kernel
  obtain ⟨s,ok,same⟩ := Option.map_eq_some_iff.mp outcome
  obtain ⟨returned,lowered⟩ := Prod.mk.inj same
  have run : Run (Guarded step Timely) State.start awake s :=
    executeGuarded (fun _ _ _ h => h) (fun _ _ timely => timely) ok
  exact ⟨s,run,returned,lowered,timelyKept awake s run⟩

end Candy.Instance
