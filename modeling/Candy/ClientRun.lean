import Candy.Runs
import Mathlib.Data.List.Infix

/-! Client::run and the threads of its four modules. The run starts them one by one,
gives up where a start-up fails, and else joins them in a fixed order; every other
thread loops on a flag of its own choice and may end at any turn. Joining covers
all threads, provided nothing fails to start and the device thread, which the tun
message thread starts, is there when Tun::wait looks for it. -/
namespace Candy.ClientRun
open Runs

inductive Thread where
  | reactor
  | stack
  | netMsg
  | wsMsg
  | ws
  | tunMsg
  | tun
  | peerMsg
  | peerTick
  | peerPoll
  deriving DecidableEq, Repr

/- At its loop condition, in a turn of the loop, behind the loop, gone, joined. -/
inductive ThreadState where
  | absent
  | looping
  | working
  | stopping
  | finished
  | joined
  deriving DecidableEq, Repr

/- `attempt` is a start-up call that may fail: Reactor::start, connect, stun.update.
Tun::run has none. -/
inductive Start where
  | attempt
  | setStackRunning
  | thread (t : Thread)
  deriving DecidableEq, Repr

inductive Action where
  | stopStack
  | stopReactor
  | join (t : Thread)
  deriving DecidableEq, Repr

def starts (userspaceStack : Bool) : List Start :=
  (if userspaceStack then [.setStackRunning,.attempt,.thread .reactor,.thread .stack,.thread .netMsg]
    else [] : List Start) ++
    ([.attempt,.thread .wsMsg,.thread .ws,.thread .tunMsg,.attempt,.thread .peerMsg] : List Start)

/- The four waits. A join is made if the thread is joinable when its turn comes. -/
def waits : List Action :=
  [.join .wsMsg,.join .ws,.join .tun,.join .tunMsg,.join .peerMsg,.join .peerTick,.join .peerPoll,
    .stopStack,.join .stack,.join .netMsg,.stopReactor,.join .reactor]

inductive RunPc where
  | store
  | starting (rest : List Start)
  | waiting (rest : List Action)
  | joining (t : Thread) (rest : List Action)
  | returned
  deriving DecidableEq, Repr

structure State where
  running : Bool
  stackRunning : Bool
  reactorRunning : Bool
  pc : RunPc
  threads : Thread → ThreadState

def State.start : State := ⟨false,false,false,.store,fun _ => .absent⟩

def State.put (s : State) (t : Thread) (state : ThreadState) : State :=
  {s with threads := Function.update s.threads t state}

def condition (s : State) : Thread → Bool
  | .reactor => s.reactorRunning
  | .stack => s.stackRunning
  | _ => s.running

/- The threads that call Client::shutdown behind their loop. -/
def clears : Thread → Bool
  | .reactor | .stack => false
  | _ => true

inductive Event where
  | stored
  | started (ok : Bool)
  | waited
  | turned (t : Thread)
  | worked (t : Thread) (again : Bool)
  | stopped (t : Thread)
  | stackFailed
  | tunStarted
  | pollStarted
  | tickStarted
  | shutdown
  deriving DecidableEq, Repr

/- A module thread starting another one. Assigning to a joinable std::thread
terminates the process, so that has no result. -/
def spawn (s : State) (parent child : Thread) : Option State :=
  if s.threads parent = .working ∧ (s.threads child = .absent ∨ s.threads child = .joined) then
    some (s.put child .looping) else none

def handle (userspaceStack : Bool) (s : State) : Event → Option State
  | .stored => if s.pc = .store then
      some {s with running := true, pc := .starting (starts userspaceStack)} else none
  | .started ok => match s.pc with
    | .starting (.attempt::rest) => some {s with pc := if ok then .starting rest else .returned}
    | .starting (.setStackRunning::rest) => some {s with stackRunning := true, pc := .starting rest}
    | .starting (.thread .reactor::rest) =>
      some ({s with reactorRunning := true, pc := .starting rest}.put .reactor .looping)
    | .starting (.thread t::rest) => some ({s with pc := .starting rest}.put t .looping)
    | .starting [] => some {s with pc := .waiting waits}
    | _ => none
  | .waited => match s.pc with
    | .waiting (.stopStack::rest) => some {s with stackRunning := false, pc := .waiting rest}
    | .waiting (.stopReactor::rest) => some {s with reactorRunning := false, pc := .waiting rest}
    | .waiting (.join t::rest) =>
      some {s with pc := if s.threads t = .absent ∨ s.threads t = .joined then .waiting rest else .joining t rest}
    | .waiting [] => some {s with pc := .returned}
    | .joining t rest => if s.threads t = .finished then
        some ({s with pc := .waiting rest}.put t .joined) else none
    | _ => none
  | .turned t => if s.threads t = .looping then
      some (s.put t (if condition s t then .working else .stopping)) else none
  | .worked t again => if s.threads t = .working then
      some (s.put t (if again then .looping else .stopping)) else none
  | .stopped t => if s.threads t = .stopping then
      some ({s with running := if clears t then false else s.running}.put t .finished) else none
  | .stackFailed => if s.threads .stack = .looping ∨ s.threads .stack = .working then
      some ({s with running := false}.put .stack .finished) else none
  | .tunStarted => spawn s .tunMsg .tun
  | .pollStarted => spawn s .peerMsg .peerPoll
  | .tickStarted => spawn s .peerMsg .peerTick
  | .shutdown => some {s with running := false}

def step (userspaceStack : Bool) (s : State) (e : Event) (t : State) : Prop := handle userspaceStack s e = some t

/- Nothing is left behind once Client::run has returned. -/
def Clean (s : State) : Prop := s.pc = .returned →
  s.running = false ∧ ∀ t, s.threads t = .absent ∨ s.threads t = .joined

def RunPc.remaining : RunPc → List Action
  | .store | .starting _ => waits
  | .waiting rest => rest
  | .joining t rest => .join t::rest
  | .returned => []

/- A start-up fails only before anything is started and with the flag down, and
the device thread is started only while Tun::wait has yet to look for it. -/
def Orderly (s : State) : Event → Prop
  | .started false => ∀ rest, s.pc = .starting (.attempt::rest) → s.running = false ∧ ∀ t, s.threads t = .absent
  | .tunStarted => Action.join .tun ∈ s.pc.remaining
  | _ => True

def RunPc.waits : RunPc → Bool
  | .waiting _ | .joining _ _ => true
  | _ => false

structure Tidy (s : State) : Prop where
  fresh : s.pc = .store → ∀ t, s.threads t = .absent
  ended : s.threads .ws = .finished ∨ s.threads .ws = .joined → s.running = false
  pending : ∀ t, s.threads t = .absent ∨ s.threads t = .joined ∨ Action.join t ∈ s.pc.remaining
  ordered : s.pc.remaining <:+ waits
  begun : ∀ rest, s.pc = .starting rest → Start.thread .ws ∈ rest ∨ s.threads .ws ≠ .absent
  waited : s.pc.waits = true → s.threads .ws ≠ .absent
  returned : s.pc = .returned → s.running = false

theorem Tidy.clean {s : State} (tidy : Tidy s) : Clean s := by
  intro back
  refine ⟨tidy.returned back,fun t => ?_⟩
  rcases tidy.pending t with absent | joined | due
  · exact .inl absent
  · exact .inr joined
  · rw [back] at due; simp [RunPc.remaining] at due

theorem allDue (t : Thread) : Action.join t ∈ waits := by
  cases t <;> decide

theorem dueAfter {rest : List Action} (suffix : rest <:+ waits) (due : Action.join .peerMsg ∈ rest) :
    Action.join .peerTick ∈ rest ∧ Action.join .peerPoll ∈ rest := by
  have all : ∀ rest ∈ waits.tails, Action.join .peerMsg ∈ rest →
      Action.join .peerTick ∈ rest ∧ Action.join .peerPoll ∈ rest := by decide
  exact all rest ((List.mem_tails rest waits).mpr suffix) due

theorem workingDue {s : State} {t : Thread} (tidy : Tidy s) (absent : s.threads t ≠ .absent)
    (joined : s.threads t ≠ .joined) : Action.join t ∈ s.pc.remaining ∧ s.pc ≠ .store :=
  ⟨((tidy.pending t).resolve_left absent).resolve_left joined,fun store => absent (tidy.fresh store t)⟩

theorem tidyPut {s : State} {t : Thread} {state : ThreadState} {r : Bool} (tidy : Tidy s)
    (lower : r = true → s.running = true) (due : Action.join t ∈ s.pc.remaining) (awake : s.pc ≠ .store)
    (here : state ≠ .absent) (ws : t = .ws → state = .finished ∨ state = .joined → r = false) :
    Tidy ({s with running := r}.put t state) := by
  have down (fallen : s.running = false) : r = false := by
    cases r with
    | false => rfl
    | true => rw [lower rfl] at fallen; contradiction
  have other (u : Thread) (away : u ≠ t) : ({s with running := r}.put t state).threads u = s.threads u :=
    Function.update_of_ne away _ _
  have own : ({s with running := r}.put t state).threads t = state := Function.update_self ..
  have present : s.threads .ws ≠ .absent → ({s with running := r}.put t state).threads .ws ≠ .absent := by
    intro before
    by_cases same : Thread.ws = t
    · subst same; rw [own]; exact here
    · rw [other _ same]; exact before
  refine ⟨fun store => absurd store awake,fun done => ?_,fun u => ?_,tidy.ordered,fun rest at_ => ?_,
    fun wait => present (tidy.waited wait),fun back => down (tidy.returned back)⟩
  · by_cases same : Thread.ws = t
    · subst same
      rw [own] at done
      exact ws rfl done
    · rw [other _ same] at done
      exact down (tidy.ended done)
  · by_cases same : u = t
    · subst same; exact .inr (.inr due)
    · rw [other u same]; exact tidy.pending u
  · exact (tidy.begun rest at_).imp_right present

theorem tidySpawn {s s' : State} {parent child : Thread} (tidy : Tidy s) (ok : spawn s parent child = some s')
    (other : child ≠ .ws) (due : Action.join parent ∈ s.pc.remaining → Action.join child ∈ s.pc.remaining) :
    Tidy s' := by
  unfold spawn at ok
  split at ok <;> try contradiction
  rename_i enabled
  cases Option.some.inj ok
  obtain ⟨first,awake⟩ := workingDue (t := parent) tidy (by rw [enabled.1]; simp) (by rw [enabled.1]; simp)
  exact tidyPut (r := s.running) tidy (fun h => h) (due first) awake (by simp) fun same => absurd same other

theorem tidyMove {s : State} {pc : RunPc} (a b : Bool) (tidy : Tidy s) (awake : pc ≠ .store)
    (fewer : ∀ t, Action.join t ∈ s.pc.remaining → Action.join t ∈ pc.remaining ∨ s.threads t = .absent ∨
      s.threads t = .joined)
    (ordered : pc.remaining <:+ waits)
    (begun : ∀ rest, pc = .starting rest → Start.thread .ws ∈ rest ∨ s.threads .ws ≠ .absent)
    (waited : pc.waits = true → s.threads .ws ≠ .absent) (returned : pc = .returned → s.running = false) :
    Tidy {s with pc := pc, stackRunning := a, reactorRunning := b} := by
  refine ⟨fun store => absurd store awake,tidy.ended,fun t => ?_,ordered,begun,waited,returned⟩
  rcases tidy.pending t with absent | joined | due
  · exact .inl absent
  · exact .inr (.inl joined)
  · rcases fewer t due with still | absent | joined
    · exact .inr (.inr still)
    · exact .inl absent
    · exact .inr (.inl joined)

theorem tidyStored {s : State} (userspaceStack : Bool) (tidy : Tidy s) (store : s.pc = .store) :
    Tidy {s with running := true, pc := .starting (starts userspaceStack)} := by
  have absent := tidy.fresh store
  refine ⟨fun wrong => by simp at wrong,fun done => ?_,fun t => .inl (absent t),List.suffix_refl _,
    fun rest at_ => .inl ?_,fun wrong => by simp [RunPc.waits] at wrong,fun wrong => by simp at wrong⟩
  · change s.threads .ws = .finished ∨ s.threads .ws = .joined at done
    rw [absent] at done
    simp at done
  · cases at_
    cases userspaceStack <;> decide

theorem tidyStarted {s : State} {t : Thread} {rest : List Start} (reactorRunning : Bool) (tidy : Tidy s)
    (here : s.pc = .starting (.thread t::rest)) :
    Tidy ({s with reactorRunning := reactorRunning, pc := .starting rest}.put t .looping) := by
  have put : Tidy (s.put t .looping) :=
    tidyPut (r := s.running) tidy (fun h => h) (by rw [here]; exact allDue t) (by rw [here]; simp) (by simp) (by simp)
  refine tidyMove s.stackRunning reactorRunning put (by simp) (fun u due => .inl (allDue u)) (List.suffix_refl _)
    (fun rest' same => ?_) (by simp [RunPc.waits]) (by simp)
  cases same
  by_cases own : Thread.ws = t
  · subst own; exact .inr (by simp [State.put])
  · rcases tidy.begun _ here with due | begun
    · exact .inl (by simpa [own] using due)
    · refine .inr ?_
      change Function.update s.threads t .looping .ws ≠ .absent
      rw [Function.update_of_ne own]
      exact begun

theorem tidyWaited {s s' : State} (tidy : Tidy s) (ok : handle u s .waited = some s') : Tidy s' := by
  simp only [handle] at ok
  split at ok
  · rename_i rest here
    cases Option.some.inj ok
    have ordered := tidy.ordered
    rw [here] at ordered
    exact tidyMove false s.reactorRunning tidy (by simp)
      (fun t due => .inl (by rw [here] at due; simpa [RunPc.remaining] using due))
      ((List.suffix_cons _ _).trans ordered) (by simp) (fun _ => tidy.waited (by rw [here]; rfl)) (by simp)
  · rename_i rest here
    cases Option.some.inj ok
    have ordered := tidy.ordered
    rw [here] at ordered
    exact tidyMove s.stackRunning false tidy (by simp)
      (fun t due => .inl (by rw [here] at due; simpa [RunPc.remaining] using due))
      ((List.suffix_cons _ _).trans ordered) (by simp) (fun _ => tidy.waited (by rw [here]; rfl)) (by simp)
  · rename_i t rest here
    cases Option.some.inj ok
    have ordered := tidy.ordered
    rw [here] at ordered
    split
    · rename_i gone
      refine tidyMove s.stackRunning s.reactorRunning tidy (by simp) (fun u due => ?_)
        ((List.suffix_cons _ _).trans ordered) (by simp) (fun _ => tidy.waited (by rw [here]; rfl)) (by simp)
      rw [here] at due
      rcases List.mem_cons.mp due with same | later
      · cases same; exact .inr gone
      · exact .inl later
    · exact tidyMove s.stackRunning s.reactorRunning tidy (by simp) (fun u due => .inl (by rw [here] at due; exact due))
        ordered (by simp) (fun _ => tidy.waited (by rw [here]; rfl)) (by simp)
  · rename_i here
    cases Option.some.inj ok
    have joined : s.threads .ws = .joined := by
      rcases tidy.pending .ws with absent | joined | due
      · exact absurd absent (tidy.waited (by rw [here]; rfl))
      · exact joined
      · rw [here] at due; simp [RunPc.remaining] at due
    exact tidyMove s.stackRunning s.reactorRunning tidy (by simp)
      (fun u due => by rw [here] at due; simp [RunPc.remaining] at due) (by simp [RunPc.remaining]) (by simp)
      (by simp [RunPc.waits]) fun _ => tidy.ended (.inr joined)
  · rename_i t rest here
    split at ok <;> try contradiction
    rename_i finished
    cases Option.some.inj ok
    have ordered := tidy.ordered
    rw [here] at ordered
    have put : Tidy (s.put t .joined) :=
      tidyPut (r := s.running) tidy (fun h => h) (by rw [here]; simp [RunPc.remaining]) (by rw [here]; simp) (by simp)
        fun same _ => tidy.ended (.inl (same ▸ finished))
    refine tidyMove s.stackRunning s.reactorRunning put (by simp) (fun u due => ?_)
      ((List.suffix_cons _ _).trans ordered) (by simp) (fun _ => put.waited (by change s.pc.waits = true; rw [here]; rfl))
      (by simp)
    change Action.join u ∈ s.pc.remaining at due
    rw [here] at due
    rcases List.mem_cons.mp due with same | later
    · cases same; exact .inr (.inr (Function.update_self ..))
    · exact .inl later
  · contradiction

theorem tidyStarts {s s' : State} {ok userspaceStack : Bool} (tidy : Tidy s) (orderly : Orderly s (.started ok))
    (stepped : handle userspaceStack s (.started ok) = some s') : Tidy s' := by
  simp only [handle] at stepped
  split at stepped
  · rename_i rest here
    cases Option.some.inj stepped
    cases ok with
    | true =>
      refine tidyMove s.stackRunning s.reactorRunning tidy (by simp) (fun t _ => .inl (allDue t))
        (List.suffix_refl _) (fun rest' same => ?_) (by simp [RunPc.waits]) (by simp)
      cases same
      exact (tidy.begun _ here).imp_left fun due => by simpa using due
    | false =>
      obtain ⟨down,absent⟩ := orderly rest here
      exact tidyMove s.stackRunning s.reactorRunning tidy (by simp) (fun t _ => .inr (.inl (absent t)))
        (by simp [RunPc.remaining]) (by simp) (by simp [RunPc.waits]) fun _ => down
  · rename_i rest here
    cases Option.some.inj stepped
    refine tidyMove true s.reactorRunning tidy (by simp) (fun t _ => .inl (allDue t)) (List.suffix_refl _)
      (fun rest' same => ?_) (by simp [RunPc.waits]) (by simp)
    cases same
    exact (tidy.begun _ here).imp_left fun due => by simpa using due
  · rename_i rest here
    cases Option.some.inj stepped
    exact tidyStarted true tidy here
  · rename_i t rest _ here
    cases Option.some.inj stepped
    exact tidyStarted s.reactorRunning tidy here
  · rename_i here
    cases Option.some.inj stepped
    exact tidyMove s.stackRunning s.reactorRunning tidy (by simp) (fun t _ => .inl (allDue t)) (List.suffix_refl _)
      (by simp) (fun _ => (tidy.begun [] here).resolve_left (by simp)) (by simp)
  · contradiction

theorem tidyStep {s s' : State} {e : Event} {userspaceStack : Bool} (tidy : Tidy s) (orderly : Orderly s e)
    (stepped : step userspaceStack s e s') : Tidy s' := by
  unfold step at stepped
  cases e with
  | stored =>
    simp only [handle] at stepped
    split at stepped <;> try contradiction
    rename_i here
    cases Option.some.inj stepped
    exact tidyStored userspaceStack tidy here
  | started ok => exact tidyStarts tidy orderly stepped
  | waited => exact tidyWaited tidy stepped
  | turned t =>
    simp only [handle] at stepped
    split at stepped <;> try contradiction
    rename_i here
    cases Option.some.inj stepped
    obtain ⟨due,awake⟩ := workingDue (t := t) tidy (by rw [here]; simp) (by rw [here]; simp)
    exact tidyPut (r := s.running) tidy (fun h => h) due awake (by split <;> simp) fun _ => by split <;> simp
  | worked t again =>
    simp only [handle] at stepped
    split at stepped <;> try contradiction
    rename_i here
    cases Option.some.inj stepped
    obtain ⟨due,awake⟩ := workingDue (t := t) tidy (by rw [here]; simp) (by rw [here]; simp)
    exact tidyPut (r := s.running) tidy (fun h => h) due awake (by split <;> simp) fun _ => by split <;> simp
  | stopped t =>
    simp only [handle] at stepped
    split at stepped <;> try contradiction
    rename_i here
    cases Option.some.inj stepped
    obtain ⟨due,awake⟩ := workingDue (t := t) tidy (by rw [here]; simp) (by rw [here]; simp)
    refine tidyPut tidy (fun up => ?_) due awake (by simp) fun same _ => by subst same; rfl
    split at up
    · contradiction
    · exact up
  | stackFailed =>
    simp only [handle] at stepped
    split at stepped <;> try contradiction
    rename_i here
    cases Option.some.inj stepped
    obtain ⟨due,awake⟩ := workingDue (t := .stack) tidy (by rcases here with h | h <;> rw [h] <;> simp)
      (by rcases here with h | h <;> rw [h] <;> simp)
    exact tidyPut tidy (by simp) due awake (by simp) (by simp)
  | tunStarted => exact tidySpawn tidy stepped (by simp) fun _ => orderly
  | pollStarted => exact tidySpawn tidy stepped (by simp) fun due => (dueAfter tidy.ordered due).2
  | tickStarted => exact tidySpawn tidy stepped (by simp) fun due => (dueAfter tidy.ordered due).1
  | shutdown =>
    cases Option.some.inj stepped
    exact ⟨tidy.fresh,fun _ => rfl,tidy.pending,tidy.ordered,tidy.begun,tidy.waited,fun _ => rfl⟩

theorem startTidy : Tidy State.start :=
  ⟨fun _ _ => rfl,fun done => by simp [State.start] at done,fun _ => .inl rfl,List.suffix_refl _,
    fun rest at_ => by simp [State.start] at at_,fun wait => by simp [State.start,RunPc.waits] at wait,
    fun back => by simp [State.start] at back⟩

theorem orderlyClean (userspaceStack : Bool) (events : List Event) (s : State)
    (run : Run (Guarded (step userspaceStack) Orderly) State.start events s) : Clean s :=
  (run.guardedInvariant startTidy fun _ _ _ tidy orderly stepped => tidyStep tidy orderly stepped).clean

/- The stack is up when the server cannot be reached. -/
def unreachable : List Event :=
  (.stored::List.replicate 5 (.started true) : List Event) ++ ([.started false] : List Event)

theorem unreachableLeft : ∃ s, Run (step true) State.start unreachable s ∧ s.pc = .returned ∧
    condition s .netMsg = true ∧ s.threads .netMsg = .looping ∧ ¬ Clean s := by
  have outcome : (execute (handle true) State.start unreachable).map (fun s =>
      (s.pc,s.running,s.threads .netMsg)) = some (.returned,true,.looping) := by decide +kernel
  obtain ⟨s,ok,same⟩ := Option.map_eq_some_iff.mp outcome
  simp only [Prod.mk.injEq] at same
  obtain ⟨back,up,looping⟩ := same
  refine ⟨s,executeRun (fun _ _ _ h => h) ok,back,up,looping,fun clean => ?_⟩
  have down := (clean back).1
  rw [up] at down
  contradiction

/- Everything starts, the tun message thread starts the device thread, shutdown is called. -/
def served : List Event :=
  (.stored::List.replicate 7 (.started true) : List Event) ++
    ([.turned .tunMsg,.tunStarted,.worked .tunMsg true,.shutdown] : List Event) ++
    (([.wsMsg,.ws,.tun,.tunMsg,.peerMsg] : List Thread).flatMap (fun t => [.turned t,.stopped t]) : List Event) ++
    (List.replicate 18 .waited : List Event)

theorem servedClean : ∃ s, Run (Guarded (step false) Orderly) State.start served s ∧ s.pc = .returned ∧ Clean s := by
  have outcome : (execute (fun s e => if e ≠ .started false ∧ (e = .tunStarted → Action.join .tun ∈ s.pc.remaining)
      then handle false s e else none) State.start served).map (fun s => s.pc) = some .returned := by decide +kernel
  obtain ⟨s,ok,back⟩ := Option.map_eq_some_iff.mp outcome
  have run : Run (Guarded (step false) Orderly) State.start served s := by
    refine executeGuarded (fun _ _ _ h => h) (fun s e mild => ?_) ok
    cases e with
    | started good =>
      cases good with
      | true => trivial
      | false => exact absurd rfl mild.1
    | tunStarted => exact mild.2 rfl
    | _ => trivial
  exact ⟨s,run,back,orderlyClean false served s run⟩

end Candy.ClientRun
