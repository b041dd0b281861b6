import Candy.Runs
import Mathlib.Logic.Function.Basic

/-! Modules that talk to each other through queues, kept as a library: nothing here
names a component. An event either comes from outside or takes the head of one
queue; its handler changes the state the modules share, appends to queues, and lets
things out. What is allowed of every output is then true of every queue and of all
that came out, in any interleaving. -/
namespace Candy.Modules
open Runs

variable {σ ι μ ο ε : Type}

inductive Output (ι μ ο : Type) where
  | write (queue : ι) (msg : μ)
  | out (o : ο)

/- source says whose head an event takes. -/
structure System (σ ι μ ο ε : Type) where
  source : ε → Option ι
  handle : σ → ε → Option μ → Option (σ × List (Output ι μ ο))

structure State (σ ι μ ο : Type) where
  core : σ
  queues : ι → List μ
  sent : List ο

section
variable [DecidableEq ι]

def State.put (s : State σ ι μ ο) : Output ι μ ο → State σ ι μ ο
  | .write queue msg => {s with queues := Function.update s.queues queue (s.queues queue ++ [msg])}
  | .out o => {s with sent := o::s.sent}

def State.putAll (s : State σ ι μ ο) (outputs : List (Output ι μ ο)) : State σ ι μ ο := outputs.foldl State.put s

/- The head an event takes and the queues without it; an event cannot take from an
empty queue. -/
def State.take (s : State σ ι μ ο) : Option ι → Option (Option μ × (ι → List μ))
  | none => some (none,s.queues)
  | some queue => match s.queues queue with
    | [] => none
    | msg::rest => some (some msg,Function.update s.queues queue rest)

def System.handled (sys : System σ ι μ ο ε) (s : State σ ι μ ο) (e : ε) : Option (State σ ι μ ο) :=
  (s.take (sys.source e)).bind fun taken =>
    (sys.handle s.core e taken.1).map fun result => State.putAll ⟨result.1,taken.2,s.sent⟩ result.2

def System.step (sys : System σ ι μ ο ε) (s : State σ ι μ ο) (e : ε) (t : State σ ι μ ο) : Prop := sys.handled s e = some t

end

structure Allowed (inv : σ → Prop) (ok : Output ι μ ο → Prop) (s : State σ ι μ ο) : Prop where
  core : inv s.core
  queued : ∀ queue msg, msg ∈ s.queues queue → ok (.write queue msg)
  sent : ∀ o ∈ s.sent, ok (.out o)

variable [DecidableEq ι] {sys : System σ ι μ ο ε} {inv : σ → Prop} {ok : Output ι μ ο → Prop} {s t : State σ ι μ ο} {e : ε}

omit [DecidableEq ι] in
theorem Allowed.mono {inv' : σ → Prop} {ok' : Output ι μ ο → Prop} (allowed : Allowed inv ok s) (core : inv s.core → inv' s.core)
    (each : ∀ o, ok o → ok' o) : Allowed inv' ok' s :=
  ⟨core allowed.core,fun queue msg member => each _ (allowed.queued queue msg member),fun o member => each _ (allowed.sent o member)⟩

theorem Allowed.putAll (allowed : Allowed inv ok s) {outputs : List (Output ι μ ο)} (each : ∀ o ∈ outputs, ok o) :
    Allowed inv ok (s.putAll outputs) := by
  induction outputs generalizing s with
  | nil => exact allowed
  | cons output outputs ih =>
    have here := each output (List.mem_cons_self ..)
    refine ih ?_ fun o member => each o (List.mem_cons_of_mem _ member)
    cases output with
    | write queue msg =>
      refine ⟨allowed.core,fun other m member => ?_,allowed.sent⟩
      change m ∈ Function.update s.queues queue (s.queues queue ++ [msg]) other at member
      by_cases same : other = queue
      · subst same
        rw [Function.update_self] at member
        rcases List.mem_append.mp member with old | new
        · exact allowed.queued other m old
        · exact List.mem_singleton.mp new ▸ here
      · rw [Function.update_of_ne same] at member
        exact allowed.queued other m member
    | out o => exact ⟨allowed.core,allowed.queued,List.forall_mem_cons.mpr ⟨here,allowed.sent⟩⟩

theorem sentPutAll {outputs : List (Output ι μ ο)} {o : ο} : o ∈ (s.putAll outputs).sent ↔ .out o ∈ outputs ∨ o ∈ s.sent := by
  induction outputs generalizing s with
  | nil => simp [State.putAll]
  | cons output outputs ih =>
    have rest : (s.putAll (output::outputs)) = (s.put output).putAll outputs := rfl
    rw [rest,ih]
    cases output with
    | write queue msg => simp [State.put]
    | out x =>
      simp only [State.put,List.mem_cons,Output.out.injEq]
      tauto

def outs (outputs : List (Output ι μ ο)) : List ο := outputs.filterMap fun
  | .write _ _ => none
  | .out o => some o

theorem putAllSent {outputs : List (Output ι μ ο)} : (s.putAll outputs).sent = (outs outputs).reverse ++ s.sent := by
  induction outputs generalizing s with
  | nil => rfl
  | cons output outputs ih =>
    have rest : s.putAll (output::outputs) = (s.put output).putAll outputs := rfl
    rw [rest,ih]
    cases output with
    | write queue msg => rfl
    | out o =>
      have here : outs (Output.out o::outputs) = o::outs outputs := rfl
      rw [here,List.reverse_cons,List.append_assoc]
      rfl

theorem putAllCore {outputs : List (Output ι μ ο)} : (s.putAll outputs).core = s.core := by
  induction outputs generalizing s with
  | nil => rfl
  | cons output outputs ih =>
    have rest : s.putAll (output::outputs) = (s.put output).putAll outputs := rfl
    rw [rest,ih]
    cases output <;> rfl

def into (queue : ι) (outputs : List (Output ι μ ο)) : List μ := outputs.filterMap fun
  | .write q msg => if q = queue then some msg else none
  | .out _ => none

theorem putAllQueue {queue : ι} {outputs : List (Output ι μ ο)} : (s.putAll outputs).queues queue = s.queues queue ++ into queue outputs := by
  induction outputs generalizing s with
  | nil => exact (List.append_nil _).symm
  | cons output outputs ih =>
    have rest : s.putAll (output::outputs) = (s.put output).putAll outputs := rfl
    rw [rest,ih]
    cases output with
    | out o => rfl
    | write q msg =>
      by_cases same : q = queue
      · subst same
        have here : into q (Output.write q msg::outputs) = msg::into q outputs := by simp [into]
        rw [here]
        simp [State.put]
      · have here : into queue (Output.write q msg::outputs) = into queue outputs := by simp [into,same]
        rw [here]
        simp only [State.put,Function.update_of_ne (Ne.symm same)]

def Taken (s : State σ ι μ ο) (source : Option ι) (msg : Option μ) : Prop :=
  match source with
  | none => msg = none
  | some queue => ∃ head rest, s.queues queue = head::rest ∧ msg = some head

theorem takeSpec {source : Option ι} {msg : Option μ} {queues : ι → List μ} (take : s.take source = some (msg,queues)) :
    Taken s source msg ∧ ∀ queue m, m ∈ queues queue → m ∈ s.queues queue := by
  cases source with
  | none => cases take; exact ⟨rfl,fun _ _ member => member⟩
  | some queue =>
    simp only [State.take] at take
    split at take
    · contradiction
    rename_i head tail queued
    cases take
    refine ⟨⟨head,tail,queued,rfl⟩,fun other m member => ?_⟩
    by_cases same : other = queue
    · subst same
      rw [Function.update_self] at member
      exact queued ▸ List.mem_cons_of_mem _ member
    · rwa [Function.update_of_ne same] at member

theorem stepSpec (step : sys.step s e t) : ∃ msg queues core outputs, Taken s (sys.source e) msg ∧
    (∀ queue m, m ∈ queues queue → m ∈ s.queues queue) ∧ sys.handle s.core e msg = some (core,outputs) ∧
    t = State.putAll ⟨core,queues,s.sent⟩ outputs := by
  obtain ⟨⟨msg,queues⟩,take,rest⟩ := Option.bind_eq_some_iff.mp step
  obtain ⟨⟨core,outputs⟩,handled,rfl⟩ := Option.map_eq_some_iff.mp rest
  obtain ⟨taken,fewer⟩ := takeSpec take
  exact ⟨msg,queues,core,outputs,taken,fewer,handled,rfl⟩

theorem stepQueues (step : sys.step s e t) : ∃ msg core outputs, Taken s (sys.source e) msg ∧
    sys.handle s.core e msg = some (core,outputs) ∧ t.core = core ∧ t.sent = (outs outputs).reverse ++ s.sent ∧ ∀ queue, ∃ rest,
      s.queues queue = (if sys.source e = some queue then msg.toList else []) ++ rest ∧ t.queues queue = rest ++ into queue outputs := by
  obtain ⟨⟨msg,queues⟩,take,rest⟩ := Option.bind_eq_some_iff.mp step
  obtain ⟨⟨core,outputs⟩,handled,rfl⟩ := Option.map_eq_some_iff.mp rest
  refine ⟨msg,core,outputs,(takeSpec take).1,handled,putAllCore,putAllSent,fun queue => ⟨queues queue,?_,putAllQueue⟩⟩
  cases source : sys.source e with
  | none =>
    rw [source] at take
    cases take
    simp
  | some q =>
    rw [source] at take
    simp only [State.take] at take
    split at take
    · contradiction
    rename_i head tail queued
    cases take
    by_cases same : q = queue
    · subst same
      simp [queued]
    · have other : ¬ some q = some queue := fun equal => same (Option.some.inj equal)
      rw [if_neg other,Function.update_of_ne (Ne.symm same)]
      rfl

theorem Allowed.step (allowed : Allowed inv ok s) (stepped : sys.step s e t)
    (handler : ∀ msg core outputs, Taken s (sys.source e) msg → (∀ queue m, sys.source e = some queue → msg = some m → ok (.write queue m)) →
      sys.handle s.core e msg = some (core,outputs) → inv core ∧ ∀ o ∈ outputs, ok o) : Allowed inv ok t := by
  obtain ⟨msg,queues,core,outputs,taken,fewer,handled,rfl⟩ := stepSpec stepped
  have given : ∀ queue m, sys.source e = some queue → msg = some m → ok (.write queue m) := by
    intro queue m source same
    rw [source] at taken
    obtain ⟨head,rest,queued,here⟩ := taken
    cases here.symm.trans same
    exact allowed.queued queue m (queued ▸ List.mem_cons_self ..)
  obtain ⟨kept,each⟩ := handler msg core outputs taken given handled
  have taking : Allowed inv ok ⟨core,queues,s.sent⟩ :=
    ⟨kept,fun queue m member => allowed.queued queue m (fewer queue m member),allowed.sent⟩
  exact taking.putAll each

end Candy.Modules
