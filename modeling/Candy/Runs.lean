import Mathlib.Data.List.Induction

/-! Runs of a labelled step relation, kept as a library: nothing here names a
component. A label carries every choice the step depends on, so one relation
covers a sequential program, an interleaving of threads and a lossy network.
Reached states are the ends of runs; a prefix of a run is itself a run. -/
namespace Candy.Runs

section
variable {σ α : Type*}

inductive Run (step : σ → α → σ → Prop) (init : σ) : List α → σ → Prop where
  | nil : Run step init [] init
  | snoc {labels s label t} (before : Run step init labels s) (last : step s label t) :
      Run step init (labels ++ [label]) t

/- The two ways of restricting a run: every step is taken in a state that meets
a condition, and every step leads to a state that meets a condition. -/
def Guarded (step : σ → α → σ → Prop) (condition : σ → α → Prop) (s : σ) (label : α) (t : σ) : Prop :=
  step s label t ∧ condition s label

def Keeping (step : σ → α → σ → Prop) (good : σ → Prop) (s : σ) (label : α) (t : σ) : Prop :=
  step s label t ∧ good t

variable {step : σ → α → σ → Prop} {init : σ}

theorem Run.invariant {inv : σ → Prop} (start : inv init)
    (preserved : ∀ s label t, inv s → step s label t → inv t)
    {labels s} (run : Run step init labels s) : inv s := by
  induction run with
  | nil => exact start
  | snoc _ last ih => exact preserved _ _ _ ih last

/- An invariant that guarded steps keep and that implies the wanted property.
If moreover an unguarded step always breaks the property, the guard is exact:
the runs that meet it at every step are the runs that are good throughout. -/
section
variable {condition : σ → α → Prop} {inv good : σ → Prop}

theorem Run.guardedInvariant (start : inv init)
    (preserved : ∀ s label t, inv s → condition s label → step s label t → inv t)
    {labels s} (run : Run (Guarded step condition) init labels s) : inv s :=
  run.invariant start fun s label t hs h => preserved s label t hs h.2 h.1

theorem guardExact (start : inv init) (strong : ∀ s, inv s → good s)
    (preserved : ∀ s label t, inv s → condition s label → step s label t → inv t)
    (necessary : ∀ s label t, inv s → ¬ condition s label → step s label t → ¬ good t)
    {labels s} : Run (Guarded step condition) init labels s ↔ Run (Keeping step good) init labels s := by
  constructor
  · intro run
    induction run with
    | nil => exact .nil
    | snoc before last ih =>
      have here := before.guardedInvariant start preserved
      exact .snoc ih ⟨last.1,strong _ (preserved _ _ _ here last.2 last.1)⟩
  · intro run
    induction run with
    | nil => exact .nil
    | snoc before last ih =>
      have here := ih.guardedInvariant start preserved
      refine .snoc ih ⟨last.1,?_⟩
      by_contra unmet
      exact necessary _ _ _ here unmet last.1 last.2

end

/- Running a partial function over a list of labels is a run of its graph. -/
def execute (f : σ → α → Option σ) : σ → List α → Option σ
  | s,[] => some s
  | s,label::rest => (f s label).bind (fun t => execute f t rest)

theorem executeAppend (f : σ → α → Option σ) (s : σ) (labels more : List α) :
    execute f s (labels ++ more) = (execute f s labels).bind (fun t => execute f t more) := by
  induction labels generalizing s with
  | nil => rfl
  | cons label rest ih => simp only [List.cons_append,execute,Option.bind_assoc,ih]

theorem executeRun {f : σ → α → Option σ} (sound : ∀ s label t, f s label = some t → step s label t)
    {labels s} (ok : execute f init labels = some s) : Run step init labels s := by
  induction labels using List.reverseRecOn generalizing s with
  | nil => cases Option.some.inj ok; exact .nil
  | append_singleton labels label ih =>
    rw [executeAppend] at ok
    obtain ⟨t,before,last⟩ := Option.bind_eq_some_iff.mp ok
    obtain ⟨u,stepped,done⟩ := Option.bind_eq_some_iff.mp last
    cases Option.some.inj done
    exact .snoc (ih before) (sound _ _ _ stepped)

theorem executeGuarded {f : σ → α → Option σ} {condition check : σ → α → Prop} [∀ s label, Decidable (check s label)]
    (sound : ∀ s label t, f s label = some t → step s label t) (met : ∀ s label, check s label → condition s label)
    {labels s} (ok : execute (fun s label => if check s label then f s label else none) init labels = some s) :
    Run (Guarded step condition) init labels s := by
  apply executeRun _ ok
  intro s label t taken
  split at taken
  · rename_i checked
    exact ⟨sound s label t taken,met s label checked⟩
  · contradiction

end
end Candy.Runs
