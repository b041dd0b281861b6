import Mathlib.Logic.Function.Iterate
import Mathlib.Order.Basic
import Mathlib.Data.Nat.Find

/-! Do-while search along the orbit of a function: step, give up on a stop
value, return a hit, else go on. Fuel bounds the passes; a search that meets a
stop value within its fuel never runs out. Generic in state and tests. -/
namespace Candy.Orbit

inductive Search (α : Type*) where
  | found (x : α)
  | exhausted
  | unfinished
  deriving DecidableEq, Repr

section
variable {α : Type*} (f : α → α) (stop hit : α → Bool)

def search : Nat → α → Search α
  | 0,_ => .unfinished
  | fuel+1,x =>
    if stop (f x) then .exhausted
    else if hit (f x) then .found (f x)
    else search fuel (f x)

def Passed (x : α) (k : Nat) : Prop := ∀ j, 0 < j → j < k → stop (f^[j] x) = false ∧ hit (f^[j] x) = false

variable {f stop hit}

theorem passedSucc {x : α} {k : Nat} : Passed f stop hit x (k+2) ↔
    (stop (f x) = false ∧ hit (f x) = false) ∧ Passed f stop hit (f x) (k+1) := by
  constructor
  · intro passed
    refine ⟨by simpa using passed 1 (by omega) (by omega),fun j positive below => ?_⟩
    simpa only [Function.iterate_succ_apply] using passed (j+1) (by omega) (by omega)
  · rintro ⟨first,rest⟩ j positive below
    cases j with
    | zero => omega
    | succ j => cases j with
      | zero => simpa using first
      | succ j => simpa only [Function.iterate_succ_apply] using rest (j+1) (by omega) (by omega)

theorem searchDecided {fuel k : Nat} {x : α} (enough : k < fuel) (passed : Passed f stop hit x (k+1))
    (decided : stop (f^[k+1] x) = true ∨ hit (f^[k+1] x) = true) :
    search f stop hit fuel x =
      if stop (f^[k+1] x) then .exhausted else .found (f^[k+1] x) := by
  induction k generalizing fuel x with
  | zero =>
    cases fuel with
    | zero => omega
    | succ fuel =>
      change stop (f x) = true ∨ hit (f x) = true at decided
      change search f stop hit (fuel+1) x = if stop (f x) then .exhausted else .found (f x)
      rw [search]
      cases go : stop (f x) with
      | true => rfl
      | false =>
        have reached : hit (f x) = true := by simpa [go] using decided
        rw [reached]; rfl
  | succ k ih =>
    cases fuel with
    | zero => omega
    | succ fuel =>
      obtain ⟨⟨go,miss⟩,rest⟩ := passedSucc.mp passed
      simp only [Function.iterate_succ_apply (n := k+1)] at decided ⊢
      rw [search,go,miss]
      exact ih (by omega) rest decided

theorem searchFound {fuel : Nat} {x y : α} (ok : search f stop hit fuel x = .found y) :
    ∃ j, y = f^[j] x := by
  induction fuel generalizing x with
  | zero => contradiction
  | succ fuel ih =>
    rw [search] at ok
    split at ok
    · contradiction
    split at ok
    · cases ok; exact ⟨1,rfl⟩
    · obtain ⟨j,rfl⟩ := ih ok
      exact ⟨j+1,rfl⟩

theorem firstDecided {fuel : Nat} {x : α} (bounded : ∃ k, k < fuel ∧ stop (f^[k+1] x) = true) :
    ∃ k, k < fuel ∧ Passed f stop hit x (k+1) ∧
      (stop (f^[k+1] x) = true ∨ hit (f^[k+1] x) = true) := by
  have some : ∃ k, stop (f^[k+1] x) = true ∨ hit (f^[k+1] x) = true := by
    obtain ⟨k,_,hk⟩ := bounded; exact ⟨k,.inl hk⟩
  obtain ⟨bound,below,atBound⟩ := bounded
  refine ⟨Nat.find some,lt_of_le_of_lt (Nat.find_min' some (.inl atBound)) below,?_,Nat.find_spec some⟩
  intro j positive before
  obtain ⟨i,rfl⟩ : ∃ i, j = i+1 := ⟨j-1,by omega⟩
  have early := Nat.find_min some (show i < Nat.find some by omega)
  simp only [not_or,Bool.not_eq_true] at early
  exact early

end
end Candy.Orbit
