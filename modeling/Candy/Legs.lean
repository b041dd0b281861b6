import Mathlib.Algebra.Order.Group.Int
import Mathlib.Data.List.Basic

/-! Weighted paths, kept as a library: nothing here names a component. A leg is one
measurement of one node by another, and every node between two legs adds its own cost. -/
namespace Candy.Legs

variable {α : Type*}

structure Leg (α : Type*) where
  src : α
  dst : α
  length : Int

inductive Path : α → α → List (Leg α) → Prop where
  | one (leg : Leg α) : Path leg.src leg.dst [leg]
  | cons {d rest} (leg : Leg α) (later : Path leg.dst d rest) : Path leg.src d (leg::rest)

def total (cost : α → Int) : List (Leg α) → Int
  | [] => 0
  | [leg] => leg.length
  | leg::next::rest => leg.length + cost leg.dst + total cost (next::rest)

variable {i j d : α} {front rest : List (Leg α)} {cost : α → Int}

theorem Path.nonempty (path : Path i d front) : front ≠ [] := by
  cases path with
  | one leg => simp
  | cons leg later => simp

theorem totalCons (leg : Leg α) (some : rest ≠ []) : total cost (leg::rest) = leg.length + cost leg.dst + total cost rest := by
  cases rest with
  | nil => exact absurd rfl some
  | cons next rest => rfl

theorem Path.append (left : Path i j front) (right : Path j d rest) : Path i d (front ++ rest) := by
  induction left with
  | one leg => exact .cons leg right
  | cons leg later ih => exact .cons leg (ih right)

/- The node where two paths meet adds its cost once. -/
theorem Path.totalAppend (left : Path i j front) (right : Path j d rest) :
    total cost (front ++ rest) = total cost front + cost j + total cost rest := by
  induction left with
  | one leg => exact totalCons leg right.nonempty
  | cons leg later ih =>
    have more := (later.append right).nonempty
    rw [List.cons_append,totalCons leg more,totalCons leg later.nonempty,ih right]
    omega

theorem Path.reached (path : Path i d front) : d ∈ front.map Leg.dst := by
  induction path with
  | one leg => exact List.mem_singleton.mpr rfl
  | cons leg later ih => exact List.mem_cons_of_mem _ ih

theorem Path.bound {least : α → α → Int} (triangle : ∀ i j d, least i d ≤ least i j + cost j + least j d)
    (path : Path i d front) (legs : ∀ leg ∈ front, least leg.src leg.dst ≤ leg.length) : least i d ≤ total cost front := by
  induction path with
  | one leg => exact legs leg (List.mem_singleton.mpr rfl)
  | @cons d rest leg later ih =>
    have here := legs leg (List.mem_cons_self ..)
    have behind := ih fun next member => legs next (List.mem_cons_of_mem _ member)
    have across := triangle leg.src leg.dst d
    rw [totalCons leg later.nonempty]
    omega

end Candy.Legs
