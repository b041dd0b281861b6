import Mathlib.Data.List.Basic

/-! A queue of tasks that several owners share, kept as a library: nothing here names a
component. What one owner still has to do is its part of the queue, in order; whatever
is put in or taken out for another owner leaves that part as it is. -/
namespace Candy.Shares

variable {ι α : Type} [DecidableEq ι]

def part (id : ι) (tasks : List (ι × α)) : List α := (tasks.filter (fun t => t.1 = id)).map (·.2)

variable {id other : ι} {a : α} {tasks more : List (ι × α)}

@[simp] theorem partNil : part id ([] : List (ι × α)) = [] := rfl

@[simp] theorem partAppend : part id (tasks ++ more) = part id tasks ++ part id more := by
  rw [part,part,part,List.filter_append,List.map_append]

@[simp] theorem partOwn : part id ((id,a)::tasks) = a :: part id tasks := by
  simp [part]

theorem partOther (apart : other ≠ id) : part id ((other,a)::tasks) = part id tasks := by
  simp [part,apart]

theorem memPart : a ∈ part id tasks ↔ (id,a) ∈ tasks := by
  simp [part]

theorem partPutOther (apart : other ≠ id) : part id (tasks ++ [(other,a)]) = part id tasks := by
  rw [partAppend,partOther apart,partNil,List.append_nil]

theorem partAll (l : List α) : part id (l.map fun a => (id,a)) = l := by
  induction l with
  | nil => rfl
  | cons a l ih => rw [List.map_cons,partOwn,ih]

theorem partAllOther (apart : other ≠ id) (l : List α) : part id (l.map fun a => (other,a)) = [] := by
  induction l with
  | nil => rfl
  | cons a l ih => rw [List.map_cons,partOther apart,ih]

end Candy.Shares
