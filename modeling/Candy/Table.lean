import Mathlib.Data.List.AList

/-! Finite maps with iteration, over Mathlib's association lists without
duplicate keys. `keep` is the erase-while-iterating loop of a reaper, `update`
the write through a found entry. Lookups decide every question about them. A copy
is kept elsewhere by replaying the changes one is told. -/
namespace Candy

abbrev Table (κ ν : Type) := AList (fun _ : κ => ν)

namespace Table
variable {κ ν : Type} [DecidableEq κ]

def keep (p : κ → ν → Bool) (t : Table κ ν) : Table κ ν :=
  ⟨t.entries.filter (fun e => p e.1 e.2),t.nodupKeys.sublist List.filter_sublist⟩

theorem lookupSome {t : Table κ ν} {k : κ} {v : ν} :
    t.lookup k = some v ↔ ⟨k,v⟩ ∈ t.entries := by
  simpa using AList.mem_lookup_iff (a := k) (b := v) (s := t)

theorem lookupKeep (p : κ → ν → Bool) (t : Table κ ν) (k : κ) :
    (t.keep p).lookup k = (t.lookup k).filter (p k) := by
  ext v
  rw [Option.filter_eq_some_iff,lookupSome,lookupSome]
  simp [keep,List.mem_filter]

theorem keepSome {p : κ → ν → Bool} {t : Table κ ν} {k : κ} {v : ν} :
    (t.keep p).lookup k = some v ↔ t.lookup k = some v ∧ p k v = true := by
  rw [lookupKeep,Option.filter_eq_some_iff]

theorem lookupInsert (t : Table κ ν) (k a : κ) (v : ν) :
    (t.insert a v).lookup k = if k = a then some v else t.lookup k := by
  split
  · rename_i same; subst same; exact AList.lookup_insert t
  · rename_i other; exact AList.lookup_insert_ne other

theorem lookupErase (t : Table κ ν) (k a : κ) :
    (t.erase a).lookup k = if k = a then none else t.lookup k := by
  split
  · rename_i same; subst same; exact AList.lookup_erase k t
  · rename_i other; exact AList.lookup_erase_ne other

inductive Change (κ ν : Type) where
  | put (k : κ) (v : ν)
  | drop (k : κ)

def change (t : Table κ ν) : Change κ ν → Table κ ν
  | .put k v => t.insert k v
  | .drop k => t.erase k

def replay (t : Table κ ν) (changes : List (Change κ ν)) : Table κ ν := changes.foldl change t

theorem replayAppend (t : Table κ ν) (changes more : List (Change κ ν)) :
    t.replay (changes ++ more) = (t.replay changes).replay more := List.foldl_append ..

theorem replayDrops (t : Table κ ν) (ks : List κ) (k : κ) :
    (t.replay (ks.map .drop)).lookup k = if k ∈ ks then none else t.lookup k := by
  induction ks generalizing t with
  | nil => rfl
  | cons a ks ih =>
    have here : (t.replay ((a::ks).map .drop)).lookup k = AList.lookup k (replay (t.erase a) (ks.map .drop)) := rfl
    rw [here,ih,lookupErase]
    by_cases same : k = a
    · simp [same]
    · simp [same]

end Table
end Candy
