import Candy.Table
import Mathlib.Data.Finset.Erase
import Mathlib.Data.Finset.Insert

/-! A map from keys to owners and its reverse index, kept as a library: nothing
here names a component. An owner without keys has no entry. Entering a new key,
leaving with a key and dropping an owner keep the two sides equal. -/
namespace Candy

abbrev ReverseIndex (σ κ : Type) := Table σ (Finset κ)

namespace ReverseIndex
variable {σ κ : Type} [DecidableEq σ]

def keys (index : ReverseIndex σ κ) (s : σ) : Finset κ := (index.lookup s).getD ∅

section
variable [DecidableEq κ]

def enter (index : ReverseIndex σ κ) (s : σ) (k : κ) : ReverseIndex σ κ := index.insert s (insert k (index.keys s))

def leave (index : ReverseIndex σ κ) (s : σ) (k : κ) : ReverseIndex σ κ :=
  match index.lookup s with
  | none => index
  | some endpoints => if endpoints.erase k = ∅ then index.erase s else index.insert s (endpoints.erase k)

end

/- The index says of every owner what the map says of every key. -/
structure Reverses (index : ReverseIndex σ κ) (owner : κ → Option σ) : Prop where
  keys : ∀ s k, k ∈ index.keys s ↔ owner k = some s
  inhabited : ∀ s, index.lookup s ≠ some ∅

variable {index : ReverseIndex σ κ} {owner : κ → Option σ}

theorem memKeys {s : σ} {k : κ} : k ∈ index.keys s ↔ ∃ endpoints, index.lookup s = some endpoints ∧ k ∈ endpoints := by
  unfold keys
  cases found : index.lookup s with
  | none => simp
  | some endpoints => simp

theorem emptyReverses : Reverses (∅ : ReverseIndex σ κ) fun _ => none where
  keys s k := by simp [keys]
  inhabited s found := by simp at found

theorem Reverses.forget (reverses : index.Reverses owner) (s : σ) :
    Reverses (index.erase s) fun k => if owner k = some s then none else owner k where
  keys t k := by
    have old := reverses.keys t k
    have erased : ReverseIndex.keys (index.erase s) t = if t = s then ∅ else index.keys t := by
      unfold ReverseIndex.keys
      rw [Table.lookupErase]
      split <;> rfl
    rw [erased]
    by_cases same : t = s
    · subst same
      simp
    · rw [if_neg same,old]
      split
      · rename_i mine; simp [mine,Ne.symm same]
      · rfl
  inhabited t found := by
    rw [Table.lookupErase] at found
    split at found
    · contradiction
    · exact reverses.inhabited t found

variable [DecidableEq κ]

theorem keysEnter (s t : σ) (k : κ) : (index.enter s k).keys t = if t = s then insert k (index.keys s) else index.keys t := by
  unfold keys enter
  rw [Table.lookupInsert]
  split <;> rfl

theorem keysLeave (s t : σ) (k : κ) : (index.leave s k).keys t = if t = s then (index.keys s).erase k else index.keys t := by
  unfold leave keys
  cases found : index.lookup s with
  | none =>
    dsimp only
    split
    · rename_i same; rw [same,found]; simp
    · rfl
  | some endpoints =>
    dsimp only
    split
    · rename_i emptied
      rw [Table.lookupErase]
      split
      · simp [emptied]
      · rfl
    · rw [Table.lookupInsert]
      split <;> rfl

theorem Reverses.enter (reverses : index.Reverses owner) {s : σ} {k : κ} (fresh : owner k = none) :
    (index.enter s k).Reverses (Function.update owner k (some s)) where
  keys t l := by
    have old := reverses.keys t l
    rw [keysEnter]
    by_cases here : l = k
    · subst here
      rw [Function.update_self]
      have absent : l ∉ index.keys t := by rw [old,fresh]; simp
      split
      · rename_i same; subst same; simp
      · rename_i other; simp [absent,Ne.symm other]
    · rw [Function.update_of_ne here,← old]
      split
      · rename_i same; subst same; simp [here]
      · rfl
  inhabited t found := by
    rw [ReverseIndex.enter,Table.lookupInsert] at found
    split at found
    · exact Finset.insert_ne_empty _ _ (Option.some.inj found)
    · exact reverses.inhabited t found

theorem Reverses.leave (reverses : index.Reverses owner) {s : σ} {k : κ} (owned : owner k = some s) :
    (index.leave s k).Reverses (Function.update owner k none) where
  keys t l := by
    have old := reverses.keys t l
    rw [keysLeave]
    by_cases here : l = k
    · subst here
      rw [Function.update_self]
      split
      · simp
      · rename_i other
        rw [old,owned]
        simp [Ne.symm other]
    · rw [Function.update_of_ne here,← old]
      split
      · rename_i same; subst same; simp [here]
      · rfl
  inhabited t found := by
    unfold ReverseIndex.leave at found
    split at found
    · exact reverses.inhabited t found
    · split at found
      · rw [Table.lookupErase] at found
        split at found
        · contradiction
        · exact reverses.inhabited t found
      · rename_i rest
        rw [Table.lookupInsert] at found
        split at found
        · exact rest (Option.some.inj found)
        · exact reverses.inhabited t found

theorem Reverses.leaveAll (reverses : index.Reverses owner) {gone : List (σ × κ)}
    (once : (gone.map Prod.snd).Nodup) (owned : ∀ e ∈ gone, owner e.2 = some e.1) :
    (gone.foldl (fun index e => index.leave e.1 e.2) index).Reverses
      fun k => if k ∈ gone.map Prod.snd then none else owner k := by
  induction gone generalizing index owner with
  | nil => simpa using reverses
  | cons e gone ih =>
    obtain ⟨s,k⟩ := e
    rw [List.map_cons,List.nodup_cons] at once
    have left := reverses.leave (owned (s,k) (List.mem_cons_self ..))
    have rest : ∀ e ∈ gone, Function.update owner k none e.2 = some e.1 := by
      intro e member
      have other : e.2 ≠ k := fun same => once.1 (List.mem_map.mpr ⟨e,member,same⟩)
      rw [Function.update_of_ne other]
      exact owned e (List.mem_cons_of_mem _ member)
    have all := ih left once.2 rest
    have same : (fun l => if l ∈ gone.map Prod.snd then none else Function.update owner k none l) =
        fun l => if l ∈ ((s,k)::gone).map Prod.snd then none else owner l := by
      funext l
      by_cases here : l = k
      · subst here; simp
      · simp only [List.map_cons,List.mem_cons,here,false_or,Function.update_of_ne here]
    rwa [same] at all

end ReverseIndex
end Candy
