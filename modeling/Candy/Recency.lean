import Candy.Table
import Mathlib.Data.Finset.Card
import Mathlib.Data.List.MinMax

/-! A bounded table of time stamps that forgets the oldest entry first, kept as a
library: nothing here names a component. The order in which the entries are
visited is any order. Against a log of all touches, newest first, such a table has
lost an entry only if the entry is stale, or if as many others were touched since. -/
namespace Candy

namespace Recency
variable {κ τ : Type}

/- Where an iteration starts and how it goes on. -/
structure Order (κ τ : Type) where
  entries : Table κ τ → List (Sigma fun _ : κ => τ)
  perm : ∀ t, (entries t).Perm t.entries

def Order.stored : Order κ τ := ⟨fun t => t.entries,fun _ => List.Perm.refl _⟩

section
variable [LinearOrder τ]

/- The first of the entries with the least stamp. -/
def oldest (entries : List (Sigma fun _ : κ => τ)) : Option (Sigma fun _ : κ => τ) := entries.argmin (fun e => e.2)

theorem oldestFound {order : Order κ τ} {t : Table κ τ} (inhabited : 0 < t.entries.length) : oldest (order.entries t) ≠ none := by
  intro missing
  have empty := List.argmin_eq_none.mp missing
  have same := (order.perm t).length_eq
  rw [empty] at same
  exact absurd inhabited (by rw [← same]; simp)

end

variable [DecidableEq κ]

section
variable [LinearOrder τ]

def evict (capacity : Nat) (order : Order κ τ) : Nat → Table κ τ → Table κ τ
  | 0,t => t
  | fuel+1,t =>
    if t.entries.length ≤ capacity then t
    else match oldest (order.entries t) with
      | none => t
      | some e => evict capacity order fuel (t.erase e.1)

end

def last (log : List (κ × τ)) (k : κ) : Option τ := (log.find? (fun e => e.1 = k)).map Prod.snd

section
variable [LinearOrder τ]

/- The others that were touched at or after a time. -/
def others (log : List (κ × τ)) (k : κ) (since : τ) : Finset κ :=
  ((log.filter (fun e => e.1 ≠ k ∧ since ≤ e.2)).map Prod.fst).toFinset

structure Tracks (capacity : Nat) (stale : τ → Prop) (log : List (κ × τ)) (t : Table κ τ) : Prop where
  stamped : ∀ k v, t.lookup k = some v → last log k = some v
  kept : ∀ k v, last log k = some v → t.lookup k = some v ∨ stale v ∨ capacity ≤ (others log k v).card

end

theorem lastTouched (log : List (κ × τ)) (k j : κ) (v : τ) : last ((k,v)::log) j = if j = k then some v else last log j := by
  unfold last
  rw [List.find?_cons]
  by_cases same : j = k
  · simp [same]
  · simp [same,Ne.symm same]

theorem lastMem {log : List (κ × τ)} {k : κ} {v : τ} (found : last log k = some v) : (k,v) ∈ log := by
  obtain ⟨e,first,same⟩ := Option.map_eq_some_iff.mp found
  have key := List.find?_some first
  have member := List.mem_of_find?_eq_some first
  obtain ⟨j,w⟩ := e
  simp only [decide_eq_true_eq] at key
  rw [← key,← same]
  exact member

theorem erasedLength {t : Table κ τ} {k : κ} {v : τ} (found : t.lookup k = some v) :
    (t.erase k).entries.length + 1 = t.entries.length := by
  have member : k ∈ t.keys := AList.mem_keys.mp (AList.lookup_isSome.mp (by rw [found]; rfl))
  have erased : (t.erase k).keys.length = t.keys.length - 1 := by
    rw [AList.keys_erase,List.length_erase_of_mem member]
  have positive := List.length_pos_of_mem member
  simp only [AList.keys,List.keys,List.length_map] at erased positive
  omega

theorem touchedLength {t : Table κ τ} {k : κ} {v w : τ} (found : t.lookup k = some v) :
    (t.insert k w).entries.length = t.entries.length := by
  have shorter := erasedLength found
  rw [AList.entries_insert,List.length_cons]
  exact shorter

variable [LinearOrder τ] {capacity : Nat} {order : Order κ τ}

theorem memOthers {log : List (κ × τ)} {k j : κ} {since : τ} :
    j ∈ others log k since ↔ j ≠ k ∧ ∃ v, (j,v) ∈ log ∧ since ≤ v := by
  simp only [others,List.mem_toFinset,List.mem_map,List.mem_filter,decide_eq_true_eq]
  constructor
  · rintro ⟨⟨i,v⟩,⟨member,other,later⟩,rfl⟩
    exact ⟨other,v,member,later⟩
  · rintro ⟨other,v,member,later⟩
    exact ⟨(j,v),⟨member,other,later⟩,rfl⟩

theorem othersGrow (log : List (κ × τ)) (e : κ × τ) (k : κ) (since : τ) : others log k since ⊆ others (e::log) k since := by
  intro j member
  obtain ⟨other,v,found,later⟩ := memOthers.mp member
  exact memOthers.mpr ⟨other,v,List.mem_cons_of_mem _ found,later⟩

theorem oldestSpec {t : Table κ τ} {e : Sigma fun _ : κ => τ} (found : oldest (order.entries t) = some e) :
    t.lookup e.1 = some e.2 ∧ ∀ k v, t.lookup k = some v → e.2 ≤ v := by
  constructor
  · exact Table.lookupSome.mpr ((order.perm t).mem_iff.mp (List.argmin_mem found))
  · intro k v looked
    have member : ⟨k,v⟩ ∈ order.entries t := (order.perm t).mem_iff.mpr (Table.lookupSome.mp looked)
    exact List.le_of_mem_argmin member found

theorem evictBounded (fuel : Nat) (t : Table κ τ) (enough : t.entries.length ≤ fuel + capacity) :
    (evict capacity order fuel t).entries.length ≤ capacity := by
  induction fuel generalizing t with
  | zero => simpa [evict] using enough
  | succ fuel ih =>
    unfold evict
    split
    · assumption
    · rename_i large
      cases found : oldest (order.entries t) with
      | none => exact absurd found (oldestFound (by omega))
      | some e =>
        have shorter := erasedLength (oldestSpec found).1
        exact ih (t.erase e.1) (by omega)

theorem evictLookup (fuel : Nat) (t : Table κ τ) {k : κ} {v : τ} (found : (evict capacity order fuel t).lookup k = some v) :
    t.lookup k = some v := by
  induction fuel generalizing t with
  | zero => exact found
  | succ fuel ih =>
    unfold evict at found
    split at found
    · exact found
    · cases old : oldest (order.entries t) with
      | none => rwa [old] at found
      | some e =>
        rw [old] at found
        have before := ih (t.erase e.1) found
        rw [Table.lookupErase] at before
        split at before
        · contradiction
        · exact before

/- What was evicted left behind as many entries as there is room for, none of them older. -/
theorem evictedBehind (fuel : Nat) (t : Table κ τ) {k : κ} {v : τ} (found : t.lookup k = some v)
    (gone : (evict capacity order fuel t).lookup k ≠ some v) :
    ∃ behind : Finset κ, capacity ≤ behind.card ∧ ∀ j ∈ behind, j ≠ k ∧ ∃ w, t.lookup j = some w ∧ v ≤ w := by
  induction fuel generalizing t with
  | zero => exact absurd found gone
  | succ fuel ih =>
    unfold evict at gone
    split at gone
    · exact absurd found gone
    rename_i large
    cases old : oldest (order.entries t) with
    | none => rw [old] at gone; exact absurd found gone
    | some e =>
      rw [old] at gone
      obtain ⟨there,least⟩ := oldestSpec old
      by_cases mine : k = e.1
      · subst mine
        cases Option.some.inj (there.symm.trans found)
        refine ⟨(t.erase e.1).keys.toFinset,?_,fun j member => ?_⟩
        · rw [List.toFinset_card_of_nodup (AList.keys_nodup _)]
          have shorter := erasedLength there
          simp only [AList.keys,List.keys,List.length_map]
          omega
        · obtain ⟨other,inside⟩ := AList.mem_erase.mp (AList.mem_keys.mpr (List.mem_toFinset.mp member))
          obtain ⟨w,looked⟩ := Option.isSome_iff_exists.mp (AList.lookup_isSome.mpr inside)
          exact ⟨other,w,looked,least j w looked⟩
      · have kept : (t.erase e.1).lookup k = some v := by rw [Table.lookupErase,if_neg mine]; exact found
        obtain ⟨behind,many,each⟩ := ih (t.erase e.1) kept gone
        refine ⟨behind,many,fun j member => ?_⟩
        obtain ⟨other,w,looked,later⟩ := each j member
        rw [Table.lookupErase] at looked
        split at looked
        · contradiction
        · exact ⟨other,w,looked,later⟩

variable {stale : τ → Prop} {log : List (κ × τ)} {t : Table κ τ}

theorem emptyTracks : Tracks capacity stale ([] : List (κ × τ)) ∅ where
  stamped k v found := by simp at found
  kept k v found := by simp [last] at found

theorem Tracks.touch (tracks : Tracks capacity stale log t) (k : κ) (v : τ) :
    Tracks capacity stale ((k,v)::log) (t.insert k v) where
  stamped j w found := by
    rw [Table.lookupInsert] at found
    rw [lastTouched]
    split
    · rename_i same; rwa [if_pos same] at found
    · rename_i other
      rw [if_neg other] at found
      exact tracks.stamped j w found
  kept j w found := by
    rw [lastTouched] at found
    rw [Table.lookupInsert]
    split
    · rename_i same
      rw [if_pos same] at found
      exact .inl found
    · rename_i other
      rw [if_neg other] at found
      rcases tracks.kept j w found with here | old | full
      · exact .inl here
      · exact .inr (.inl old)
      · exact .inr (.inr (full.trans (Finset.card_le_card (othersGrow ..))))

theorem Tracks.lose (tracks : Tracks capacity stale log t) {t' : Table κ τ}
    (fewer : ∀ k v, t'.lookup k = some v → t.lookup k = some v)
    (lost : ∀ k v, t.lookup k = some v → t'.lookup k = some v ∨ stale v ∨ capacity ≤ (others log k v).card) :
    Tracks capacity stale log t' where
  stamped k v found := tracks.stamped k v (fewer k v found)
  kept k v found := by
    rcases tracks.kept k v found with here | old
    · exact lost k v here
    · exact .inr old

theorem Tracks.keep (tracks : Tracks capacity stale log t) {p : κ → τ → Bool} (dropped : ∀ k v, p k v = false → stale v) :
    Tracks capacity stale log (t.keep p) := by
  refine tracks.lose (fun k v found => (Table.keepSome.mp found).1) fun k v found => ?_
  cases kept : p k v with
  | true => exact .inl (Table.keepSome.mpr ⟨found,kept⟩)
  | false => exact .inr (.inl (dropped k v kept))

theorem Tracks.evict (tracks : Tracks capacity stale log t) (fuel : Nat) :
    Tracks capacity stale log (evict capacity order fuel t) := by
  refine tracks.lose (fun k v => evictLookup fuel t) fun k v found => ?_
  by_cases here : (Recency.evict capacity order fuel t).lookup k = some v
  · exact .inl here
  · obtain ⟨behind,many,each⟩ := evictedBehind fuel t found here
    refine .inr (.inr (many.trans (Finset.card_le_card fun j member => ?_)))
    obtain ⟨other,w,looked,later⟩ := each j member
    exact memOthers.mpr ⟨other,w,lastMem (tracks.stamped j w looked),later⟩

theorem Tracks.later (tracks : Tracks capacity stale log t) {stale' : τ → Prop} (more : ∀ v, stale v → stale' v) :
    Tracks capacity stale' log t where
  stamped := tracks.stamped
  kept k v found := by
    rcases tracks.kept k v found with here | old | full
    · exact .inl here
    · exact .inr (.inl (more v old))
    · exact .inr (.inr full)

end Recency
end Candy
