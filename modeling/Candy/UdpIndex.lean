import Candy.ReverseIndex
import Candy.UdpMux

/-! The reverse index of the UDP multiplexer, src/netstack/udpmux.cc: after any
sequence of its operations, shutdown among them, it names for every source the
endpoints that source owns, and a source that goes takes those and no others. -/
namespace Candy.Udp
open Runs ReverseIndex

/- The tables are emptied, the counters stay. -/
def UdpMux.shutdown (m : UdpMux) : UdpMux := {m with endpointOwner := ∅,stunTxn := ∅,ownerEndpoints := ∅}

inductive Call where
  | op (op : Op)
  | shutdown
  deriving DecidableEq, Repr

def UdpMux.call (m : UdpMux) : Call → UdpMux
  | .op op => (apply m op).1
  | .shutdown => m.shutdown

def called (m : UdpMux) (c : Call) (m' : UdpMux) : Prop := m' = m.call c

def UdpMux.owner (m : UdpMux) (k : Key) : Option Bytes := (m.endpointOwner.lookup k).map OwnerEntry.owner

structure Indexed (m : UdpMux) : Prop where
  entries : ∀ s k, (∃ endpoints, m.ownerEndpoints.lookup s = some endpoints ∧ k ∈ endpoints) ↔
    ∃ e, m.endpointOwner.lookup k = some e ∧ e.owner = s
  inhabited : ∀ s, m.ownerEndpoints.lookup s ≠ some ∅

variable {m : UdpMux}

theorem indexedIff : Indexed m ↔ Reverses m.ownerEndpoints m.owner := by
  have owned (s : Bytes) (k : Key) : (∃ e, m.endpointOwner.lookup k = some e ∧ e.owner = s) ↔ m.owner k = some s := by
    rw [UdpMux.owner,Option.map_eq_some_iff]
  constructor
  · intro indexed
    exact ⟨fun s k => memKeys.trans ((indexed.entries s k).trans (owned s k)),indexed.inhabited⟩
  · intro reverses
    exact ⟨fun s k => memKeys.symm.trans ((reverses.keys s k).trans (owned s k).symm),reverses.inhabited⟩

theorem Indexed.still {m' : UdpMux} (indexed : Indexed m) (owners : m'.owner = m.owner)
    (index : m'.ownerEndpoints = m.ownerEndpoints) : Indexed m' := by
  rw [indexedIff] at indexed ⊢
  rwa [owners,index]

theorem touchOwner {k : Key} {e : OwnerEntry} (found : m.endpointOwner.lookup k = some e) (now : Int) :
    (m.touch k e now).owner = m.owner := by
  funext l
  change ((m.endpointOwner.insert k {e with lastActive := now}).lookup l).map OwnerEntry.owner = _
  rw [Table.lookupInsert,UdpMux.owner]
  split
  · rename_i same; rw [same,found]; rfl
  · rfl

theorem sendIndexed (indexed : Indexed m) (now : Int) (src : Bytes) (ip : BitVec 32) (port : BitVec 16) (data : Bytes) :
    Indexed (m.sendFromSource now src ip port data).1 := by
  unfold UdpMux.sendFromSource
  cases parsed : stunParse data with
  | some info =>
    dsimp only
    set asked := if info.klass = .Request then {m with stunTxn := m.stunTxn.insert info.txid ⟨src,now⟩} else m with shape
    have same : Indexed asked := by
      rw [shape]
      split <;> exact indexed.still rfl rfl
    cases found : asked.endpointOwner.lookup (endpointKey ip port) with
    | none => exact same
    | some e =>
      dsimp only
      split
      · exact same.still (touchOwner found now) rfl
      · exact same
  | none =>
    dsimp only
    cases found : m.endpointOwner.lookup (endpointKey ip port) with
    | none =>
      have fresh : m.owner (endpointKey ip port) = none := by rw [UdpMux.owner,found]; rfl
      have entered := (indexedIff.mp indexed).enter (s := src) fresh
      have owners : {m with endpointOwner := m.endpointOwner.insert (endpointKey ip port) ⟨src,now⟩}.owner =
          Function.update m.owner (endpointKey ip port) (some src) := by
        funext l
        change ((m.endpointOwner.insert (endpointKey ip port) ⟨src,now⟩).lookup l).map OwnerEntry.owner = _
        rw [Table.lookupInsert,Function.update_apply]
        split <;> rfl
      rw [← owners] at entered
      exact indexedIff.mpr entered
    | some e =>
      dsimp only
      split
      · exact indexed.still rfl rfl
      · exact indexed.still (touchOwner found now) rfl

theorem warnIndexed (indexed : Indexed m) (now : Int) : Indexed (m.warnDrop now).1 := by
  unfold UdpMux.warnDrop
  split
  · exact indexed
  · exact indexed.still rfl rfl

theorem endpointIndexed (indexed : Indexed m) (now : Int) (ip : BitVec 32) (port : BitVec 16) (data : Bytes) :
    Indexed (m.demuxByEndpoint now ip port data).1 := by
  unfold UdpMux.demuxByEndpoint
  dsimp only
  cases found : m.endpointOwner.lookup (endpointKey ip port) with
  | some e => exact indexed.still (touchOwner found now) rfl
  | none =>
    have missed : Indexed {m with dropEndpointMiss := m.dropEndpointMiss + 1} := indexed.still rfl rfl
    exact warnIndexed missed now

theorem demuxIndexed (indexed : Indexed m) (now : Int) (ip : BitVec 32) (port : BitVec 16) (data : Bytes) :
    Indexed (m.demux now ip port data).1 := by
  unfold UdpMux.demux
  cases parsed : stunParse data with
  | none => exact endpointIndexed indexed now ip port data
  | some info =>
    dsimp only
    split
    · cases found : m.stunTxn.lookup info.txid with
      | some txn => exact indexed.still rfl rfl
      | none =>
        have missed : Indexed {m with dropTxidMiss := m.dropTxidMiss + 1} := indexed.still rfl rfl
        exact warnIndexed missed now
    · exact endpointIndexed indexed now ip port data

theorem unindexLeave : UdpMux.unindex = ReverseIndex.leave := by
  funext index owner k
  unfold UdpMux.unindex ReverseIndex.leave
  cases index.lookup owner with
  | none => rfl
  | some endpoints => rfl

theorem reapIndexed (indexed : Indexed m) (now : Int) : Indexed (m.reap now).1 := by
  set aged : List (Σ _ : Key, OwnerEntry) := m.endpointOwner.entries.filter (fun e => now - e.2.lastActive > kEndpointIdle) with agedShape
  set gone : List (Bytes × Key) := aged.map fun e => (e.2.owner,e.1) with goneShape
  have keys : gone.map Prod.snd = aged.map Sigma.fst := by rw [goneShape,List.map_map]; rfl
  have once : (gone.map Prod.snd).Nodup := by
    rw [keys]
    exact (m.endpointOwner.nodupKeys.sublist List.filter_sublist)
  have owned : ∀ e ∈ gone, m.owner e.2 = some e.1 := by
    intro e member
    obtain ⟨f,inside,rfl⟩ := List.mem_map.mp member
    have entry : m.endpointOwner.lookup f.1 = some f.2 := Table.lookupSome.mpr (List.mem_of_mem_filter inside)
    rw [UdpMux.owner,entry]; rfl
  have left := (indexedIff.mp indexed).leaveAll once owned
  have aging (k : Key) : k ∈ gone.map Prod.snd ↔
      ∃ e, m.endpointOwner.lookup k = some e ∧ now - e.lastActive > kEndpointIdle := by
    rw [keys,List.mem_map]
    constructor
    · rintro ⟨f,inside,rfl⟩
      obtain ⟨entry,idle⟩ := List.mem_filter.mp inside
      exact ⟨f.2,Table.lookupSome.mpr entry,by simpa using idle⟩
    · rintro ⟨e,found,idle⟩
      exact ⟨⟨k,e⟩,List.mem_filter.mpr ⟨Table.lookupSome.mp found,by simpa using idle⟩,rfl⟩
  have owners : (m.reap now).1.owner = fun k => if k ∈ gone.map Prod.snd then none else m.owner k := by
    funext k
    have kept : (m.reap now).1.endpointOwner = m.endpointOwner.keep (fun _ e => !decide (now - e.lastActive > kEndpointIdle)) := by
      unfold UdpMux.reap
      dsimp only
      split <;> rfl
    rw [UdpMux.owner,kept,Table.lookupKeep]
    split
    · rename_i member
      obtain ⟨e,found,idle⟩ := (aging k).mp member
      rw [found]
      simp [Option.filter,idle]
    · rename_i stays
      rw [UdpMux.owner]
      cases found : m.endpointOwner.lookup k with
      | none => rfl
      | some e =>
        have active : ¬ now - e.lastActive > kEndpointIdle := fun idle => stays ((aging k).mpr ⟨e,found,idle⟩)
        simp [Option.filter,active]
  have index : (m.reap now).1.ownerEndpoints = gone.foldl (fun index e => ReverseIndex.leave index e.1 e.2) m.ownerEndpoints := by
    rw [goneShape,List.foldl_map,← unindexLeave]
    unfold UdpMux.reap
    dsimp only
    split <;> rfl
  rw [indexedIff,owners,index]
  exact left

theorem goneOwner (indexed : Indexed m) (s : Bytes) (k : Key) :
    (m.onSourceGone s).endpointOwner.lookup k = (m.endpointOwner.lookup k).filter (fun e => e.owner ≠ s) := by
  unfold UdpMux.onSourceGone
  cases found : m.ownerEndpoints.lookup s with
  | none =>
    have nothing : ∀ e, m.endpointOwner.lookup k = some e → e.owner ≠ s := by
      intro e entry mine
      obtain ⟨endpoints,listed,_⟩ := (indexed.entries s k).mpr ⟨e,entry,mine⟩
      rw [found] at listed
      contradiction
    cases entry : m.endpointOwner.lookup k with
    | none => rfl
    | some e => simp [Option.filter,nothing e entry]
  | some endpoints =>
    dsimp only
    rw [Table.lookupKeep]
    cases entry : m.endpointOwner.lookup k with
    | none => rfl
    | some e =>
      by_cases mine : e.owner = s
      · obtain ⟨listed,here,inside⟩ := (indexed.entries s k).mpr ⟨e,entry,mine⟩
        cases Option.some.inj (found.symm.trans here)
        simp [Option.filter,inside,mine]
      · simp [Option.filter,mine]

theorem goneIndex (m : UdpMux) (s : Bytes) : (m.onSourceGone s).ownerEndpoints = m.ownerEndpoints.erase s := by
  unfold UdpMux.onSourceGone
  cases found : m.ownerEndpoints.lookup s with
  | none =>
    refine AList.ext ?_
    have absent : s ∉ m.ownerEndpoints := AList.lookup_eq_none.mp found
    exact (List.kerase_of_notMem_keys (absent)).symm
  | some endpoints => rfl

theorem goneIndexed (indexed : Indexed m) (s : Bytes) : Indexed (m.onSourceGone s) := by
  have owners : (m.onSourceGone s).owner = fun k => if m.owner k = some s then none else m.owner k := by
    funext k
    rw [UdpMux.owner,goneOwner indexed,UdpMux.owner]
    cases m.endpointOwner.lookup k with
    | none => rfl
    | some e =>
      by_cases mine : e.owner = s
      · simp [Option.filter,mine]
      · simp [Option.filter,mine]
  rw [indexedIff,owners,goneIndex]
  exact (indexedIff.mp indexed).forget s

theorem indexedStep (indexed : Indexed m) (c : Call) : Indexed (m.call c) := by
  cases c with
  | op op =>
    cases op with
    | sendFromSource now src ip port data => exact sendIndexed indexed now src ip port data
    | demux now ip port data => exact demuxIndexed indexed now ip port data
    | reap now => exact reapIndexed indexed now
    | onSourceGone src => exact goneIndexed indexed src
  | shutdown => exact indexedIff.mpr emptyReverses

theorem indexConsistent {calls : List Call} (run : Run called UdpMux.fresh calls m) :
    Indexed m ∧ ∀ s,
      (∀ k, (m.onSourceGone s).endpointOwner.lookup k = (m.endpointOwner.lookup k).filter (fun e => e.owner ≠ s)) ∧
      ∀ other, other ≠ s → (m.onSourceGone s).ownerEndpoints.lookup other = m.ownerEndpoints.lookup other := by
  have indexed : Indexed m := run.invariant (indexedIff.mpr emptyReverses) fun _ c _ indexed moved => by
    rw [moved]
    exact indexedStep indexed c
  refine ⟨indexed,fun s => ⟨goneOwner indexed s,fun other different => ?_⟩⟩
  rw [goneIndex,Table.lookupErase,if_neg different]

/- An endpoint ages out, goes to another source and survives its first one. -/
def aging : List Call :=
  [.op (.sendFromSource 0 [1] 7 9 [0xff]),.op (.sendFromSource (seconds 20) [1] 7 10 [0xff]),.op (.reap (seconds 31)),
    .op (.sendFromSource (seconds 32) [2] 7 9 [0xff])]

theorem agingConsistent : ∃ m, Run called UdpMux.fresh aging m ∧ Indexed m ∧
    (m.onSourceGone [1]).endpointOwner.lookup (endpointKey 7 9) = some ⟨[2],seconds 32⟩ := by
  have run : Run called UdpMux.fresh aging _ := .snoc (.snoc (.snoc (.snoc .nil rfl) rfl) rfl) rfl
  obtain ⟨indexed,goes⟩ := indexConsistent run
  refine ⟨_,run,indexed,?_⟩
  rw [(goes [1]).1]
  decide

end Candy.Udp
