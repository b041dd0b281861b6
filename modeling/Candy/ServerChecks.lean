import Candy.ServerDhcp

/-! A frame whose hash does not match. The check writes the hash it expected into
the buffer and the handler logs that buffer, so apart from frames too short to be
looked at, every refused frame leaves its own valid form in the log. -/
namespace Candy.WsMsg

theorem fieldBefore {m value : Bytes} {offset i n : Nat} (before : i + n ≤ offset) (inside : offset ≤ m.length) :
    field (setField m offset value) i n = field m i n := by
  have start : (m.take offset).length = offset := by rw [List.length_take]; omega
  rw [field,setField,List.append_assoc,List.drop_append_of_le_length (by omega),
    List.take_append_of_le_length (by rw [List.length_drop]; omega),List.drop_take,List.take_take,field]
  congr 1
  omega

/- The hash lies behind what it covers and inside the frame. -/
structure Signed.Laid (l : Signed) : Prop where
  covered : ∀ f ∈ l.covered, f.1 + f.2 ≤ l.hash
  kind : 0 < l.hash
  size : l.hash + 32 ≤ l.size

section
variable {l : Signed} {sha : Digest} {password m : Bytes}

theorem Signed.updatedLength (laid : l.Laid) (long : l.size ≤ m.length) : (l.updateHash sha password m).length = m.length := by
  have room := laid.size
  exact setFieldLength (by rw [sha.length]; omega)

theorem Signed.updatedTwice (laid : l.Laid) (long : l.size ≤ m.length) :
    field (l.updateHash sha password (l.updateHash sha password m)) l.hash 32 =
      field (l.updateHash sha password m) l.hash 32 := by
  have room := laid.size
  have digest (data : Bytes) (n : Bytes) (inside : l.hash ≤ n.length) :
      field (setField n l.hash (sha.sha256 data)) l.hash 32 = sha.sha256 data := by
    rw [← sha.length data]
    exact fieldSet inside
  have covered : l.covered.flatMap (fun f => field (l.updateHash sha password m) f.1 f.2) =
      l.covered.flatMap (fun f => field m f.1 f.2) :=
    List.flatMap_congr fun f member => fieldBefore (laid.covered f member) (by omega)
  have length := @Signed.updatedLength l sha password m laid long
  rw [Signed.updateHash,digest _ _ (by omega),covered,Signed.updateHash,digest _ _ (by omega)]

theorem Signed.updatedPasses (laid : l.Laid) (long : l.size ≤ m.length) :
    (l.check sha password (l.updateHash sha password m)).1 = true :=
  beq_iff_eq.mpr (Signed.updatedTwice laid long).symm

theorem Signed.updatedDiffers (bad : (l.check sha password m).1 = false) : l.updateHash sha password m ≠ m := by
  intro same
  simp [Signed.check,same] at bad

end
end Candy.WsMsg

namespace Candy.Server
open WsMsg

def signedOf (frame : Bytes) : Option Signed :=
  if byteAt frame 0 = Kind.AUTH then some Auth
  else if byteAt frame 0 = Kind.EXPTTUN then some ExptTun
  else if byteAt frame 0 = Kind.VMAC then some VMac
  else none

def Matches (env : Env) (password frame : Bytes) : Prop :=
  ∃ l, signedOf frame = some l ∧ l.size ≤ frame.length ∧ (l.check env.sha password frame).1 = true

def OnlyStatus (s : State) (p : Ptr) (t : State) : Prop := ∃ status, t = s.setStatus p status

def LogsNoHash (env : Env) (password : Bytes) (sent : List Effect) : Prop :=
  ∀ text dump, .log text dump ∈ sent → ¬ Matches env password dump

inductive Refusal (env : Env) (l : Signed) (s : State) (p : Ptr) : State × List Effect → Prop where
  | short (text : String) (less : (s.mem p).buffer.length < l.size) : Refusal env l s p (refuse s p text [])
  | failed (text : String) (long : l.size ≤ (s.mem p).buffer.length)
      (bad : (l.check env.sha s.password (s.mem p).buffer).1 = false) :
      Refusal env l s p (refuse (s.setBuffer p (l.updateHash env.sha s.password (s.mem p).buffer)) p text
        (l.updateHash env.sha s.password (s.mem p).buffer))

section
variable {env : Env} {s : State} {p : Ptr} {l : Signed} {m : Bytes}

theorem signedLaid (kind : signedOf m = some l) : l.Laid := by
  unfold signedOf at kind
  split at kind
  · cases kind; exact ⟨by decide,by decide,by decide⟩
  split at kind
  · cases kind; exact ⟨by decide,by decide,by decide⟩
  split at kind
  · cases kind; exact ⟨by decide,by decide,by decide⟩
  · contradiction

theorem updatedMatches {password : Bytes} (kind : signedOf m = some l) (long : l.size ≤ m.length) :
    Matches env password (l.updateHash env.sha password m) := by
  have laid := signedLaid kind
  have room := laid.size
  have first : byteAt (l.updateHash env.sha password m) 0 = byteAt m 0 := byteBeforeField laid.kind (by omega)
  refine ⟨l,?_,by rw [Signed.updatedLength laid long]; exact long,Signed.updatedPasses laid long⟩
  unfold signedOf
  rw [first]
  exact kind

theorem nothingMatches {password : Bytes} : ¬ Matches env password [] := by
  rintro ⟨l,kind,long,_⟩
  have room := (signedLaid kind).size
  rw [List.length_nil] at long
  omega

theorem authRefusal (bad : Auth.size ≤ (s.mem p).buffer.length → (Auth.check env.sha s.password (s.mem p).buffer).1 = false) :
    Refusal env Auth s p (handleAuthMsg env s p) := by
  unfold handleAuthMsg
  by_cases less : (s.mem p).buffer.length < Auth.size
  · simp only [if_pos less]
    exact .short _ less
  · have failed := bad (Nat.le_of_not_lt less)
    simp only [if_neg less,failed,Bool.not_false,if_true]
    exact .failed _ (Nat.le_of_not_lt less) failed

theorem vmacRefusal (bad : VMac.size ≤ (s.mem p).buffer.length → (VMac.check env.sha s.password (s.mem p).buffer).1 = false) :
    Refusal env VMac s p (handleVMacMsg env s p) := by
  unfold handleVMacMsg
  by_cases less : (s.mem p).buffer.length < VMac.size
  · simp only [if_pos less]
    exact .short _ less
  · have failed := bad (Nat.le_of_not_lt less)
    simp only [if_neg less,failed,Bool.not_false,if_true]
    exact .failed _ (Nat.le_of_not_lt less) failed

theorem exptTunRefusal {now} (bad : ExptTun.size ≤ (s.mem p).buffer.length →
    (ExptTun.check env.sha s.password (s.mem p).buffer).1 = false) :
    ∃ out, handleExptTunMsg env s p now = some out ∧ Refusal env ExptTun s p out := by
  unfold handleExptTunMsg
  by_cases less : (s.mem p).buffer.length < ExptTun.size
  · simp only [if_pos less]
    exact ⟨_,rfl,.short _ less⟩
  · have failed := bad (Nat.le_of_not_lt less)
    simp only [if_neg less,failed,Bool.not_false,if_true]
    exact ⟨_,rfl,.failed _ (Nat.le_of_not_lt less) failed⟩

theorem mismatchRefusal {now} (kind : signedOf (s.mem p).buffer = some l)
    (mismatch : ¬ Matches env s.password (s.mem p).buffer) :
    ∃ out, handleMsg env s p now = some out ∧ Refusal env l s p out := by
  have bad : l.size ≤ (s.mem p).buffer.length → (l.check env.sha s.password (s.mem p).buffer).1 = false := by
    intro long
    rw [← Bool.not_eq_true]
    exact fun good => mismatch ⟨l,kind,long,good⟩
  unfold signedOf at kind
  unfold handleMsg
  split at kind
  · rename_i auth
    cases kind
    simp only [if_pos auth]
    exact ⟨_,rfl,authRefusal bad⟩
  split at kind
  · rename_i exptTun
    cases kind
    simp only [exptTun]
    exact exptTunRefusal bad
  split at kind
  · rename_i vmac
    cases kind
    simp only [vmac]
    exact ⟨_,rfl,vmacRefusal bad⟩
  · contradiction

theorem shortKeeps {out : State × List Effect} (refusal : Refusal env l s p out) (kind : signedOf (s.mem p).buffer = some l) :
    (OnlyStatus s p out.1 ↔ (s.mem p).buffer.length < l.size) ∧
    (LogsNoHash env s.password out.2 ↔ (s.mem p).buffer.length < l.size) := by
  cases refusal with
  | short text less =>
    refine ⟨iff_of_true ⟨-1,rfl⟩ less,iff_of_true (fun text' dump member => ?_) less⟩
    simp only [refuse,List.mem_singleton,Effect.log.injEq] at member
    rw [member.2]
    exact nothingMatches
  | failed text long bad =>
    refine ⟨iff_of_false ?_ (Nat.not_lt.mpr long),iff_of_false ?_ (Nat.not_lt.mpr long)⟩
    · rintro ⟨status,same⟩
      have buffers := congrArg (fun t => (t.mem p).buffer) same
      simp [refuse,State.setStatus,State.setBuffer,State.write] at buffers
      exact Signed.updatedDiffers bad buffers
    · intro silent
      exact silent _ _ (List.mem_singleton_self _) (updatedMatches kind long)

end

theorem failedChecks (env : Env) (s : State) (p : Ptr) (now : BitVec 64) (l : Signed)
    (kind : signedOf (s.mem p).buffer = some l) (mismatch : ¬ Matches env s.password (s.mem p).buffer) :
    ∃ out, handleMsg env s p now = some out ∧
      (OnlyStatus s p out.1 ↔ (s.mem p).buffer.length < l.size) ∧
      (LogsNoHash env s.password out.2 ↔ (s.mem p).buffer.length < l.size) := by
  obtain ⟨out,ok,refusal⟩ := mismatchRefusal kind mismatch
  exact ⟨out,ok,shortKeeps refusal kind⟩

/- A login without its hash: the log holds the frame that would log in. -/
def unsignedFrame : Bytes := [Kind.AUTH] ++ signedPart 1 ++ List.replicate 32 0
def unsignedState : State := (initial [] noNetwork []).setBuffer 0 unsignedFrame

theorem unsignedMismatch : ¬ Matches threeHosts unsignedState.password (unsignedState.mem 0).buffer := by
  rintro ⟨l,kind,_,good⟩
  cases Option.some.inj (kind.symm.trans (if_pos rfl))
  exact absurd good (by decide +kernel)

theorem unsignedLogged : ∃ out, handleMsg threeHosts unsignedState 0 0 = some out ∧
    .log "auth header check failed: buffer %s" (loginFrame 1) ∈ out.2 ∧
    loginAddress threeHosts unsignedState.password (loginFrame 1) = some (host 1) ∧
    ¬ OnlyStatus unsignedState 0 out.1 ∧ ¬ LogsNoHash threeHosts unsignedState.password out.2 := by
  have outcome : (handleMsg threeHosts unsignedState 0 0).map (fun out => ((out.1.mem 0).buffer,out.2)) =
      some (loginFrame 1,[.log "auth header check failed: buffer %s" (loginFrame 1)]) := by decide +kernel
  obtain ⟨out,ok,same⟩ := Option.map_eq_some_iff.mp outcome
  simp only [Prod.mk.injEq] at same
  have logged : .log "auth header check failed: buffer %s" (loginFrame 1) ∈ out.2 := by
    rw [same.2]
    exact List.mem_singleton_self _
  refine ⟨out,ok,logged,by decide +kernel,?_,fun silent => silent _ _ logged ⟨Auth,if_pos rfl,by decide +kernel,by decide +kernel⟩⟩
  rintro ⟨status,kept⟩
  have buffers := congrArg (fun t => (t.mem 0).buffer) kept
  have stays : ((unsignedState.setStatus 0 status).mem 0).buffer = unsignedFrame := rfl
  rw [same.1,stays] at buffers
  exact absurd buffers (by decide +kernel)

theorem unsignedFailed : ∃ out, handleMsg threeHosts unsignedState 0 0 = some out ∧
    (OnlyStatus unsignedState 0 out.1 ↔ (unsignedState.mem 0).buffer.length < Auth.size) ∧
    (LogsNoHash threeHosts unsignedState.password out.2 ↔ (unsignedState.mem 0).buffer.length < Auth.size) :=
  failedChecks threeHosts unsignedState 0 0 Auth (if_pos rfl) unsignedMismatch

end Candy.Server
