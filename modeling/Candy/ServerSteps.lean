import Candy.Server

/-! What one frame can change. Apart from an accepted login, a handler leaves the
registry, every stage and every address as they were, can only raise a status to
nonzero, moves the dhcp cursor along its network only, and sends to its own
connection or to registered ones; what it has no write for stays as it is. -/
namespace Candy.Server
open WsMsg

inductive Handled (env : Env) (s : State) : Event → State × List Effect → Prop where
  | opened {p : Ptr} (free : s.calls p = none) :
      Handled env s (.opened p) ((s.write p WsCtx.fresh).enter p (some .looping),[])
  | checked {p : Ptr} (here : s.calls p = some .looping) : Handled env s (.checked p)
      (s.enter p (some (if s.running && (s.mem p).status == 0 then .receiving else .leaving)),[])
  | received {p : Ptr} {frame : Bytes} {now : BitVec 64} {out : State × List Effect} (here : s.calls p = some .receiving)
      (received : frame ≠ []) (short : frame.length ≤ 1500)
      (served : handleMsg env ((s.setBuffer p frame).enter p (some .looping)) p now = some out) :
      Handled env s (.received p frame now) out
  | registered {p : Ptr} {ip : IP4} {out : State × List Effect} (here : s.calls p = some (.registering ip))
      (entered : register s p ip = out) : Handled env s (.registered p) out
  | idled {p : Ptr} (here : s.calls p = some .receiving) : Handled env s (.idled p) (s.enter p (some .looping),[])
  | hungUp {p : Ptr} (here : s.calls p = some .receiving ∨ s.calls p = some .looping) :
      Handled env s (.hungUp p) (s.enter p (some .leaving),[])
  | returned {p : Ptr} {t : State} {lines : List Effect} (here : s.calls p = some .leaving) (left : disconnect s p = (t,lines)) :
      Handled env s (.returned p) (t.enter p none,lines)
  | reused {p : Ptr} {garbage : WsCtx} (free : s.calls p = none) : Handled env s (.reused p garbage) (s.write p garbage,[])
  | stopped : Handled env s .stopped ({s with running := false, routes := []},[])

theorem handleCases {env s e out} (ok : handle env s e = some out) : Handled env s e out := by
  cases e with
  | opened p | checked p | idled p | hungUp p | reused p =>
    simp only [handle] at ok
    split at ok <;> try contradiction
    rename_i here
    cases Option.some.inj ok
    constructor
    exact here
  | received p frame now =>
    simp only [handle] at ok
    split at ok <;> try contradiction
    rename_i enabled
    exact .received enabled.1 enabled.2.1 enabled.2.2 ok
  | registered p =>
    simp only [handle] at ok
    split at ok <;> try contradiction
    rename_i here
    exact .registered here (Option.some.inj ok)
  | returned p =>
    simp only [handle] at ok
    split at ok <;> try contradiction
    rename_i here
    rcases left : disconnect s p with ⟨t,lines⟩
    rw [left] at ok
    cases Option.some.inj ok
    exact .returned here left
  | stopped => cases Option.some.inj ok; exact .stopped

def Walked (a b : Address) : Prop := ∃ j, b = Address.next^[j] a

theorem Walked.refl (a : Address) : Walked a a := ⟨0,rfl⟩

theorem Walked.trans {a b c : Address} (first : Walked a b) (second : Walked b c) : Walked a c := by
  obtain ⟨i,rfl⟩ := first
  obtain ⟨j,rfl⟩ := second
  exact ⟨j+i,(Function.iterate_add_apply ..).symm⟩

structure Quiet (s t : State) : Prop where
  map : t.ipCtxMap = s.ipCtxMap
  calls : t.calls = s.calls
  ip : ∀ q, (t.mem q).ip = (s.mem q).ip
  status : ∀ q, (t.mem q).status = 0 → (s.mem q).status = 0
  dhcp : Walked s.dhcp t.dhcp

theorem Quiet.refl (s : State) : Quiet s s := ⟨rfl,rfl,fun _ => rfl,fun _ h => h,.refl _⟩

theorem Quiet.trans {s t u : State} (first : Quiet s t) (second : Quiet t u) : Quiet s u :=
  ⟨second.map.trans first.map,second.calls.trans first.calls,
    fun q => (second.ip q).trans (first.ip q),fun q h => first.status q (second.status q h),
    first.dhcp.trans second.dhcp⟩

theorem quietWrite {s : State} {p : Ptr} {ctx : WsCtx} (ip : ctx.ip = (s.mem p).ip)
    (status : ctx.status = 0 → (s.mem p).status = 0) : Quiet s (s.write p ctx) := by
  refine ⟨rfl,rfl,fun q => ?_,fun q => ?_,.refl _⟩
  · by_cases same : q = p
    · subst same; simpa [State.write] using ip
    · simp [State.write,same]
  · by_cases same : q = p
    · subst same; simpa [State.write] using status
    · simp [State.write,same]

theorem quietBuffer (s : State) (p : Ptr) (m : Bytes) : Quiet s (s.setBuffer p m) :=
  quietWrite rfl id

theorem quietRefuse (s : State) (p : Ptr) (text : String) (dump : Bytes) :
    Quiet s (refuse s p text dump).1 := quietWrite rfl (by simp)

theorem quietDhcp {s : State} {a : Address} (walked : Walked s.dhcp a) : Quiet s {s with dhcp := a} :=
  ⟨rfl,rfl,fun _ => rfl,fun _ h => h,walked⟩

def Routed (s : State) (p : Ptr) (sent : List Effect) : Prop :=
  ∀ q frame, .send q frame ∈ sent → q = p ∨ ∃ ip, s.ipCtxMap.lookup ip = some q

theorem routedLog (s p text dump) : Routed s p [.log text dump] := by
  intro q frame member
  simp at member

theorem routedNil (s p) : Routed s p [] := by
  intro q frame member
  simp at member

theorem routedFound {s : State} {p q : Ptr} {ip : IP4} (found : s.ipCtxMap.lookup ip = some q) (frame) :
    Routed s p [.send q frame] := by
  intro r sent member
  simp only [List.mem_singleton,Effect.send.injEq] at member
  exact .inr ⟨ip,member.1 ▸ found⟩

theorem routedBroadcast (s : State) (p : Ptr) (keep : (_ : IP4) × Ptr → Bool) (frame : Bytes) :
    Routed s p ((s.ipCtxMap.entries.filter keep).map (fun c => .send c.2 frame)) := by
  intro q sent member
  obtain ⟨c,inside,same⟩ := List.mem_map.mp member
  cases same
  exact .inr ⟨c.1,Table.lookupSome.mpr (List.mem_filter.mp inside).1⟩

theorem Routed.before {s t : State} {p sent} (quiet : Quiet s t) (routed : Routed t p sent) :
    Routed s p sent := by
  intro q frame member
  simpa only [quiet.map] using routed q frame member

structure Served (s : State) (p : Ptr) (out : State × List Effect) : Prop where
  quiet : Quiet s out.1
  routed : Routed s p out.2

theorem servedRefuse (s p text dump) : Served s p (refuse s p text dump) :=
  ⟨quietRefuse s p text dump,routedLog s p text dump⟩

theorem Served.after {s t : State} {p out} (quiet : Quiet s t) (served : Served t p out) : Served s p out :=
  ⟨quiet.trans served.quiet,served.routed.before quiet⟩

theorem forwardServed (s p) : Served s p (handleForwardMsg s p) := by
  simp only [handleForwardMsg]
  split
  · exact servedRefuse ..
  split
  · exact servedRefuse ..
  split
  · rename_i found; exact ⟨.refl s,routedFound found _⟩
  split
  · exact ⟨.refl s,routedBroadcast _ _ _ _⟩
  · exact ⟨.refl s,routedLog _ _ _ _⟩

theorem udp4ConnServed (s p) : Served s p (handleUdp4ConnMsg s p) := by
  simp only [handleUdp4ConnMsg]
  split
  · exact servedRefuse ..
  split
  · exact servedRefuse ..
  split
  · exact servedRefuse ..
  split
  · exact ⟨.refl s,routedLog _ _ _ _⟩
  · rename_i found; exact ⟨.refl s,routedFound found _⟩

theorem relayServed (s p src dst frame) : Served s p (relayToDst s src dst frame) := by
  simp only [relayToDst]
  split
  · exact ⟨.refl s,routedBroadcast _ _ _ _⟩
  split
  · rename_i found; exact ⟨.refl s,routedFound found _⟩
  · exact ⟨.refl s,routedNil _ _⟩

theorem discoveryServed (s p) : Served s p (handleDiscoveryMsg s p) := by
  simp only [handleDiscoveryMsg]
  split
  · exact servedRefuse ..
  split
  · exact servedRefuse ..
  split
  · exact servedRefuse ..
  · exact relayServed ..

theorem generalServed (s p) : Served s p (handleGeneralMsg s p) := by
  simp only [handleGeneralMsg]
  split
  · exact servedRefuse ..
  split
  · exact servedRefuse ..
  split
  · exact servedRefuse ..
  · exact relayServed ..

theorem vmacServed (env s p) : Served s p (handleVMacMsg env s p) := by
  simp only [handleVMacMsg]
  split
  · exact servedRefuse ..
  split
  · exact (servedRefuse ..).after (quietBuffer ..)
  · exact ⟨(quietBuffer ..).trans (quietWrite rfl id),routedNil _ _⟩

theorem answerServed (env s p a now) : Served s p (answerExptTun env s p a now) := by
  refine ⟨quietBuffer ..,fun q frame member => .inl ?_⟩
  simp only [answerExptTun,List.mem_singleton,Effect.send.injEq] at member
  exact member.1

theorem searchedWalked {env s ctx a} (ok : allocate env s ctx = .searched a) : Walked s.dhcp a := by
  simp only [allocate] at ok
  split at ok <;> try contradiction
  split at ok <;> try contradiction
  split at ok <;> try contradiction
  split at ok <;> try contradiction
  rename_i found
  cases ok
  exact Orbit.searchFound found

theorem exptTunServed {env s p now out} (ok : handleExptTunMsg env s p now = some out) : Served s p out := by
  simp only [handleExptTunMsg] at ok
  split at ok
  · cases ok; exact servedRefuse ..
  split at ok
  · cases ok; exact (servedRefuse ..).after (quietBuffer ..)
  split at ok
  · contradiction
  · cases ok; exact (servedRefuse ..).after (quietBuffer ..)
  · cases ok; exact (answerServed ..).after (quietBuffer ..)
  · rename_i chosen
    cases ok
    exact (answerServed ..).after ((quietBuffer ..).trans (quietDhcp (searchedWalked chosen)))

def loginAddress (env : Env) (password frame : Bytes) : Option IP4 :=
  if byteAt frame 0 = Kind.AUTH ∧ Auth.size ≤ frame.length ∧ (Auth.check env.sha password frame).1 = true then
    some (Auth.ip frame) else none

theorem byteBeforeField {m value : Bytes} {offset i : Nat} (before : i < offset) (inside : offset ≤ m.length) :
    byteAt (setField m offset value) i = byteAt m i := by
  have short : i < (m.take offset).length := by
    rw [List.length_take]; omega
  rw [byteAt,setField,List.append_assoc,List.getD_eq_getElem?_getD,List.getElem?_append_left short,
    List.getElem?_take,if_pos before,← List.getD_eq_getElem?_getD,byteAt]

theorem checkedAuthIp {sha : Digest} {password m : Bytes} (long : Auth.size ≤ m.length) :
    Auth.ip (Auth.check sha password m).2 = Auth.ip m := by
  have long : 45 ≤ m.length := long
  have kept (i : Nat) (before : i < 13) : byteAt (Auth.check sha password m).2 i = byteAt m i :=
    byteBeforeField before (show 13 ≤ m.length by omega)
  simp only [Auth.ip,ip4At,kept 1 (by omega),kept (1+1) (by omega),kept (1+2) (by omega),kept (1+3) (by omega)]

theorem authRefused {env s p} (short : ¬ Auth.size ≤ (s.mem p).buffer.length ∨
    (Auth.check env.sha s.password (s.mem p).buffer).1 = false) : Served s p (handleAuthMsg env s p) := by
  simp only [handleAuthMsg]
  split
  · exact servedRefuse ..
  split
  · exact (servedRefuse ..).after (quietBuffer ..)
  · rename_i long good
    rcases short with short | bad
    · exact absurd (Nat.le_of_not_lt long) short
    · simp [bad] at good

theorem authAccepted {env s p} (long : Auth.size ≤ (s.mem p).buffer.length)
    (good : (Auth.check env.sha s.password (s.mem p).buffer).1 = true) :
    ∃ u, Quiet s u ∧ handleAuthMsg env s p =
      ((u.write p {u.mem p with ip := Auth.ip (s.mem p).buffer}).enter p
        (some (.registering (Auth.ip (s.mem p).buffer))),[]) := by
  refine ⟨_,quietBuffer s p (Auth.check env.sha s.password (s.mem p).buffer).2,?_⟩
  simp only [handleAuthMsg,if_neg (Nat.not_lt.mpr long),good,checkedAuthIp long,Bool.not_true,
    Bool.false_eq_true,if_false]

theorem loginSpec {env s p now out ip} (ok : handleMsg env s p now = some out)
    (login : loginAddress env s.password (s.mem p).buffer = some ip) :
    ∃ u, Quiet s u ∧ out = ((u.write p {u.mem p with ip := ip}).enter p (some (.registering ip)),[]) := by
  simp only [loginAddress] at login
  split at login <;> try contradiction
  rename_i accepted
  cases Option.some.inj login
  simp only [handleMsg,if_pos accepted.1,Option.some.injEq] at ok
  subst ok
  exact authAccepted accepted.2.1 accepted.2.2

theorem frameSpec {env s p now out} (ok : handleMsg env s p now = some out)
    (noLogin : loginAddress env s.password (s.mem p).buffer = none) : Served s p out := by
  simp only [handleMsg] at ok
  split at ok
  · rename_i auth
    cases Option.some.inj ok
    apply authRefused
    simp only [loginAddress,auth,true_and] at noLogin
    split at noLogin
    · contradiction
    · rename_i refused
      rw [← Bool.not_eq_true]
      exact not_and_or.mp refused
  split at ok
  · cases Option.some.inj ok; exact forwardServed ..
  split at ok
  · exact exptTunServed ok
  split at ok
  · cases Option.some.inj ok; exact udp4ConnServed ..
  split at ok
  · cases Option.some.inj ok; exact vmacServed ..
  split at ok
  · cases Option.some.inj ok; exact discoveryServed ..
  split at ok
  · cases Option.some.inj ok; exact generalServed ..
  · cases Option.some.inj ok; exact ⟨.refl s,routedNil _ _⟩

section
variable {env : Env} {s t : State} {p : Ptr}

/- What no write to the context of p, no stage and no move of the dhcp cursor touches. -/
structure Fixed {α : Type} (f : State → α) (p : Ptr) : Prop where
  write : ∀ s ctx, f (s.write p ctx) = f s
  enter : ∀ s stage, f (s.enter p stage) = f s
  dhcp : ∀ s a, f {s with dhcp := a} = f s

theorem frameFixed {α : Type} {f : State → α} (fixed : Fixed f p) {now : BitVec 64} {out : State × List Effect}
    (ok : handleMsg env s p now = some out) : f out.1 = f s := by
  have buffer (u : State) (m : Bytes) : f (u.setBuffer p m) = f u := fixed.write ..
  have refused (u : State) (text : String) (dump : Bytes) : f (refuse u p text dump).1 = f u := fixed.write ..
  have answered (u : State) (a : Address) : f (answerExptTun env u p a now).1 = f u := fixed.write ..
  have relayed (src dst : IP4) (frame : Bytes) : f (relayToDst s src dst frame).1 = f s := by
    unfold relayToDst
    split
    · rfl
    split <;> rfl
  unfold handleMsg at ok
  dsimp only at ok
  split at ok
  · cases ok
    unfold handleAuthMsg
    dsimp only
    split
    · exact refused ..
    split
    · exact (refused ..).trans (buffer ..)
    · exact (fixed.enter ..).trans ((fixed.write ..).trans (buffer ..))
  split at ok
  · cases ok
    unfold handleForwardMsg
    dsimp only
    repeat' split
    all_goals first | rfl | exact refused ..
  split at ok
  · unfold handleExptTunMsg at ok
    dsimp only at ok
    split at ok
    · cases ok; exact refused ..
    split at ok
    · cases ok; exact (refused ..).trans (buffer ..)
    split at ok
    · contradiction
    · cases ok; exact (refused ..).trans (buffer ..)
    · cases ok; exact (answered ..).trans (buffer ..)
    · cases ok; exact (answered ..).trans ((fixed.dhcp ..).trans (buffer ..))
  split at ok
  · cases ok
    unfold handleUdp4ConnMsg
    dsimp only
    repeat' split
    all_goals first | rfl | exact refused ..
  split at ok
  · cases ok
    unfold handleVMacMsg
    dsimp only
    split
    · exact refused ..
    split
    · exact (refused ..).trans (buffer ..)
    · exact (fixed.write ..).trans (buffer ..)
  split at ok
  · cases ok
    unfold handleDiscoveryMsg
    dsimp only
    repeat' split
    all_goals first | exact refused .. | exact relayed ..
  split at ok
  · cases ok
    unfold handleGeneralMsg
    dsimp only
    repeat' split
    all_goals first | exact refused .. | exact relayed ..
  · cases ok; rfl

structure Constant {α : Type} (f : State → α) : Prop where
  frame : ∀ p, Fixed f p
  map : ∀ s m, f {s with ipCtxMap := m} = f s

namespace Constant
variable {α : Type} {f : State → α} (constant : Constant f)
include constant

theorem register (ip : IP4) : f (register s p ip).1 = f s := by
  have pushed (u : State) : f ((updateSysRoute u p).1.enter p (some .looping)) = f u :=
    ((constant.frame p).enter ..).trans ((constant.frame p).write ..)
  unfold Server.register
  cases s.ipCtxMap.lookup ip with
  | none => exact (pushed _).trans (constant.map ..)
  | some old => exact (pushed _).trans ((constant.map ..).trans ((constant.frame old).write ..))

theorem step {e : Event} (stepped : step env s e t) : f t = f s ∨ e = .stopped ∧ t = {s with running := false,routes := []} := by
  obtain ⟨sent,ok⟩ := stepped
  cases handleCases ok with
  | @received p frame =>
    rename_i served
    refine .inl ((frameFixed (constant.frame p) served).trans ?_)
    exact ((constant.frame p).enter ..).trans ((constant.frame p).write ..)
  | @registered p ip _ _ entered =>
    have same := constant.register (s := s) (p := p) ip
    rw [entered] at same
    exact .inl same
  | @returned p _ _ _ left =>
    refine .inl (((constant.frame p).enter ..).trans ?_)
    simp only [disconnect] at left
    split at left <;> cases left
    · exact constant.map ..
    · rfl
  | stopped => exact .inr ⟨rfl,rfl⟩
  | @opened p => exact .inl (((constant.frame p).enter ..).trans ((constant.frame p).write ..))
  | @checked p | @idled p | @hungUp p => exact .inl ((constant.frame p).enter ..)
  | @reused p => exact .inl ((constant.frame p).write ..)

end Constant

theorem passwordStep {e : Event} (stepped : step env s e t) : t.password = s.password := by
  have constant : Constant State.password := ⟨fun _ => ⟨fun _ _ => rfl,fun _ _ => rfl,fun _ _ => rfl⟩,fun _ _ => rfl⟩
  rcases constant.step stepped with same | ⟨_,rfl⟩
  · exact same
  · rfl

end

end Candy.Server
