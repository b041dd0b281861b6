import Candy.ServerSteps

/-! The registry ip -> connection over whole runs. A connection that logs in again
under another address keeps its old entry, which its clean-up then misses: the
registry is sound exactly in the runs where no login does that. Last login wins
in every run, whatever stale entries do. -/
namespace Candy.Server
open WsMsg Runs

/- What a received frame does to the registry, the stages, the addresses and the
statuses, in terms of the address it logs in with. -/
structure Received (s : State) (p : Ptr) (login : Option IP4) (t : State) : Prop where
  receiving : s.calls p = some .receiving
  map : t.ipCtxMap = s.ipCtxMap
  calls : t.calls = Function.update s.calls p (some ((login.map Stage.registering).getD .looping))
  address : ∀ q, (t.mem q).ip = if q = p then login.getD (s.mem p).ip else (s.mem q).ip
  status : ∀ q, (t.mem q).status = 0 → (s.mem q).status = 0

theorem loginMatters (env : Env) (s : State) (p : Ptr) (frame : Bytes) :
    loginAddress env ((s.setBuffer p frame).enter p (some .looping)).password
      (((s.setBuffer p frame).enter p (some .looping)).mem p).buffer = loginAddress env s.password frame := by
  simp [State.setBuffer,State.write,State.enter]

theorem receivedSpec {env s p frame now t sent} (ok : handle env s (.received p frame now) = some (t,sent)) :
    Received s p (loginAddress env s.password frame) t ∧ Routed s p sent := by
  cases handleCases ok with | received here _ _ served => ?_
  have buffered : Quiet s (s.setBuffer p frame) := quietBuffer s p frame
  cases login : loginAddress env s.password frame with
  | none =>
    obtain ⟨quiet,routed⟩ := frameSpec served (by rw [loginMatters]; exact login)
    refine ⟨⟨here,quiet.map,quiet.calls,fun q => ?_,fun q h => buffered.status q (quiet.status q h)⟩,routed⟩
    refine (quiet.ip q).trans ((buffered.ip q).trans ?_)
    split
    · rename_i same; rw [same]; rfl
    · rfl
  | some ip =>
    obtain ⟨u,quiet,same⟩ := loginSpec served (by rw [loginMatters]; exact login)
    cases same
    refine ⟨⟨here,quiet.map,?_,fun q => ?_,fun q h => ?_⟩,routedNil _ _⟩
    · change Function.update u.calls p _ = _
      rw [quiet.calls]
      exact Function.update_idem ..
    · by_cases here : q = p
      · subst here; simp [State.enter,State.write]
      · simp only [State.enter,State.write,Function.update_of_ne here,if_neg here]
        exact (quiet.ip q).trans (buffered.ip q)
    · refine buffered.status q (quiet.status q ?_)
      by_cases here : q = p
      · subst here; simpa [State.enter,State.write] using h
      · simpa [State.enter,State.write,here] using h

structure Registered (s : State) (p : Ptr) (ip : IP4) (t : State) : Prop where
  map : t.ipCtxMap = s.ipCtxMap.insert ip p
  calls : t.calls = Function.update s.calls p (some .looping)
  address : ∀ q, (t.mem q).ip = (s.mem q).ip
  status : ∀ q, (t.mem q).status = 0 → (s.mem q).status = 0 ∧ s.ipCtxMap.lookup ip ≠ some q

theorem registerSpec {s p ip t sent} (ok : register s p ip = (t,sent)) :
    Registered s p ip t ∧ ∀ q frame, .send q frame ∈ sent → q = p := by
  cases found : s.ipCtxMap.lookup ip with
  | none =>
    simp only [register,found,updateSysRoute] at ok
    cases ok
    refine ⟨⟨rfl,rfl,fun q => (quietBuffer _ p _).ip q,fun q h => ⟨?_,by simp [found]⟩⟩,?_⟩
    · exact (quietBuffer _ p _).status q h
    · intro q frame member
      simp only [List.mem_cons,reduceCtorEq,List.mem_map,Effect.send.injEq,false_or] at member
      obtain ⟨_,_,same,_⟩ := member
      exact same.symm
  | some old =>
    simp only [register,found,updateSysRoute] at ok
    cases ok
    have evicted : Quiet s (s.setStatus old (-1)) := quietWrite rfl (by simp)
    refine ⟨⟨rfl,rfl,fun q => ((quietBuffer _ p _).ip q).trans (evicted.ip q),fun q h => ?_⟩,?_⟩
    · have zero : ((s.setStatus old (-1)).mem q).status = 0 := (quietBuffer _ p _).status q h
      refine ⟨evicted.status q zero,fun same => ?_⟩
      cases Option.some.inj (found.symm.trans same)
      simp [State.setStatus,State.write] at zero
    · intro q frame member
      simp only [List.mem_cons,reduceCtorEq,List.mem_map,Effect.send.injEq,false_or] at member
      obtain ⟨_,_,same,_⟩ := member
      exact same.symm

theorem disconnectSpec {s p t sent} (ok : disconnect s p = (t,sent)) :
    t.calls = s.calls ∧ t.mem = s.mem ∧ (∀ q frame, .send q frame ∉ sent) ∧
    ∀ ip q, t.ipCtxMap.lookup ip = some q ↔
      s.ipCtxMap.lookup ip = some q ∧ ¬ (q = p ∧ ip = (s.mem p).ip) := by
  simp only [disconnect] at ok
  split at ok
  · rename_i mine
    cases ok
    refine ⟨rfl,rfl,by simp,fun ip q => ?_⟩
    rw [Table.lookupErase]
    by_cases own : ip = (s.mem p).ip
    · subst own
      simp only [if_true,reduceCtorEq,mine,Option.some.injEq,and_true,false_iff,not_and,not_not]
      exact fun same => same.symm
    · simp [own]
  · rename_i foreign
    cases ok
    refine ⟨rfl,rfl,by simp,fun ip q => ⟨fun found => ⟨found,?_⟩,fun found => found.1⟩⟩
    intro holds
    obtain ⟨rfl,rfl⟩ := holds
    exact foreign found

structure RegistryValid (s : State) : Prop where
  connected : ∀ ip p, s.ipCtxMap.lookup ip = some p → s.calls p ≠ none
  address : ∀ ip p, s.ipCtxMap.lookup ip = some p → (s.mem p).ip = ip

/- The lookups of every handler, whatever event comes next. -/
def NoStaleSend (env : Env) (s : State) : Prop :=
  ∀ e t sent, handle env s e = some (t,sent) → ∀ q frame, .send q frame ∈ sent → s.calls q ≠ none

/- No login moves a connection away from the address it is registered under. -/
def KeepsAddress (env : Env) (s : State) : Event → Prop
  | .received p frame _ => ∀ ip, loginAddress env s.password frame = some ip →
      ip ≠ (s.mem p).ip → s.ipCtxMap.lookup (s.mem p).ip ≠ some p
  | _ => True

/- handleAuthMsg waits for the lock with the address already in the context. -/
def Awaiting (s : State) : Prop := ∀ p ip, s.calls p = some (.registering ip) → (s.mem p).ip = ip

theorem sendsConnected {env s} (valid : RegistryValid s) : NoStaleSend env s := by
  intro e t sent ok q frame member
  cases handleCases ok with
  | received =>
    obtain ⟨spec,routed⟩ := receivedSpec ok
    rcases routed q frame member with same | ⟨ip,found⟩
    · rw [same,spec.receiving]; simp
    · exact valid.connected ip q found
  | registered here entered =>
    rw [(registerSpec entered).2 q frame member,here]
    simp
  | returned _ left => exact absurd member ((disconnectSpec left).2.2.1 q frame)
  | opened | checked | idled | hungUp | reused | stopped => simp at member

/- How an event other than the three above changes the state: it may open a
connection, advance a stage that is not a login, or touch memory nobody owns. -/
structure Aside (s t : State) : Prop where
  map : t.ipCtxMap = s.ipCtxMap
  calls : ∀ q stage, t.calls q = some stage → (∀ ip, stage ≠ .registering ip) ∨ s.calls q = some stage
  kept : ∀ q, s.calls q ≠ none → t.calls q ≠ none ∧ t.mem q = s.mem q
  fresh : ∀ q, s.calls q = none → t.calls q ≠ none → t.mem q = WsCtx.fresh
  held : ∀ q ip, s.calls q = some (.registering ip) → t.calls q = some (.registering ip)

theorem enterAside {s : State} {p : Ptr} {old new : Stage} (here : s.calls p = some old)
    (settled : ∀ ip, old ≠ .registering ip) (plain : ∀ ip, new ≠ .registering ip) :
    Aside s (s.enter p (some new)) := by
  have other (q : Ptr) (away : q ≠ p) : (s.enter p (some new)).calls q = s.calls q :=
    Function.update_of_ne away _ _
  have own : (s.enter p (some new)).calls p = some new := Function.update_self ..
  refine ⟨rfl,fun q stage h => ?_,fun q h => ⟨?_,rfl⟩,fun q free h => ?_,fun q ip h => ?_⟩
  · by_cases same : q = p
    · subst same
      cases Option.some.inj (own.symm.trans h)
      exact .inl plain
    · exact .inr ((other q same).symm.trans h)
  · by_cases same : q = p
    · subst same; rw [own]; simp
    · rw [other q same]; exact h
  · by_cases same : q = p
    · subst same; rw [here] at free; contradiction
    · rw [other q same] at h; contradiction
  · by_cases same : q = p
    · subst same; rw [here] at h; exact absurd (Option.some.inj h) (settled ip)
    · exact (other q same).trans h

theorem openedAside {s : State} {p : Ptr} (free : s.calls p = none) :
    Aside s ((s.write p WsCtx.fresh).enter p (some .looping)) := by
  have other (q : Ptr) (away : q ≠ p) :
      ((s.write p WsCtx.fresh).enter p (some .looping)).calls q = s.calls q ∧
      ((s.write p WsCtx.fresh).enter p (some .looping)).mem q = s.mem q :=
    ⟨Function.update_of_ne away _ _,Function.update_of_ne away _ _⟩
  have own : ((s.write p WsCtx.fresh).enter p (some .looping)).calls p = some .looping :=
    Function.update_self ..
  refine ⟨rfl,fun q stage h => ?_,fun q open_ => ?_,fun q closed h => ?_,fun q ip h => ?_⟩
  · by_cases same : q = p
    · subst same
      cases Option.some.inj (own.symm.trans h)
      exact .inl (by simp)
    · exact .inr ((other q same).1.symm.trans h)
  · have away : q ≠ p := by intro same; subst same; exact open_ free
    rw [(other q away).1]
    exact ⟨open_,(other q away).2⟩
  · by_cases same : q = p
    · subst same; exact Function.update_self ..
    · rw [(other q same).1] at h; contradiction
  · have away : q ≠ p := by intro same; subst same; rw [free] at h; contradiction
    exact (other q away).1.trans h

theorem asideOf {env s e t sent} (ok : handle env s e = some (t,sent))
    (notReceived : ∀ p frame now, e ≠ .received p frame now) (notRegistered : ∀ p, e ≠ .registered p)
    (notReturned : ∀ p, e ≠ .returned p) : Aside s t := by
  cases handleCases ok with
  | received => exact absurd rfl (notReceived _ _ _)
  | registered => exact absurd rfl (notRegistered _)
  | returned => exact absurd rfl (notReturned _)
  | stopped => exact ⟨rfl,fun _ _ h => .inr h,fun _ h => ⟨h,rfl⟩,fun q h h' => absurd h h',fun _ _ h => h⟩
  | @reused p _ free =>
    refine ⟨rfl,fun _ _ h => .inr h,fun q h => ⟨h,?_⟩,fun q h h' => absurd h h',fun _ _ h => h⟩
    have away : q ≠ p := by intro same; subst same; exact h free
    exact Function.update_of_ne away _ _
  | opened free => exact openedAside free
  | checked here =>
    refine enterAside here (by simp) fun ip => ?_
    split <;> simp
  | idled here => exact enterAside here (by simp) (by simp)
  | hungUp here =>
    rcases here with here | here
    · exact enterAside here (by simp) (by simp)
    · exact enterAside here (by simp) (by simp)

inductive Seen (env : Env) (s : State) : Event → State → Prop where
  | received {p frame now t} (spec : Received s p (loginAddress env s.password frame) t) :
      Seen env s (.received p frame now) t
  | registered {p ip t} (stage : s.calls p = some (.registering ip)) (spec : Registered s p ip t) :
      Seen env s (.registered p) t
  | returned {p t} (stage : s.calls p = some .leaving) (calls : t.calls = Function.update s.calls p none)
      (mem : t.mem = s.mem) (map : ∀ ip q, t.ipCtxMap.lookup ip = some q ↔
        s.ipCtxMap.lookup ip = some q ∧ ¬ (q = p ∧ ip = (s.mem p).ip)) : Seen env s (.returned p) t
  | aside {e t} (spec : Aside s t) (keeps : KeepsAddress env s e) : Seen env s e t

theorem seenOf {env s e t} (stepped : step env s e t) : Seen env s e t := by
  obtain ⟨sent,ok⟩ := stepped
  cases handleCases ok with
  | received => exact .received (receivedSpec ok).1
  | registered here entered => exact .registered here (registerSpec entered).1
  | returned here left =>
    obtain ⟨calls,mem,_,map⟩ := disconnectSpec left
    exact .returned here (by simp only [State.enter,calls]) mem map
  | opened | checked | idled | hungUp | reused | stopped => exact .aside (asideOf ok (by simp) (by simp) (by simp)) trivial

structure Sound (s : State) : Prop where
  valid : RegistryValid s
  awaiting : Awaiting s

theorem awaitingStep {env s e t} (before : Awaiting s) (stepped : step env s e t) : Awaiting t := by
  intro q ip stage
  cases seenOf stepped with
  | @received p frame _ _ spec =>
    rw [spec.calls] at stage
    rw [spec.address q]
    by_cases same : q = p
    · subst same
      cases login : loginAddress env s.password frame with
      | none => simp [login] at stage
      | some given => simp [login] at stage; simp [stage]
    · rw [Function.update_of_ne same] at stage
      rw [if_neg same]; exact before q ip stage
  | @registered p _ _ here spec =>
    rw [spec.calls] at stage
    rw [spec.address q]
    by_cases same : q = p
    · subst same; simp at stage
    · rw [Function.update_of_ne same] at stage; exact before q ip stage
  | @returned p _ here calls mem map =>
    rw [calls] at stage
    rw [mem]
    by_cases same : q = p
    · subst same; simp at stage
    · rw [Function.update_of_ne same] at stage; exact before q ip stage
  | aside spec =>
    rcases spec.calls q _ stage with plain | held
    · exact absurd rfl (plain ip)
    · rw [(spec.kept q (by rw [held]; simp)).2]; exact before q ip held

theorem validStep {env s e t} (sound : Sound s) (keeps : KeepsAddress env s e)
    (stepped : step env s e t) : RegistryValid t := by
  cases seenOf stepped with
  | @received p frame _ _ spec =>
    refine ⟨fun ip q found => ?_,fun ip q found => ?_⟩
    · rw [spec.map] at found
      rw [spec.calls]
      by_cases same : q = p
      · subst same; simp
      · rw [Function.update_of_ne same]; exact sound.valid.connected ip q found
    · rw [spec.map] at found
      rw [spec.address q]
      have here := sound.valid.address ip q found
      split
      · rename_i same
        subst same
        cases login : loginAddress env s.password frame with
        | none => exact here
        | some given =>
          by_contra moved
          refine keeps given login (fun same => moved (same.trans here)) ?_
          rw [here]; exact found
      · exact here
  | @registered p given _ here spec =>
    refine ⟨fun ip q found => ?_,fun ip q found => ?_⟩
    · rw [spec.map,Table.lookupInsert] at found
      rw [spec.calls]
      by_cases same : q = p
      · subst same; simp
      · rw [Function.update_of_ne same]
        split at found
        · exact absurd (Option.some.inj found).symm same
        · exact sound.valid.connected ip q found
    · rw [spec.map,Table.lookupInsert] at found
      rw [spec.address q]
      split at found
      · rename_i same
        cases Option.some.inj found
        rw [same]; exact sound.awaiting p given here
      · exact sound.valid.address ip q found
  | @returned p _ here calls mem map =>
    refine ⟨fun ip q found => ?_,fun ip q found => ?_⟩
    · obtain ⟨before,other⟩ := (map ip q).mp found
      have away : q ≠ p := by
        intro same
        subst same
        exact other ⟨rfl,(sound.valid.address ip q before).symm⟩
      rw [calls,Function.update_of_ne away]
      exact sound.valid.connected ip q before
    · rw [mem]; exact sound.valid.address ip q ((map ip q).mp found).1
  | aside spec =>
    refine ⟨fun ip q found => ?_,fun ip q found => ?_⟩
    · rw [spec.map] at found
      exact (spec.kept q (sound.valid.connected ip q found)).1
    · rw [spec.map] at found
      rw [(spec.kept q (sound.valid.connected ip q found)).2]
      exact sound.valid.address ip q found

/- A login that moves a registered connection leaves an entry that disagrees
with its address, at once and not only after the close. -/
theorem invalidStep {env s e t} (moves : ¬ KeepsAddress env s e) (stepped : step env s e t) :
    ¬ RegistryValid t := by
  intro valid
  cases seenOf stepped with
  | @received p frame _ _ spec =>
    apply moves
    intro ip login away found
    have after := valid.address (s.mem p).ip p (by rw [spec.map]; exact found)
    rw [spec.address p,if_pos rfl,login] at after
    exact away after
  | registered | returned => exact moves trivial
  | aside _ keeps => exact moves keeps

theorem initialSound (password : Bytes) (dhcp : Address) (routes : List SysRoute) :
    Sound (initial password dhcp routes) :=
  ⟨⟨fun ip p found => by simp [initial] at found,fun ip p found => by simp [initial] at found⟩,
    fun p ip stage => by simp [initial] at stage⟩

theorem registryExact (env : Env) (password : Bytes) (dhcp : Address) (routes : List SysRoute)
    (events : List Event) (s : State) :
    Run (Guarded (step env) (KeepsAddress env)) (initial password dhcp routes) events s ↔
      Run (Keeping (step env) (fun t => RegistryValid t ∧ NoStaleSend env t))
        (initial password dhcp routes) events s :=
  guardExact (initialSound password dhcp routes)
    (fun _ (sound : Sound _) => ⟨sound.valid,sendsConnected sound.valid⟩)
    (fun _ _ _ sound keeps stepped => ⟨validStep sound keeps stepped,awaitingStep sound.awaiting stepped⟩)
    (fun _ _ _ _ moves stepped good => invalidStep moves stepped good.1)

/- Three logins with an empty password and timestamp zero, and their digests. -/
def knownDigest (pairs : List (Bytes × BitVec 256)) : Digest :=
  ⟨fun data => (List.range 32).map (fun i => ((pairs.lookup data).getD 0).extractLsb' (8*(31-i)) 8),by simp⟩

def loginDigest : Nat → BitVec 256
  | 1 => 0x937de5a5663f03663909899208b56fea611820dbfd636ea9d73210b4827c1c2f
  | 2 => 0xb4e6c14c2a0f798912d9b341e66cfcf3b78aaa2fa8fc2eced819fb7ca55d2f33
  | _ => 0x9a8f10c18894e7d6d97272d6fb4dd4e5df214d46ae17cb118a3f043e4d8b16cc

def host (i : Nat) : IP4 := ⟨10,0,0,BitVec.ofNat 8 i⟩
def signedPart (i : Nat) : Bytes := ip4Bytes (host i) ++ List.replicate 8 0
def loginFrame (i : Nat) : Bytes :=
  [Kind.AUTH] ++ signedPart i ++ (List.range 32).map (fun j => (loginDigest i).extractLsb' (8*(31-j)) 8)

def threeHosts : Env := ⟨knownDigest ([1,2,3].map (fun i => (signedPart i,loginDigest i))),fun _ => none⟩
def noNetwork : Address := ⟨IP4.zero,IP4.zero⟩

def login (p : Ptr) (i : Nat) : List Event := [.checked p,.received p (loginFrame i) 0,.registered p]

def forwardFrame (source target : Nat) : Bytes :=
  [Kind.FORWARD] ++ List.replicate 12 0 ++ ip4Bytes (host source) ++ ip4Bytes (host target)

/- Connection 0 logs in as host 1, then as host 2, and goes; connection 1 stays. -/
def relogin : List Event :=
  ([.opened 0] : List Event) ++ login 0 1 ++ login 0 2 ++ ([.hungUp 0,.returned 0,.opened 1] : List Event) ++
    login 1 3 ++ ([.checked 1] : List Event)

def advance (env : Env) (s : State) (e : Event) : Option State := (handle env s e).map (·.1)

theorem advanceStep {env s e t} (ok : advance env s e = some t) : step env s e t := by
  obtain ⟨⟨u,sent⟩,handled,same⟩ := Option.map_eq_some_iff.mp ok
  cases same
  exact ⟨sent,handled⟩

theorem reloginDangles : ∃ s, Run (step threeHosts) (initial [] noNetwork []) relogin s ∧
    ¬ RegistryValid s ∧ ¬ NoStaleSend threeHosts s := by
  have outcome : (execute (advance threeHosts) (initial [] noNetwork []) relogin).map (fun s =>
      (s.ipCtxMap.lookup (host 1),s.calls 0,
        (handle threeHosts s (.received 1 (forwardFrame 3 1) 0)).map (·.2))) =
      some (some 0,none,some [.send 0 (forwardFrame 3 1)]) := by decide +kernel
  obtain ⟨s,ok,same⟩ := Option.map_eq_some_iff.mp outcome
  obtain ⟨found,gone,sent⟩ : s.ipCtxMap.lookup (host 1) = some 0 ∧ s.calls 0 = none ∧
      (handle threeHosts s (.received 1 (forwardFrame 3 1) 0)).map (·.2) =
        some [.send 0 (forwardFrame 3 1)] := by simpa using same
  refine ⟨s,executeRun (fun _ _ _ => advanceStep) ok,fun valid => valid.connected _ _ found gone,fun fresh => ?_⟩
  obtain ⟨⟨t,frames⟩,handled,same⟩ := Option.map_eq_some_iff.mp sent
  cases same
  exact fresh _ t _ handled 0 (forwardFrame 3 1) (by simp) gone

structure Active (s : State) (p : Ptr) : Prop where
  present : s.calls p ≠ none
  outside : ∀ ip, s.calls p ≠ some (.registering ip)
  status : (s.mem p).status = 0
  address : (s.mem p).ip.empty = false

def Owning (s : State) : Prop := ∀ p, Active s p → s.ipCtxMap.lookup (s.mem p).ip = some p

theorem owningStep {env s e t} (awaiting : Awaiting s) (owning : Owning s) (stepped : step env s e t) :
    Owning t := by
  intro q active
  cases seenOf stepped with
  | @received p frame _ _ spec =>
    obtain ⟨present,outside,status,address⟩ := active
    rw [spec.map,spec.address q]
    rw [spec.address q] at address
    rw [spec.calls] at present outside
    by_cases same : q = p
    · subst same
      rw [if_pos rfl] at address ⊢
      cases login : loginAddress env s.password frame with
      | none =>
        rw [login] at address
        exact owning q ⟨by rw [spec.receiving]; simp,by rw [spec.receiving]; simp,spec.status q status,address⟩
      | some given => exact absurd (by simp [login]) (outside given)
    · rw [if_neg same] at address ⊢
      rw [Function.update_of_ne same] at present outside
      exact owning q ⟨present,outside,spec.status q status,address⟩
  | @registered p given _ here spec =>
    obtain ⟨present,outside,status,address⟩ := active
    rw [spec.address q] at address
    rw [spec.calls] at present outside
    rw [spec.map,spec.address q,Table.lookupInsert]
    by_cases same : q = p
    · subst same
      rw [awaiting q given here,if_pos rfl]
    · rw [Function.update_of_ne same] at present outside
      have mine := owning q ⟨present,outside,(spec.status q status).1,address⟩
      have apart : (s.mem q).ip ≠ given := by
        intro hit
        rw [hit] at mine
        exact (spec.status q status).2 mine
      rw [if_neg apart]
      exact mine
  | @returned p _ here calls mem map =>
    obtain ⟨present,outside,status,address⟩ := active
    rw [calls] at present outside
    rw [mem] at status address ⊢
    have away : q ≠ p := by
      intro same
      subst same
      exact present (Function.update_self ..)
    rw [Function.update_of_ne away] at present outside
    exact (map _ q).mpr ⟨owning q ⟨present,outside,status,address⟩,fun own => away own.1⟩
  | aside spec =>
    obtain ⟨present,outside,status,address⟩ := active
    rw [spec.map]
    cases before : s.calls q with
    | none =>
      rw [spec.fresh q before present] at address
      exact absurd address (by decide)
    | some stage =>
      have inside : s.calls q ≠ none := by rw [before]; simp
      rw [(spec.kept q inside).2] at status address ⊢
      exact owning q ⟨inside,fun ip held => outside ip (spec.held q ip held),status,address⟩

theorem reachedOwning {env password dhcp routes events s}
    (run : Run (step env) (initial password dhcp routes) events s) : Awaiting s ∧ Owning s := by
  refine @Run.invariant _ _ _ _ (fun s => Awaiting s ∧ Owning s)
    ⟨(initialSound password dhcp routes).awaiting,fun p active => absurd rfl active.present⟩ ?_ _ _ run
  intro s e t before stepped
  exact ⟨awaitingStep before.1 stepped,owningStep before.1 before.2 stepped⟩

theorem lastLoginWins (env : Env) (password : Bytes) (dhcp : Address) (routes : List SysRoute)
    (events : List Event) (s : State) (run : Run (step env) (initial password dhcp routes) events s) :
    (∀ p, Active s p → s.ipCtxMap.lookup (s.mem p).ip = some p) ∧
    (∀ p q, Active s p → Active s q → (s.mem p).ip = (s.mem q).ip → p = q) ∧
    ∀ p t, step env s (.returned p) t → ∀ ip q, q ≠ p →
      s.ipCtxMap.lookup ip = some q → t.ipCtxMap.lookup ip = some q := by
  obtain ⟨_,owning⟩ := reachedOwning run
  refine ⟨owning,fun p q hp hq shared => ?_,fun p t stepped ip q other found => ?_⟩
  · have left := owning p hp
    rw [shared,owning q hq] at left
    exact (Option.some.inj left).symm
  · cases seenOf stepped with
    | returned _ _ _ map => exact (map ip q).mpr ⟨found,fun own => other own.1⟩
    | aside spec => rw [spec.map]; exact found

/- Connection 1 takes the address of connection 0, which then leaves. -/
def takeover : List Event :=
  ([.opened 0,.opened 1] : List Event) ++ login 0 1 ++ login 1 1 ++ ([.checked 0,.returned 0] : List Event)

theorem takeoverOwned : ∃ s, Run (step threeHosts) (initial [] noNetwork []) takeover s ∧
    s.calls 0 = none ∧ Active s 1 ∧ s.ipCtxMap.lookup (s.mem 1).ip = some 1 := by
  have outcome : (execute (advance threeHosts) (initial [] noNetwork []) takeover).map (fun s =>
      (s.calls 0,s.calls 1,(s.mem 1).status,(s.mem 1).ip)) =
      some (none,some .looping,0,host 1) := by decide +kernel
  obtain ⟨s,ok,same⟩ := Option.map_eq_some_iff.mp outcome
  obtain ⟨gone,here,status,address⟩ : s.calls 0 = none ∧ s.calls 1 = some .looping ∧
      (s.mem 1).status = 0 ∧ (s.mem 1).ip = host 1 := by simpa using same
  have run : Run (step threeHosts) (initial [] noNetwork []) takeover s :=
    executeRun (fun _ _ _ => advanceStep) ok
  have active : Active s 1 :=
    ⟨by rw [here]; simp,by rw [here]; simp,status,by rw [address]; decide⟩
  exact ⟨s,run,gone,active,(lastLoginWins threeHosts [] noNetwork [] takeover s run).1 1 active⟩

end Candy.Server
