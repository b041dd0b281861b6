import Candy.ServerDhcp

/-! Who receives a forwarded frame. While every connection authenticates once, the
registry holds each connection under its own address, so a frame goes to the one
registered for its destination or once to everybody else. Whether a destination
is a broadcast is decided by the configured network, wherever the cursor is. -/
namespace Candy.Server
open WsMsg Runs

/- A connection is authenticated from its first valid AUTH frame on, and a new
call at its place is not. -/
def logsIn (env : Env) (password : Bytes) (p : Ptr) (before : Bool) : Event → Bool
  | .opened q => if q = p then false else before
  | .received q frame _ => if q = p then before || (loginAddress env password frame).isSome else before
  | _ => before

def authenticated (env : Env) (password : Bytes) (p : Ptr) (events : List Event) : Bool :=
  events.foldl (logsIn env password p) false

def firstLogin (env : Env) (password : Bytes) (before : List Event) : Event → Bool
  | .received p frame _ => (loginAddress env password frame).isNone || !authenticated env password p before
  | _ => true

def AuthenticatesOnce (env : Env) (password : Bytes) (events : List Event) : Prop :=
  ∀ i (below : i < events.length), firstLogin env password (events.take i) events[i] = true
instance (env password events) : Decidable (AuthenticatesOnce env password events) :=
  inferInstanceAs (Decidable (∀ _ _, _))

/- 224.0.0.0/4, in whole bytes. -/
def Multicast (ip : IP4) : Prop := 224 ≤ ip.raw0.toNat ∧ ip.raw0.toNat ≤ 239

def Directed (network : Address) (ip : IP4) : Prop :=
  InNetwork network ip ∧ ~~~network.mask &&& ip = ~~~network.mask

def Broadcast (network : Address) (ip : IP4) : Prop :=
  Multicast ip ∨ ip = ⟨255,255,255,255⟩ ∨ Directed network ip

def receivers (sent : List Effect) : List Ptr := sent.filterMap fun
  | .send q _ => some q
  | .log _ _ => none

structure Delivered (network : Address) (s : State) (p : Ptr) (frame : Bytes) (sent : List Effect) : Prop where
  once : (receivers sent).Nodup
  same : ∀ q data, .send q data ∈ sent → data = frame
  exactly : ∀ q, q ∈ receivers sent ↔ s.ipCtxMap.lookup (Forward.daddr frame) = some q ∨
    s.ipCtxMap.lookup (Forward.daddr frame) = none ∧ Broadcast network (Forward.daddr frame) ∧
      (∃ ip, s.ipCtxMap.lookup ip = some q) ∧ (s.mem q).ip ≠ (s.mem p).ip

structure Enrolled (env : Env) (password : Bytes) (events : List Event) (s : State) : Prop where
  sound : Sound s
  unchanged : s.password = password
  registered : ∀ ip q, s.ipCtxMap.lookup ip = some q → authenticated env password q events = true
  awaiting : ∀ q ip, s.calls q = some (.registering ip) → authenticated env password q events = true

section
variable {env : Env} {password : Bytes} {events : List Event} {s t : State} {e : Event}

theorem authenticatedLater {q : Ptr} (stepped : step env s e t) (present : s.calls q ≠ none)
    (before : authenticated env password q events = true) : authenticated env password q (events ++ [e]) = true := by
  rw [authenticated,List.foldl_append]
  change logsIn env password q (authenticated env password q events) e = true
  rw [before]
  cases e with
  | opened p =>
    obtain ⟨sent,ok⟩ := stepped
    cases handleCases ok with | opened free => ?_
    refine if_neg fun same => present ?_
    rw [← same]
    exact free
  | received p frame now => simp [logsIn]
  | _ => rfl

theorem loggedIn {p : Ptr} {frame : Bytes} {now : BitVec 64} (login : (loginAddress env password frame).isSome) :
    authenticated env password p (events ++ [.received p frame now]) = true := by
  rw [authenticated,List.foldl_append]
  change logsIn env password p _ (.received p frame now) = true
  simp [logsIn,login]

theorem AuthenticatesOnce.before (once : AuthenticatesOnce env password (events ++ [e])) :
    AuthenticatesOnce env password events := by
  intro i below
  have first := once i (by rw [List.length_append]; omega)
  rwa [List.getElem_append_left below,List.take_append_of_le_length (le_of_lt below)] at first

theorem AuthenticatesOnce.last (once : AuthenticatesOnce env password (events ++ [e])) :
    firstLogin env password events e = true := by
  have first := once events.length (by simp)
  rwa [List.getElem_concat_length rfl,List.take_left' rfl] at first

theorem Enrolled.keeps (enrolled : Enrolled env password events s) (once : AuthenticatesOnce env password (events ++ [e])) :
    KeepsAddress env s e := by
  cases e with
  | received p frame now =>
    intro ip login _ found
    have first := once.last
    rw [enrolled.unchanged] at login
    simp [firstLogin,login,enrolled.registered _ _ found] at first
  | _ => trivial

theorem enrolledStep (enrolled : Enrolled env password events s) (once : AuthenticatesOnce env password (events ++ [e]))
    (stepped : step env s e t) : Enrolled env password (events ++ [e]) t := by
  have present {ip q} (found : s.ipCtxMap.lookup ip = some q) := enrolled.sound.valid.connected ip q found
  have entered {ip q} (found : s.ipCtxMap.lookup ip = some q) : authenticated env password q (events ++ [e]) = true :=
    authenticatedLater stepped (present found) (enrolled.registered ip q found)
  have held {ip q} (stage : s.calls q = some (.registering ip)) : authenticated env password q (events ++ [e]) = true :=
    authenticatedLater stepped (by rw [stage]; nofun) (enrolled.awaiting q ip stage)
  refine ⟨⟨validStep enrolled.sound (enrolled.keeps once) stepped,awaitingStep enrolled.sound.awaiting stepped⟩,
    (passwordStep stepped).trans enrolled.unchanged,?_,?_⟩
  · intro ip q found
    cases seenOf stepped with
    | received spec => rw [spec.map] at found; exact entered found
    | @registered p ip' _ stage spec =>
      rw [spec.map,Table.lookupInsert] at found
      split at found
      · cases found; exact held stage
      · exact entered found
    | returned _ _ _ map => exact entered ((map ip q).mp found).1
    | aside spec => rw [spec.map] at found; exact entered found
  · intro q ip stage
    cases seenOf stepped with
    | @received p frame now _ spec =>
      rw [spec.calls] at stage
      by_cases same : q = p
      · subst same
        rw [Function.update_self] at stage
        cases login : loginAddress env s.password frame with
        | none => simp [login] at stage
        | some given =>
          rw [enrolled.unchanged] at login
          exact loggedIn (Option.isSome_of_eq_some login)
      · rw [Function.update_of_ne same] at stage
        exact held stage
    | @registered p _ _ here spec =>
      rw [spec.calls] at stage
      by_cases same : q = p
      · subst same; simp at stage
      · rw [Function.update_of_ne same] at stage; exact held stage
    | @returned p _ _ calls =>
      rw [calls] at stage
      by_cases same : q = p
      · subst same; simp at stage
      · rw [Function.update_of_ne same] at stage; exact held stage
    | aside spec =>
      rcases spec.calls q _ stage with plain | before
      · exact absurd rfl (plain ip)
      · exact held before

theorem enrolledRun {dhcp : Address} {routes : List SysRoute} (once : AuthenticatesOnce env password events)
    (run : Run (step env) (initial password dhcp routes) events s) : Enrolled env password events s := by
  induction run with
  | nil =>
    exact ⟨initialSound password dhcp routes,rfl,fun ip q found => by simp [initial] at found,
      fun q ip stage => by simp [initial] at stage⟩
  | snoc _ stepped ih => exact enrolledStep (ih once.before) once stepped

end

section
variable {network dhcp : Address} {ip : IP4}

theorem multicastExact : ip &&& multicastMask = multicastNet ↔ Multicast ip := by
  have first : ∀ b : Fin 256, 240#8 &&& BitVec.ofNat 8 b.val = 224#8 ↔ 224 ≤ b.val ∧ b.val ≤ 239 := by decide +kernel
  have byte := first ⟨ip.raw0.toNat,ip.raw0.isLt⟩
  rw [BitVec.ofNat_toNat,BitVec.setWidth_eq] at byte
  have masked : ip &&& multicastMask = ⟨240 &&& ip.raw0,0 &&& ip.raw1,0 &&& ip.raw2,0 &&& ip.raw3⟩ := rfl
  simp only [Multicast,← byte,masked,multicastNet,IP4.mk.injEq]
  constructor
  · intro same
    exact same.1
  · intro same
    exact ⟨same,BitVec.zero_and,BitVec.zero_and,BitVec.zero_and⟩

theorem hostBits (mask : IP4) : (~~~((ip &&& ~~~mask) ^^^ mask)).toWord = 0 ↔ ~~~mask &&& ip = ~~~mask := by
  rw [IP4.toWordZero,IP4.addrNot,IP4.addrXor,IP4.addrAnd,IP4.addrNot,Words.outsideFilled]
  constructor
  · intro same
    apply IP4.addrInjective
    rw [IP4.addrAnd,IP4.addrNot,same]
  · intro same
    rw [← IP4.addrNot,← IP4.addrAnd,same]

theorem maskedSwap (a b : IP4) : a &&& b = b &&& a := by
  apply IP4.addrInjective
  rw [IP4.addrAnd,IP4.addrAnd,BitVec.and_comm]

theorem directedEmpty (empty : dhcp.empty = true) (directed : Directed dhcp ip) : ip = allOnes := by
  simp only [Address.empty,Bool.and_eq_true,IP4.emptyZero] at empty
  have ones := directed.2
  rw [empty.2] at ones
  apply IP4.addrInjective
  have addrs := congrArg IP4.addr ones
  rw [IP4.addrAnd] at addrs
  have all : (~~~IP4.zero).addr = BitVec.allOnes 32 := by decide
  rw [all,BitVec.allOnes_and] at addrs
  exact addrs

theorem broadcastHere : isBroadcast dhcp ip = true ↔ Broadcast dhcp ip := by
  unfold isBroadcast
  by_cases multicast : Multicast ip
  · rw [if_pos (multicastExact.mpr multicast)]
    exact iff_of_true rfl (.inl multicast)
  have unicast : ¬ ip &&& multicastMask = multicastNet := fun same => multicast (multicastExact.mp same)
  by_cases all : ip = allOnes
  · rw [if_neg unicast,if_pos all]
    exact iff_of_true rfl (.inr (.inl all))
  have directed : Broadcast dhcp ip ↔ Directed dhcp ip := by
    constructor
    · rintro (h | h | h)
      · exact absurd h multicast
      · exact absurd h all
      · exact h
    · exact fun h => .inr (.inr h)
  rw [if_neg unicast,if_neg all,directed]
  cases empty : dhcp.empty with
  | true => exact iff_of_false (by simp) fun h => all (directedEmpty empty h)
  | false =>
    rw [if_neg (by decide)]
    by_cases net : dhcp.mask &&& ip = dhcp.net
    · rw [if_neg (not_not.mpr net)]
      have inside : InNetwork dhcp ip := (maskedSwap ..).trans net
      by_cases filled : (~~~((ip &&& ~~~dhcp.mask) ^^^ dhcp.mask)).toWord = 0
      · rw [if_neg (not_not.mpr filled)]
        exact iff_of_true rfl ⟨inside,(hostBits _).mp filled⟩
      · rw [if_pos filled]
        exact iff_of_false (by decide) fun here => filled ((hostBits _).mpr here.2)
    · rw [if_pos net]
      exact iff_of_false (by decide) fun here => net ((maskedSwap ..).trans here.1)

/- The cursor moves inside the network, so it does not matter where it is. -/
theorem broadcastExact {k : Nat} (mask : network.mask.IsMask k) (walked : Walked network dhcp) :
    isBroadcast dhcp ip = true ↔ Broadcast network ip := by
  have same := walkedMask walked
  have net : dhcp.net = network.net := by
    rw [Address.net,same]
    exact walkedInNetwork mask walked
  rw [broadcastHere]
  simp only [Broadcast,Directed,InNetwork,same,net]

end

section
variable {network : Address} {s : State} {p : Ptr} {frame : Bytes}

theorem receiversSends (targets : List Ptr) (frame : Bytes) : receivers (targets.map (.send · frame)) = targets := by
  induction targets with
  | nil => rfl
  | cons q rest ih => exact congrArg (q :: ·) ih

theorem entriesOnce (address : ∀ ip q, s.ipCtxMap.lookup ip = some q → (s.mem q).ip = ip) (keep : (_ : IP4) × Ptr → Bool) :
    ((s.ipCtxMap.entries.filter keep).map (·.2)).Nodup := by
  refine List.Nodup.map_on ?_ (s.ipCtxMap.nodupKeys.nodup.filter _)
  rintro ⟨ip,q⟩ left ⟨ip',q'⟩ right same
  have mine := address ip q (Table.lookupSome.mpr (List.mem_filter.mp left).1)
  have other := address ip' q' (Table.lookupSome.mpr (List.mem_filter.mp right).1)
  cases same
  rw [← mine,← other]

theorem forwardDelivered (classified : isBroadcast s.dhcp (Forward.daddr (s.mem p).buffer) = true ↔ Broadcast network (Forward.daddr (s.mem p).buffer))
    (address : ∀ ip q, s.ipCtxMap.lookup ip = some q → (s.mem q).ip = ip) (known : (s.mem p).ip.empty = false)
    (long : Forward.size ≤ (s.mem p).buffer.length) : Delivered network s p (s.mem p).buffer (handleForwardMsg s p).2 := by
  simp only [handleForwardMsg,known,Bool.false_eq_true,if_false,if_neg (Nat.not_lt.mpr long)]
  cases found : s.ipCtxMap.lookup (Forward.daddr (s.mem p).buffer) with
  | some target =>
    refine ⟨by simp [receivers],fun q data member => ?_,fun q => ?_⟩
    · simp only [List.mem_singleton,Effect.send.injEq] at member
      exact member.2
    · simp [receivers,found,eq_comm]
  | none =>
    by_cases broadcast : isBroadcast s.dhcp (Forward.daddr (s.mem p).buffer) = true
    · have sent : ∀ kept : List ((_ : IP4) × Ptr), receivers (kept.map fun c => Effect.send c.2 (s.mem p).buffer) = kept.map (·.2) := by
        intro kept
        rw [← receiversSends (kept.map (·.2)),List.map_map]
        rfl
      rw [if_pos broadcast]
      refine ⟨by rw [sent]; exact entriesOnce address _,fun q data member => ?_,fun q => ?_⟩
      · obtain ⟨c,_,same⟩ := List.mem_map.mp member
        cases same
        rfl
      · rw [sent]
        simp only [List.mem_map,List.mem_filter,decide_eq_true_eq,found,reduceCtorEq,false_or,true_and,
          classified.mp broadcast]
        constructor
        · rintro ⟨⟨ip,r⟩,⟨inside,other⟩,rfl⟩
          exact ⟨⟨ip,Table.lookupSome.mpr inside⟩,other⟩
        · rintro ⟨⟨ip,inside⟩,other⟩
          exact ⟨⟨ip,q⟩,⟨Table.lookupSome.mp inside,other⟩,rfl⟩
    · rw [if_neg broadcast]
      have plain : ¬ Broadcast network (Forward.daddr (s.mem p).buffer) := fun h => broadcast (classified.mpr h)
      exact ⟨by simp [receivers],by simp,fun q => by simp [receivers,found,plain]⟩

end

theorem forwardExact (env : Env) (cidr password : Bytes) (routes : List SysRoute) (network : Address)
    (configured : setDHCP env cidr = some network) (events : List Event) (once : AuthenticatesOnce env password events)
    (s : State) (run : Run (step env) (initial password network routes) events s) (p : Ptr) (frame : Bytes)
    (now : BitVec 64) (t : State) (sent : List Effect) (ok : handle env s (.received p frame now) = some (t,sent))
    (kind : byteAt frame 0 = Kind.FORWARD) (long : Forward.size ≤ frame.length) (client : (s.mem p).ip ≠ IP4.zero) :
    Delivered network s p frame sent := by
  obtain ⟨k,mask⟩ := setDHCPMask configured
  have walked := walkedRun run
  have valid := (enrolledRun once run).sound.valid
  cases handleCases ok with | received _ _ _ ok => ?_
  have context : ((s.setBuffer p frame).enter p (some .looping)).mem p = {s.mem p with buffer := frame} := by
    simp [State.enter,State.setBuffer,State.write]
  have addresses : ∀ q, (((s.setBuffer p frame).enter p (some .looping)).mem q).ip = (s.mem q).ip :=
    (quietBuffer s p frame).ip
  have known : (s.mem p).ip.empty = false := by
    rw [← Bool.not_eq_true,IP4.emptyZero]
    exact client
  simp only [handleMsg,context,kind] at ok
  rw [if_neg (by decide),if_pos trivial] at ok
  have delivered := @forwardDelivered network ((s.setBuffer p frame).enter p (some .looping)) p
    (broadcastExact mask walked) (fun ip q found => (addresses q).trans (valid.address ip q found))
    (by rw [context]; exact known) (by rw [context]; exact long)
  rw [Option.some.inj ok,context] at delivered
  refine ⟨delivered.once,delivered.same,fun q => ?_⟩
  have exactly := delivered.exactly q
  rw [addresses,addresses] at exactly
  exact exactly

/- Connection 0 logs in as 0.0.0.0, which the server takes for no address. -/
def namelessDigest : BitVec 256 := 0x15ec7bf0b50732b49f8228e07d24365338f9e3ab994b00af08e5a3bffe55fd8b
def namelessFrame : Bytes := [Kind.AUTH] ++ List.replicate 12 0 ++ hashBytes namelessDigest

def meeting : Env := {pool with
  sha := knownDigest [(signedPart 1,loginDigest 1),(signedPart 2,loginDigest 2),(List.replicate 12 0,namelessDigest)]}

def nameless : List Event :=
  ([.opened 0,.opened 1,.checked 0,.received 0 namelessFrame 0,.registered 0] : List Event) ++ login 1 1 ++
    ([.checked 0] : List Event)

theorem namelessRefused : ∃ s t sent, setDHCP meeting (ascii "10.0.0.0/24") = some poolNetwork ∧
    AuthenticatesOnce meeting [] nameless ∧ Run (step meeting) (initial [] poolNetwork []) nameless s ∧
    authenticated meeting [] 0 nameless = true ∧
    handle meeting s (.received 0 (forwardFrame 0 1) 0) = some (t,sent) ∧
    s.ipCtxMap.lookup (Forward.daddr (forwardFrame 0 1)) = some 1 ∧ receivers sent = [] ∧
    ¬ Delivered poolNetwork s 0 (forwardFrame 0 1) sent := by
  have outcome : (execute (advance meeting) (initial [] poolNetwork []) nameless).map (fun s =>
      (s.ipCtxMap.lookup (Forward.daddr (forwardFrame 0 1)),
        (handle meeting s (.received 0 (forwardFrame 0 1) 0)).map (fun out => receivers out.2))) =
      some (some 1,some []) := by decide +kernel
  obtain ⟨s,ok,same⟩ := Option.map_eq_some_iff.mp outcome
  simp only [Prod.mk.injEq] at same
  obtain ⟨found,answer⟩ := same
  obtain ⟨⟨t,sent⟩,handled,none⟩ := Option.map_eq_some_iff.mp answer
  refine ⟨s,t,sent,by decide +kernel,by decide +kernel,executeRun (fun _ _ _ => advanceStep) ok,by decide +kernel,
    handled,found,none,fun delivered => ?_⟩
  have reached := (delivered.exactly 1).mpr (.inl found)
  dsimp only at none
  rw [none] at reached
  contradiction

/- Two hosts of the pool, and a frame of the first to the directed broadcast address. -/
def pair : List Event :=
  ([.opened 0,.opened 1] : List Event) ++ login 0 1 ++ login 1 2 ++ ([.checked 0] : List Event)

theorem directedDelivered : ∃ s t sent, Run (step meeting) (initial [] poolNetwork []) pair s ∧
    handle meeting s (.received 0 (forwardFrame 1 255) 0) = some (t,sent) ∧
    Delivered poolNetwork s 0 (forwardFrame 1 255) sent := by
  have outcome : (execute (advance meeting) (initial [] poolNetwork []) pair).map (fun s =>
      ((s.mem 0).ip,(handle meeting s (.received 0 (forwardFrame 1 255) 0)).isSome)) = some (host 1,true) := by decide +kernel
  obtain ⟨s,ok,same⟩ := Option.map_eq_some_iff.mp outcome
  simp only [Prod.mk.injEq] at same
  obtain ⟨address,answer⟩ := same
  obtain ⟨⟨t,sent⟩,handled⟩ := Option.isSome_iff_exists.mp answer
  have run : Run (step meeting) (initial [] poolNetwork []) pair s := executeRun (fun _ _ _ => advanceStep) ok
  exact ⟨s,t,sent,run,handled,forwardExact meeting (ascii "10.0.0.0/24") [] [] poolNetwork (by decide +kernel) pair
    (by decide +kernel) s run 0 (forwardFrame 1 255) 0 t sent handled (by decide +kernel) (by decide +kernel)
    (by rw [address]; decide)⟩

end Candy.Server
