import Candy.ServerRegistry

/-! Offers of handleExptTunMsg. The cursor walks round the configured network and
never leaves it, so a search that gives up has seen every address. What an offer
promises holds for exactly the requests described by `OfferClear`: the direct path
trusts the mask of the request, and the search stops at the first address that is
valid or free. -/
namespace Candy.Server
open WsMsg Runs

def usable (network : Address) (host : IP4) : Bool := Address.isValid ⟨host,network.mask⟩
def InNetwork (network : Address) (host : IP4) : Prop := host &&& network.mask = network.net
def HeldByOther (s : State) (p : Ptr) (host : IP4) : Prop :=
  ∃ q, s.ipCtxMap.lookup host = some q ∧ (s.mem q).vmac ≠ (s.mem p).vmac

def exhaustedText : String := "all addresses in the network are assigned"

structure LawfulOffer (network : Address) (s : State) (p : Ptr) (sent : List Effect) : Prop where
  offered : ∀ m, .send p m ∈ sent → ∃ a : Address, ExptTun.cidr m = a.toCidr ∧
    InNetwork network a.host ∧ usable network a.host = true ∧ ¬ HeldByOther s p a.host
  exhausted : .log exhaustedText [] ∈ sent → ∀ host, InNetwork network host →
    usable network host = true → s.ipCtxMap.lookup host ≠ none

structure Request (env : Env) (s : State) (frame : Bytes) : Prop where
  kind : byteAt frame 0 = Kind.EXPTTUN
  long : ExptTun.size ≤ frame.length
  checked : (ExptTun.check env.sha s.password frame).1 = true

/- From the cursor to the next valid address: what is not valid is registered,
and the valid one is not held by a connection with another vmac. -/
def SearchClear (s : State) (p : Ptr) : Prop := ∀ j, 0 < j →
  (∀ i, 0 < i → i ≤ j → (Address.next^[i] s.dhcp).host ≠ s.dhcp.host) →
  (∀ i, 0 < i → i < j → (Address.next^[i] s.dhcp).isValid = false) →
  if (Address.next^[j] s.dhcp).isValid then ¬ HeldByOther s p (Address.next^[j] s.dhcp).host
  else s.ipCtxMap.lookup (Address.next^[j] s.dhcp).host ≠ none

def OfferClear (env : Env) (network : Address) (s : State) (p : Ptr) (frame : Bytes) : Prop :=
  s.dhcp.empty = true ∨
  match Address.fromCidr env.ipAddress ⟨IP4.zero,IP4.zero⟩ (ExptTun.cidr frame) with
  | .ok a => if direct s (s.mem p) a then InNetwork network a.host ∧ usable network a.host = true
    else SearchClear s p
  | _ => True

theorem walkedStep {env s e t} (stepped : step env s e t) : Walked s.dhcp t.dhcp := by
  obtain ⟨sent,ok⟩ := stepped
  cases handleCases ok with
  | @received p frame _ _ _ _ _ served =>
    cases login : loginAddress env ((s.setBuffer p frame).enter p (some .looping)).password
        (((s.setBuffer p frame).enter p (some .looping)).mem p).buffer with
    | none => exact (frameSpec served login).quiet.dhcp
    | some ip =>
      obtain ⟨u,quiet,same⟩ := loginSpec served login
      cases same
      exact quiet.dhcp
  | registered _ entered =>
    cases entered
    split <;> exact .refl _
  | returned _ left =>
    simp only [disconnect] at left
    split at left <;> cases left <;> exact .refl _
  | opened | checked | idled | hungUp | reused | stopped => exact .refl _

theorem walkedRun {env password dhcp routes events s}
    (run : Run (step env) (initial password dhcp routes) events s) : Walked dhcp s.dhcp :=
  @Run.invariant _ _ _ _ (fun s => Walked dhcp s.dhcp) (.refl dhcp)
    (fun _ _ _ before stepped => before.trans (walkedStep stepped)) _ _ run

theorem maskZero : IP4.zero.IsMask 32 := ⟨le_refl 32,by decide⟩

theorem setDHCPMask {env cidr dhcp} (ok : setDHCP env cidr = some dhcp) : ∃ k, dhcp.mask.IsMask k := by
  unfold setDHCP at ok
  split at ok
  · cases ok; exact ⟨32,maskZero⟩
  split at ok
  · rename_i parsed
    cases ok
    exact Address.fromCidrMask parsed
  · rename_i parsed
    cases ok
    exact ⟨32,by rw [Address.fromCidrRejected parsed]; exact maskZero⟩
  · contradiction

section
variable {network a : Address} {k : Nat}

theorem walkedMask (walked : Walked network a) : a.mask = network.mask := by
  obtain ⟨j,rfl⟩ := walked
  exact Address.walkMask network j

theorem walkedInNetwork (mask : network.mask.IsMask k) (walked : Walked network a) :
    InNetwork network a.host := by
  have same := walkedMask walked
  obtain ⟨j,rfl⟩ := walked
  have mine : (Address.next^[j] network).mask.IsMask k := by rw [same]; exact mask
  have block := Address.walkNat mask j
  have rest := Nat.mod_lt (network.host.addr.toNat + j) (Nat.two_pow_pos k)
  apply IP4.addrInjective
  apply BitVec.eq_of_toNat_eq
  have net := Address.netNat mine
  rw [Address.net,same,block,Nat.mul_add_div (Nat.two_pow_pos k),Nat.div_eq_of_lt rest,Nat.add_zero] at net
  exact net.trans (Address.netNat mask).symm

theorem walkedUsable (walked : Walked network a) : usable network a.host = a.isValid := by
  rw [usable,← walkedMask walked]

/- Two usable hosts exist as soon as there is one, and the walk meets the one it
did not start from before it comes back. -/
theorem usableAhead (mask : network.mask.IsMask k) {host : IP4} (inside : usable network host = true) :
    ∃ j, 0 < j ∧ j < 2^k ∧ (Address.next^[j] network).isValid = true := by
  obtain ⟨low,high⟩ := (Address.validNat (a := ⟨host,network.mask⟩) mask).mp inside
  have part := Nat.mod_lt host.addr.toNat (Nat.two_pow_pos k)
  have wide : 4 ≤ 2^k := by
    rcases Nat.lt_or_ge k 2 with small | large
    · have : k = 0 ∨ k = 1 := by omega
      rcases this with rfl | rfl <;> simp only at low high part <;> omega
    · calc 4 = 2^2 := rfl
        _ ≤ 2^k := Nat.pow_le_pow_right (by decide) large
  have target (x : Nat) (ahead : 0 < x) (below : x + 1 < 2^k) (other : x ≠ network.host.addr.toNat % 2^k) :
      ∃ j, 0 < j ∧ j < 2^k ∧ (Address.next^[j] network).isValid = true := by
    obtain ⟨j,⟨bounded,lands⟩,_⟩ := Words.rotated (c := network.host.addr.toNat) (show x < 2^k by omega)
    have positive : 0 < j := by
      rcases Nat.eq_zero_or_pos j with rfl | positive
      · exact absurd lands.symm other
      · exact positive
    refine ⟨j,positive,bounded,?_⟩
    have mine : (Address.next^[j] network).mask.IsMask k := by rw [Address.walkMask]; exact mask
    rw [Address.validNat mine,Address.walkNat mask,Nat.mul_add_mod,Nat.mod_mod,lands]
    omega
  rcases Nat.lt_or_ge (network.host.addr.toNat % 2^k) 2 with small | large
  · exact target 2 (by omega) (by omega) (by omega)
  · exact target 1 (by omega) (by omega) (by omega)

theorem walkReturns (mask : network.mask.IsMask k) (j : Nat) :
    (Address.next^[j] network).host = network.host ↔ 2^k ∣ j := by
  have walk := Address.walkNat mask j
  have parts := Nat.div_add_mod network.host.addr.toNat (2^k)
  constructor
  · intro back
    rw [back] at walk
    have level : (network.host.addr.toNat + j) % 2^k = (network.host.addr.toNat + 0) % 2^k := by
      rw [Nat.add_zero]; omega
    exact (Nat.modEq_zero_iff_dvd).mp (Nat.ModEq.add_left_cancel' _ level)
  · intro period
    obtain ⟨m,rfl⟩ := period
    apply IP4.addrInjective
    apply BitVec.eq_of_toNat_eq
    rw [walk,Nat.add_mul_mod_self_left,parts]

end

theorem answerCidr {env s p a now} (long : ExptTun.size ≤ (s.mem p).buffer.length) :
    ∃ m, (answerExptTun env s p a now).2 = [.send p m] ∧ ExptTun.cidr m = a.toCidr := by
  have long : 73 ≤ (s.mem p).buffer.length := long
  have stamped : (setField (s.mem p).buffer 1 (timestampBytes now)).length = (s.mem p).buffer.length :=
    setFieldLength (by simp only [timestampBytes,List.length_map,List.length_cons,List.length_nil]; omega)
  have fits := a.toCidrFits
  exact ⟨_,rfl,ExptTun.cidrWritten (by rw [stamped]; omega) (by omega) fits.2⟩

theorem allocateSame {env : Env} {s t : State} {ctx : WsCtx} (dhcp : t.dhcp = s.dhcp)
    (map : t.ipCtxMap = s.ipCtxMap) (vmac : ∀ q, (t.mem q).vmac = (s.mem q).vmac) :
    allocate env t ctx = allocate env s ctx := by
  have straight (a : Address) : direct t ctx a = direct s ctx a := by
    simp only [direct,dhcp,map,vmac]
  have next : nextAddress t = nextAddress s := by
    simp only [nextAddress,dhcp,map]
  simp only [allocate,straight,next,dhcp]

theorem vmacKept (s : State) (p q : Ptr) (m : Bytes) : ((s.setBuffer p m).mem q).vmac = (s.mem q).vmac := by
  by_cases same : q = p
  · subst same; simp [State.setBuffer,State.write]
  · simp [State.setBuffer,State.write,same]

def Outcome (p : Ptr) (sent : List Effect) : Allocation → Prop
  | .undefined => False
  | .refused text dump => sent = [.log text dump]
  | .direct a | .searched a => ∃ m, sent = [.send p m] ∧ ExptTun.cidr m = a.toCidr

theorem bufferKept (s : State) (p : Ptr) : s.setBuffer p (s.mem p).buffer = s := by
  simp [State.setBuffer,State.write]

theorem exptTunOutcome {env s p now out} (ok : handleExptTunMsg env s p now = some out)
    (long : ExptTun.size ≤ (s.mem p).buffer.length)
    (checked : (ExptTun.check env.sha s.password (s.mem p).buffer).1 = true) :
    Outcome p out.2 (allocate env s (s.mem p)) := by
  have same : (ExptTun.check env.sha s.password (s.mem p).buffer).2 = (s.mem p).buffer :=
    Signed.checkPassed (by change 73 ≤ _; exact long) checked
  simp only [handleExptTunMsg,if_neg (Nat.not_lt.mpr long),same,checked,bufferKept,Bool.not_true,
    Bool.false_eq_true,if_false] at ok
  split at ok
  · contradiction
  · rename_i chosen
    cases ok
    rw [chosen]; rfl
  · rename_i chosen
    cases ok
    rw [chosen]
    exact answerCidr long
  · rename_i a chosen
    cases ok
    rw [chosen]
    exact answerCidr (s := {s with dhcp := a}) long

theorem requestSpec {env s p frame now t sent} (ok : handle env s (.received p frame now) = some (t,sent))
    (request : Request env s frame) :
    Outcome p sent (allocate env s {s.mem p with buffer := frame}) := by
  obtain ⟨kind,long,checked⟩ := request
  cases handleCases ok with | received _ _ _ ok => ?_
  have context : ((s.setBuffer p frame).enter p (some .looping)).mem p = {s.mem p with buffer := frame} := by
    simp [State.enter,State.setBuffer,State.write]
  have alike : allocate env ((s.setBuffer p frame).enter p (some .looping)) {s.mem p with buffer := frame} =
      allocate env s {s.mem p with buffer := frame} :=
    allocateSame rfl rfl fun q => vmacKept s p q frame
  simp only [handleMsg,context,kind] at ok
  rw [if_neg (by decide),if_neg (by decide),if_pos trivial] at ok
  have outcome := exptTunOutcome ok (by rw [context]; exact long) (by rw [context]; exact checked)
  rw [context,alike] at outcome
  exact outcome

theorem nextAddressSpec {s : State} {k : Nat} (mask : s.dhcp.mask.IsMask k) : ∃ n,
    (∀ i, 0 < i → i < n → (Address.next^[i] s.dhcp).host ≠ s.dhcp.host ∧
      (Address.next^[i] s.dhcp).isValid = false ∧ s.ipCtxMap.lookup (Address.next^[i] s.dhcp).host ≠ none) ∧
    0 < n ∧ ((nextAddress s = .exhausted ∧ (Address.next^[n] s.dhcp).host = s.dhcp.host) ∨
      (nextAddress s = .found (Address.next^[n] s.dhcp) ∧ (Address.next^[n] s.dhcp).host ≠ s.dhcp.host ∧
        ((Address.next^[n] s.dhcp).isValid = true ∨ s.ipCtxMap.lookup (Address.next^[n] s.dhcp).host = none))) := by
  have positive := Nat.two_pow_pos k
  have lap : 2^k - 1 + 1 = 2^k := Nat.sub_add_cancel positive
  have bounded : 2^k ≤ 2^32 := Nat.pow_le_pow_right (by decide) mask.1
  have returns : ∃ i, i < 2^32 ∧ (fun a : Address => a.host == s.dhcp.host) (Address.next^[i+1] s.dhcp) = true :=
    ⟨2^k-1,by omega,by rw [lap]; simpa using (walkReturns mask (2^k)).mpr (Nat.dvd_refl _)⟩
  have first := fun hit => @Orbit.firstDecided _ Address.next (fun a => a.host == s.dhcp.host) hit (2^32) s.dhcp returns
  obtain ⟨m,enough,passed,decided⟩ := first fun a => !(!a.isValid && (s.ipCtxMap.lookup a.host).isSome)
  have outcome := Orbit.searchDecided enough passed decided
  refine ⟨m+1,fun i ahead before => ?_,by omega,?_⟩
  · obtain ⟨away,miss⟩ := passed i ahead before
    simp only [beq_eq_false_iff_ne,ne_eq,Bool.not_eq_false',Bool.and_eq_true,Bool.not_eq_true',
      Option.isSome_iff_ne_none] at away miss
    exact ⟨away,miss⟩
  · change nextAddress s = _ at outcome
    by_cases back : (Address.next^[m+1] s.dhcp).host = s.dhcp.host
    · left
      rw [outcome]
      exact ⟨if_pos (by simpa using back),back⟩
    · right
      have stays : ¬ ((Address.next^[m+1] s.dhcp).host == s.dhcp.host) = true := by simpa using back
      have hit : (!(!(Address.next^[m+1] s.dhcp).isValid &&
          (s.ipCtxMap.lookup (Address.next^[m+1] s.dhcp).host).isSome)) = true := decided.resolve_left stays
      refine ⟨outcome.trans (if_neg stays),back,?_⟩
      cases valid : (Address.next^[m+1] s.dhcp).isValid with
      | true => exact .inl rfl
      | false =>
        rw [valid] at hit
        exact .inr (by simpa using hit)

section
variable {network : Address} {s : State} {p : Ptr} {k : Nat}

theorem lawfulRefused {text dump} (other : text ≠ exhaustedText) :
    LawfulOffer network s p [.log text dump] :=
  ⟨fun m member => by simp at member,fun member => by simp [Ne.symm other] at member⟩

theorem lawfulAnswer {m : Bytes} {a : Address} (reads : ExptTun.cidr m = a.toCidr) :
    LawfulOffer network s p [.send p m] ↔
      InNetwork network a.host ∧ usable network a.host = true ∧ ¬ HeldByOther s p a.host := by
  constructor
  · intro lawful
    obtain ⟨b,text,rest⟩ := lawful.offered m (by simp)
    rw [Address.toCidrHost (reads.symm.trans text)]
    exact rest
  · intro good
    refine ⟨fun n member => ?_,fun member => by simp at member⟩
    simp only [List.mem_singleton,Effect.send.injEq,true_and] at member
    subst member
    exact ⟨a,reads,good⟩

theorem directSpec {a : Address} (straight : direct s (s.mem p) a = true) : ¬ HeldByOther s p a.host := by
  intro holds
  obtain ⟨q,found,other⟩ := holds
  simp only [direct] at straight
  split at straight
  · contradiction
  rw [found] at straight
  exact other (beq_iff_eq.mp straight).symm

/- A search that gives up went round a network without a second usable address,
so without any. -/
theorem exhaustedSpec {n : Nat} (mask : s.dhcp.mask.IsMask k)
    (passed : ∀ i, 0 < i → i < n → (Address.next^[i] s.dhcp).isValid = false)
    (ahead : 0 < n) (back : (Address.next^[n] s.dhcp).host = s.dhcp.host) (host : IP4) :
    usable s.dhcp host = false := by
  by_contra inside
  rw [Bool.not_eq_false] at inside
  obtain ⟨j,positive,bounded,valid⟩ := usableAhead mask inside
  have lap := Nat.le_of_dvd ahead ((walkReturns mask n).mp back)
  rw [passed j positive (by omega)] at valid
  contradiction

theorem searchExact {m : Bytes} {sent : List Effect} (mask : network.mask.IsMask k)
    (walked : Walked network s.dhcp)
    (outcome : match nextAddress s with
      | .found a => sent = [.send p m] ∧ ExptTun.cidr m = a.toCidr
      | .exhausted => sent = [.log exhaustedText []]
      | .unfinished => False) : LawfulOffer network s p sent ↔ SearchClear s p := by
  have here : s.dhcp.mask.IsMask k := by rw [walkedMask walked]; exact mask
  obtain ⟨n,passed,ahead,ends⟩ := nextAddressSpec here
  rcases ends with ⟨gaveUp,back⟩ | ⟨found,away,decided⟩
  · rw [gaveUp] at outcome
    change sent = [.log exhaustedText []] at outcome
    subst outcome
    have none := exhaustedSpec here (fun i positive before => (passed i positive before).2.1) ahead back
    refine iff_of_true ⟨fun m member => by simp at member,fun _ host _ inside => ?_⟩ fun j positive away _ => ?_
    · rw [usable,← walkedMask walked] at inside
      exact absurd inside (by rw [← usable,none host]; decide)
    · have before : j < n := by
        by_contra late
        exact away n ahead (by omega) back
      obtain ⟨_,invalid,registered⟩ := passed j positive before
      rw [if_neg (by simp [invalid])]
      exact registered
  · rw [found] at outcome
    obtain ⟨rfl,reads⟩ := outcome
    have target : Walked network (Address.next^[n] s.dhcp) := walked.trans ⟨n,rfl⟩
    rw [lawfulAnswer reads,walkedUsable target]
    constructor
    · rintro ⟨_,valid,free⟩ j positive _ invalid
      rcases Nat.lt_trichotomy j n with before | rfl | after
      · obtain ⟨_,unusable,registered⟩ := passed j positive before
        rw [if_neg (by simp [unusable])]
        exact registered
      · rw [if_pos valid]
        exact free
      · rw [invalid n ahead after] at valid
        contradiction
    · intro clear
      have last := clear n ahead (fun i positive upTo => ?_) fun i positive before => (passed i positive before).2.1
      · cases valid : (Address.next^[n] s.dhcp).isValid with
        | true =>
          rw [if_pos valid] at last
          exact ⟨walkedInNetwork mask target,rfl,last⟩
        | false =>
          rw [if_neg (by simp [valid])] at last
          exact absurd (decided.resolve_left (by simp [valid])) last
      · rcases Nat.lt_or_eq_of_le upTo with before | rfl
        · exact (passed i positive before).1
        · exact away

end

theorem offersExact (env : Env) (cidr password : Bytes) (routes : List SysRoute) (network : Address)
    (configured : setDHCP env cidr = some network) (events : List Event) (s : State)
    (run : Run (step env) (initial password network routes) events s) (p : Ptr) (frame : Bytes)
    (now : BitVec 64) (t : State) (sent : List Effect)
    (ok : handle env s (.received p frame now) = some (t,sent)) (request : Request env s frame) :
    LawfulOffer network s p sent ↔ OfferClear env network s p frame := by
  obtain ⟨k,mask⟩ := setDHCPMask configured
  have walked := walkedRun run
  have outcome := requestSpec ok request
  unfold OfferClear
  by_cases unset : s.dhcp.empty = true
  · simp only [allocate,if_pos unset] at outcome
    rw [outcome]
    exact iff_of_true (lawfulRefused (by decide)) (.inl unset)
  rw [or_iff_right unset]
  simp only [allocate,if_neg unset] at outcome
  cases parsed : Address.fromCidr env.ipAddress ⟨IP4.zero,IP4.zero⟩ (ExptTun.cidr frame) with
  | outOfBounds =>
    rw [parsed] at outcome
    exact False.elim outcome
  | rejected =>
    rw [parsed] at outcome
    rw [outcome]
    exact iff_of_true (lawfulRefused (by decide)) trivial
  | ok a =>
    rw [parsed] at outcome
    change Outcome p sent (if direct s (s.mem p) a then _ else _) at outcome
    change _ ↔ if direct s (s.mem p) a then _ else _
    by_cases straight : direct s (s.mem p) a = true
    · rw [if_pos straight] at outcome ⊢
      obtain ⟨m,rfl,reads⟩ := outcome
      rw [lawfulAnswer reads]
      exact ⟨fun good => ⟨good.1,good.2.1⟩,fun good => ⟨good.1,good.2,directSpec straight⟩⟩
    · rw [if_neg straight] at outcome ⊢
      cases result : nextAddress s with
      | found b =>
        rw [result] at outcome
        obtain ⟨m,same,reads⟩ := outcome
        exact searchExact (m := m) mask walked (by rw [result]; exact ⟨same,reads⟩)
      | exhausted =>
        rw [result] at outcome
        exact searchExact (m := []) mask walked (by rw [result]; exact outcome)
      | unfinished =>
        rw [result] at outcome
        exact False.elim outcome

/- A /24 network, an empty password and timestamp zero. Connection 0 registers as
host 1 and connection 1 names its vmac before it asks for any address. -/
def requestDigest : BitVec 256 := 0xaf5570f5a1810b7af78caf4bc70a660f0df51e42baf91d4de5b2328de0e83dfc
def vmacDigest : BitVec 256 := 0x6a72d0b4a60cf21f9207ebe219f3f0e39ea33f1cbfb35a7e050af13768ef0e4c
def hashBytes (v : BitVec 256) : Bytes := (List.range 32).map (fun i => v.extractLsb' (8*(31-i)) 8)

def requestFrame (cidr : String) : Bytes :=
  [Kind.EXPTTUN] ++ List.replicate 8 0 ++ (ascii cidr ++ List.replicate (32 - (ascii cidr).length) 0) ++
    hashBytes requestDigest
def vmacFrame : Bytes := [Kind.VMAC] ++ List.replicate 16 7 ++ List.replicate 8 0 ++ hashBytes vmacDigest

def pool : Env where
  sha := knownDigest [(signedPart 1,loginDigest 1),(List.replicate 8 0,requestDigest),
    (List.replicate 16 7 ++ List.replicate 8 0,vmacDigest)]
  ipAddress text := [("0.0.0.0",IP4.zero),("10.0.0.0",host 0),("10.0.0.5",host 5),
    ("10.200.0.1",⟨10,200,0,1⟩)].findSome? (fun known => if text = ascii known.1 then some known.2 else none)
def poolNetwork : Address := ⟨host 0,⟨255,255,255,0⟩⟩

def occupied : List Event :=
  ([.opened 0,.opened 1] : List Event) ++ login 0 1 ++ ([.checked 1,.received 1 vmacFrame 0,.checked 1] : List Event)

def answerTo (s : State) (p : Ptr) (cidr : String) : Option (List Effect) :=
  (handle pool s (.received p (requestFrame cidr) 0)).map (·.2)

theorem heldOffered : ∃ s t, setDHCP pool (ascii "10.0.0.0/24") = some poolNetwork ∧
    Run (step pool) (initial [] poolNetwork []) occupied s ∧ Request pool s (requestFrame "0.0.0.0/0") ∧
    handle pool s (.received 1 (requestFrame "0.0.0.0/0") 0) =
      some (t,[.send 1 (requestFrame "10.0.0.1/24")]) ∧
    ¬ LawfulOffer poolNetwork s 1 [.send 1 (requestFrame "10.0.0.1/24")] := by
  have outcome : (execute (advance pool) (initial [] poolNetwork []) occupied).map (fun s =>
      (s.password,s.ipCtxMap.lookup (host 1),(s.mem 0).vmac == (s.mem 1).vmac,answerTo s 1 "0.0.0.0/0")) =
      some ([],some 0,false,some [.send 1 (requestFrame "10.0.0.1/24")]) := by decide +kernel
  obtain ⟨s,ok,same⟩ := Option.map_eq_some_iff.mp outcome
  simp only [Prod.mk.injEq] at same
  obtain ⟨password,found,other,answer⟩ := same
  obtain ⟨⟨t,sent⟩,handled,same⟩ := Option.map_eq_some_iff.mp answer
  cases same
  refine ⟨s,t,by decide +kernel,executeRun (fun _ _ _ => advanceStep) ok,
    ⟨by decide +kernel,by decide +kernel,by rw [password]; decide +kernel⟩,handled,fun lawful => ?_⟩
  have reads : ExptTun.cidr (requestFrame "10.0.0.1/24") = (⟨host 1,poolNetwork.mask⟩ : Address).toCidr := by
    decide +kernel
  have free := ((lawfulAnswer reads).mp lawful).2.2
  exact free ⟨0,found,beq_eq_false_iff_ne.mp other⟩

theorem askedOffered : ∃ s t sent, Run (step pool) (initial [] poolNetwork []) occupied s ∧
    handle pool s (.received 1 (requestFrame "10.0.0.5/24") 0) = some (t,sent) ∧
    LawfulOffer poolNetwork s 1 sent := by
  have outcome : (execute (advance pool) (initial [] poolNetwork []) occupied).map (fun s =>
      (s.password,s.dhcp,s.ipCtxMap.lookup (host 5),answerTo s 1 "10.0.0.5/24")) =
      some ([],poolNetwork,none,some [.send 1 (requestFrame "10.0.0.5/24")]) := by decide +kernel
  obtain ⟨s,ok,same⟩ := Option.map_eq_some_iff.mp outcome
  simp only [Prod.mk.injEq] at same
  obtain ⟨password,cursor,free,answer⟩ := same
  obtain ⟨⟨t,sent⟩,handled,same⟩ := Option.map_eq_some_iff.mp answer
  have run : Run (step pool) (initial [] poolNetwork []) occupied s :=
    executeRun (fun _ _ _ => advanceStep) ok
  have request : Request pool s (requestFrame "10.0.0.5/24") :=
    ⟨by decide +kernel,by decide +kernel,by rw [password]; decide +kernel⟩
  refine ⟨s,t,sent,run,handled,(offersExact pool (ascii "10.0.0.0/24") [] [] poolNetwork (by decide +kernel)
    occupied s run 1 _ 0 t sent handled request).mpr (.inr ?_)⟩
  have parsed : Address.fromCidr pool.ipAddress ⟨IP4.zero,IP4.zero⟩ (ExptTun.cidr (requestFrame "10.0.0.5/24")) =
      .ok ⟨host 5,poolNetwork.mask⟩ := by decide +kernel
  have straight : direct s (s.mem 1) ⟨host 5,poolNetwork.mask⟩ = true := by
    simp only [direct,cursor,free]
    decide
  rw [parsed]
  change if direct s (s.mem 1) ⟨host 5,poolNetwork.mask⟩ then _ else _
  rw [if_pos straight]
  exact ⟨show _ = _ by decide,by decide⟩

end Candy.Server
