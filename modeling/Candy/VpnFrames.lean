import Candy.ClientFrames
import Candy.VpnRules

/-! Which frames of a client its server refuses. The status of a client with the server's
password is never set for the source, the hash or a short length of a frame: it is for one
that was made before the module that made it knew the address, or that no address can be
given to. What ends a connection with status 0 (its link, an exception) is not said here. -/
namespace Candy.Server
open WsMsg
open ClientQueues (Presentable plainSize)
open Signalling (sourceOf)

def Traffic (frame : Bytes) : Prop := byteAt frame 0 = Kind.FORWARD ∨ byteAt frame 0 = Kind.UDP4CONN ∨
  byteAt frame 0 = Kind.DISCOVERY ∨ byteAt frame 0 = Kind.GENERAL

def Refusable (env : Env) (s : State) (p : Ptr) (frame : Bytes) : Prop :=
  Traffic frame ∧ (s.mem p).ip = IP4.zero ∨ sourceOf frame = some IP4.zero ∨
    byteAt frame 0 = Kind.EXPTTUN ∧ ∃ text dump, allocate env s {s.mem p with buffer := frame} = .refused text dump

structure Judged (s : State) (p : Ptr) (bad : Prop) (t : State) : Prop where
  refused : bad → (t.mem p).status = -1
  kept : ¬ bad → (t.mem p).status = (s.mem p).status

section
variable {env : Env} {s t u : State} {p : Ptr} {bad other : Prop} {frame : Bytes} {l : Signed}

theorem refusedStatus (text : String) (dump : Bytes) : ((refuse s p text dump).1.mem p).status = -1 := by
  simp [refuse,State.setStatus,State.write]

theorem Judged.refuse (text : String) (dump : Bytes) (here : bad) : Judged s p bad (refuse s p text dump).1 :=
  ⟨fun _ => refusedStatus text dump,fun never => absurd here never⟩

theorem Judged.keep (same : (t.mem p).status = (s.mem p).status) (never : ¬ bad) : Judged s p bad t :=
  ⟨fun here => absurd here never,fun _ => same⟩

theorem Judged.swap (judged : Judged s p bad t) (same : bad ↔ other) : Judged s p other t :=
  ⟨fun here => judged.refused (same.mpr here),fun never => judged.kept fun here => never (same.mp here)⟩

theorem bufferStatus (m : Bytes) : ((s.setBuffer p m).mem p).status = (s.mem p).status := by
  simp [State.setBuffer,State.write]

theorem guardsJudge {size : Nat} {src : IP4} {out : State × List Effect} (unknown short mismatch : String)
    (long : size ≤ (s.mem p).buffer.length) (own : (s.mem p).ip ≠ IP4.zero → src = (s.mem p).ip ∨ src = IP4.zero)
    (kept : (out.1.mem p).status = (s.mem p).status) : Judged s p ((s.mem p).ip = IP4.zero ∨ src = IP4.zero)
      (if (s.mem p).ip.empty then refuse s p unknown [] else if (s.mem p).buffer.length < size then refuse s p short []
        else if (s.mem p).ip ≠ src then refuse s p mismatch [] else out).1 := by
  cases empty : (s.mem p).ip.empty with
  | true => exact .refuse unknown [] (.inl (IP4.emptyZero.mp empty))
  | false =>
    have known : (s.mem p).ip ≠ IP4.zero := fun zero => by rw [IP4.emptyZero.mpr zero] at empty; contradiction
    rw [if_neg (by simp),if_neg (Nat.not_lt.mpr long)]
    by_cases same : (s.mem p).ip = src
    · rw [if_neg (not_not.mpr same)]
      exact .keep kept fun either => either.elim known fun zero => known (same.trans zero)
    · rw [if_pos same]
      exact .refuse mismatch [] (.inr ((own known).resolve_left (Ne.symm same)))

theorem relayKeeps (src dst : IP4) (m : Bytes) : (relayToDst s src dst m).1 = s := by
  unfold relayToDst
  split
  · rfl
  split <;> rfl

theorem forwardJudges (long : Forward.size ≤ (s.mem p).buffer.length) :
    Judged s p ((s.mem p).ip = IP4.zero) (handleForwardMsg s p).1 := by
  simp only [handleForwardMsg]
  cases empty : (s.mem p).ip.empty with
  | true => exact .refuse _ [] (IP4.emptyZero.mp empty)
  | false =>
    have known : (s.mem p).ip ≠ IP4.zero := fun zero => by rw [IP4.emptyZero.mpr zero] at empty; contradiction
    rw [if_neg (by simp),if_neg (Nat.not_lt.mpr long)]
    refine .keep ?_ known
    split
    · rfl
    split <;> rfl

theorem checkedSame (laid : l.Laid) {sha : Digest} {password : Bytes} (good : (l.check sha password frame).1 = true)
    (long : l.size ≤ frame.length) : l.updateHash sha password frame = frame := by
  have room := laid.size
  have hash : field frame l.hash 32 = field (l.updateHash sha password frame) l.hash 32 := beq_iff_eq.mp good
  have length := sha.length (password ++ l.covered.flatMap fun f => field frame f.1 f.2)
  unfold Signed.updateHash at hash ⊢
  generalize sha.sha256 (password ++ l.covered.flatMap fun f => field frame f.1 f.2) = digest at hash length ⊢
  have inside : field (setField frame l.hash digest) l.hash 32 = digest := by
    rw [← length]
    exact fieldSet (by omega)
  rw [← hash.trans inside]
  exact setOwnField frame l.hash 32 (by omega)

theorem bufferSame {m : Bytes} (same : m = (s.mem p).buffer) : s.setBuffer p m = s := by
  have here : {s.mem p with buffer := m} = s.mem p := by rw [same]
  rw [State.setBuffer,here,State.write,Function.update_eq_self]

theorem authJudges (long : Auth.size ≤ (s.mem p).buffer.length) (good : (Auth.check env.sha s.password (s.mem p).buffer).1 = true) :
    Judged s p False (handleAuthMsg env s p).1 := by
  refine .keep ?_ id
  simp only [handleAuthMsg,if_neg (Nat.not_lt.mpr long),good,Bool.not_true,Bool.false_eq_true,if_false]
  simp [State.enter,State.write,State.setBuffer]

theorem vmacJudges (long : VMac.size ≤ (s.mem p).buffer.length) (good : (VMac.check env.sha s.password (s.mem p).buffer).1 = true) :
    Judged s p False (handleVMacMsg env s p).1 := by
  refine .keep ?_ id
  simp only [handleVMacMsg,if_neg (Nat.not_lt.mpr long),good,Bool.not_true,Bool.false_eq_true,if_false]
  simp [State.write,State.setBuffer]

theorem exptTunJudges {now : BitVec 64} {out : State × List Effect} (long : ExptTun.size ≤ (s.mem p).buffer.length)
    (good : (ExptTun.check env.sha s.password (s.mem p).buffer).1 = true) (ok : handleExptTunMsg env s p now = some out) :
    Judged s p (∃ text dump, allocate env s (s.mem p) = .refused text dump) out.1 := by
  have checked : s.setBuffer p (ExptTun.check env.sha s.password (s.mem p).buffer).2 = s :=
    bufferSame (checkedSame ⟨by decide,by decide,by decide⟩ good long)
  simp only [handleExptTunMsg,if_neg (Nat.not_lt.mpr long),good,Bool.not_true,Bool.false_eq_true,if_false,checked] at ok
  split at ok
  · contradiction
  · rename_i text dump refusing
    cases Option.some.inj ok
    exact .refuse _ _ ⟨text,dump,refusing⟩
  · rename_i a here
    cases Option.some.inj ok
    exact .keep (bufferStatus _) (by simp [here])
  · rename_i a here
    cases Option.some.inj ok
    refine .keep ?_ (by simp [here])
    simp [answerExptTun,State.setBuffer,State.write]

theorem connJudges (long : Conn.size ≤ (s.mem p).buffer.length)
    (own : (s.mem p).ip ≠ IP4.zero → Conn.src (s.mem p).buffer = (s.mem p).ip ∨ Conn.src (s.mem p).buffer = IP4.zero) :
    Judged s p ((s.mem p).ip = IP4.zero ∨ Conn.src (s.mem p).buffer = IP4.zero) (handleUdp4ConnMsg s p).1 := by
  unfold handleUdp4ConnMsg
  refine guardsJudge _ _ _ long own ?_
  split <;> rfl

theorem discoveryJudges (long : Discovery.size ≤ (s.mem p).buffer.length)
    (own : (s.mem p).ip ≠ IP4.zero → Discovery.src (s.mem p).buffer = (s.mem p).ip ∨ Discovery.src (s.mem p).buffer = IP4.zero) :
    Judged s p ((s.mem p).ip = IP4.zero ∨ Discovery.src (s.mem p).buffer = IP4.zero) (handleDiscoveryMsg s p).1 :=
  guardsJudge _ _ _ long own (by rw [relayKeeps])

theorem generalJudges (long : General.size ≤ (s.mem p).buffer.length)
    (own : (s.mem p).ip ≠ IP4.zero → General.src (s.mem p).buffer = (s.mem p).ip ∨ General.src (s.mem p).buffer = IP4.zero) :
    Judged s p ((s.mem p).ip = IP4.zero ∨ General.src (s.mem p).buffer = IP4.zero) (handleGeneralMsg s p).1 :=
  guardsJudge _ _ _ long own (by rw [relayKeeps])

theorem plainKinds {kind : Byte} (size : plainSize frame ≤ frame.length) (here : byteAt frame 0 = kind) :
    (kind = Kind.FORWARD → Forward.size ≤ frame.length) ∧ (kind = Kind.UDP4CONN → Conn.size ≤ frame.length) ∧
    (kind = Kind.DISCOVERY → Discovery.size ≤ frame.length) ∧ (kind = Kind.GENERAL → General.size ≤ frame.length) := by
  rw [plainSize,here] at size
  refine ⟨?_,?_,?_,?_⟩ <;> rintro rfl <;> exact size

theorem frameJudges {cenv : ClientQueues.Env} (sha : cenv.network.sha = env.sha) {ip : IP4} {now : BitVec 64} {out : State × List Effect}
    (presentable : Presentable cenv s.password ip (s.mem p).buffer) (own : (s.mem p).ip ≠ IP4.zero → (s.mem p).ip = ip)
    (ok : handleMsg env s p now = some out) : Judged s p (Refusable env s p (s.mem p).buffer) out.1 := by
  have signed (l : Signed) (kind : signedOf (s.mem p).buffer = some l) : l.size ≤ (s.mem p).buffer.length ∧
      (l.check env.sha s.password (s.mem p).buffer).1 = true := sha ▸ presentable.signed l kind
  have source (src : IP4) (known : sourceOf (s.mem p).buffer = some src) (logged : (s.mem p).ip ≠ IP4.zero) :
      src = (s.mem p).ip ∨ src = IP4.zero := by rw [own logged]; exact presentable.source src known
  unfold handleMsg at ok
  dsimp only at ok
  split at ok
  · rename_i kind
    cases ok
    obtain ⟨long,good⟩ := signed Auth (by rw [signedOf,kind]; rfl)
    refine (authJudges long good).swap (iff_of_false id ?_)
    simp [Refusable,Traffic,sourceOf,kind,Kind.AUTH,Kind.FORWARD,Kind.UDP4CONN,Kind.DISCOVERY,Kind.GENERAL,Kind.EXPTTUN]
  split at ok
  · rename_i kind
    cases ok
    refine (forwardJudges ((plainKinds presentable.size kind).1 rfl)).swap ?_
    simp [Refusable,Traffic,sourceOf,kind,Kind.FORWARD,Kind.UDP4CONN,Kind.DISCOVERY,Kind.GENERAL,Kind.EXPTTUN]
  split at ok
  · rename_i kind
    obtain ⟨long,good⟩ := signed ExptTun (by rw [signedOf,kind]; rfl)
    refine (exptTunJudges long good ok).swap ?_
    simp [Refusable,Traffic,sourceOf,kind,Kind.FORWARD,Kind.UDP4CONN,Kind.DISCOVERY,Kind.GENERAL,Kind.EXPTTUN]
  split at ok
  · rename_i kind
    cases ok
    have known : sourceOf (s.mem p).buffer = some (Conn.src (s.mem p).buffer) := by rw [sourceOf,kind]; rfl
    refine (connJudges ((plainKinds presentable.size kind).2.1 rfl) (source _ known)).swap ?_
    simp [Refusable,Traffic,known,kind,Kind.FORWARD,Kind.UDP4CONN,Kind.DISCOVERY,Kind.GENERAL,Kind.EXPTTUN]
  split at ok
  · rename_i kind
    cases ok
    obtain ⟨long,good⟩ := signed VMac (by rw [signedOf,kind]; rfl)
    refine (vmacJudges long good).swap (iff_of_false id ?_)
    simp [Refusable,Traffic,sourceOf,kind,Kind.VMAC,Kind.FORWARD,Kind.UDP4CONN,Kind.DISCOVERY,Kind.GENERAL,Kind.EXPTTUN]
  split at ok
  · rename_i kind
    cases ok
    have known : sourceOf (s.mem p).buffer = some (Discovery.src (s.mem p).buffer) := by rw [sourceOf,kind]; rfl
    refine (discoveryJudges ((plainKinds presentable.size kind).2.2.1 rfl) (source _ known)).swap ?_
    simp [Refusable,Traffic,known,kind,Kind.FORWARD,Kind.UDP4CONN,Kind.DISCOVERY,Kind.GENERAL,Kind.EXPTTUN]
  split at ok
  · rename_i kind
    cases ok
    have known : sourceOf (s.mem p).buffer = some (General.src (s.mem p).buffer) := by rw [sourceOf,kind]; rfl
    refine (generalJudges ((plainKinds presentable.size kind).2.2.2 rfl) (source _ known)).swap ?_
    simp [Refusable,Traffic,known,kind,Kind.FORWARD,Kind.UDP4CONN,Kind.DISCOVERY,Kind.GENERAL,Kind.EXPTTUN]
  · rename_i a b c d e f g
    cases ok
    refine .keep rfl ?_
    simp [Refusable,Traffic,sourceOf,b,c,d,f,g]

theorem receivedJudges {cenv : ClientQueues.Env} (sha : cenv.network.sha = env.sha) {ip : IP4} {now : BitVec 64} {sent : List Effect}
    (presentable : Presentable cenv s.password ip frame) (own : (s.mem p).ip ≠ IP4.zero → (s.mem p).ip = ip)
    (ok : handle env s (.received p frame now) = some (t,sent)) : Judged s p (Refusable env s p frame) t := by
  cases handleCases ok with | received _ _ _ served => ?_
  have here : ((s.setBuffer p frame).enter p (some .looping)).mem p = {s.mem p with buffer := frame} := by
    simp [State.enter,State.setBuffer,State.write]
  have buffer : (((s.setBuffer p frame).enter p (some .looping)).mem p).buffer = frame := by rw [here]
  have judged := frameJudges sha (by rw [buffer]; exact presentable) (by rw [here]; exact own) served
  rw [buffer] at judged
  have same : Refusable env ((s.setBuffer p frame).enter p (some .looping)) p frame ↔ Refusable env s p frame := by
    have allocates := @allocateSame env s ((s.setBuffer p frame).enter p (some .looping)) {s.mem p with buffer := frame} rfl rfl
      fun q => vmacKept s p q frame
    unfold Refusable
    rw [here,← allocates]
  exact ⟨fun bad => judged.refused (same.mpr bad),fun never => (judged.kept fun bad => never (same.mp bad)).trans (by rw [here])⟩

theorem receivedBeside {q : Ptr} {now : BitVec 64} {sent : List Effect} (apart : q ≠ p)
    (ok : handle env s (.received p frame now) = some (t,sent)) : t.mem q = s.mem q := by
  cases handleCases ok with | received _ _ _ served => ?_
  have written (u : State) (ctx : WsCtx) : (u.write p ctx).mem q = u.mem q := Function.update_of_ne apart ..
  have fixed : Fixed (fun u => u.mem q) p := ⟨written,fun _ _ => rfl,fun _ _ => rfl⟩
  exact (frameFixed fixed served).trans (written s _)

theorem registerStatus {ip : IP4} {sent : List Effect} (entered : register s p ip = (t,sent)) (q : Ptr) :
    (t.mem q).status = if s.ipCtxMap.lookup ip = some q then -1 else (s.mem q).status := by
  have buffered (u : State) : ((updateSysRoute u p).1.mem q).status = (u.mem q).status := by
    change ((u.setBuffer p _).mem q).status = _
    by_cases same : q = p
    · subst same; exact bufferStatus _
    · simp [State.setBuffer,State.write,same]
  unfold register at entered
  cases found : s.ipCtxMap.lookup ip with
  | none =>
    rw [found] at entered
    cases entered
    exact buffered _
  | some old =>
    rw [found] at entered
    cases entered
    refine (buffered _).trans ?_
    by_cases same : q = old
    · subst same
      simp [State.setStatus,State.write]
    · have other : ¬ some old = some q := fun equal => same (Option.some.inj equal).symm
      simp [State.setStatus,State.write,same,other]

end
end Candy.Server

namespace Candy.Vpn
open WsMsg Modules Runs
open ClientQueues (Core Module Item Sent Config framesOf Voice voiceStep startVoice Turns handleTurns turnsStep Presentable)
open Server (Ptr Admitted Sound Refusable)

structure Voiced (env : Env) (c : Session) (ip : IP4) : Prop where
  voice : Voice (env.client c.cfg) c.cfg.password ip c.client
  asking : (∃ f, (f ∈ c.up ∨ f ∈ c.down) ∧ asks f = true) → c.client.core.ws.tunCidr = []

section
variable {env : Env} {group : IP4 → Prop} {s t : Server.State} {p q : Ptr} {c : Session} {ip : IP4}

theorem Voiced.acts (voiced : Voiced env c ip) {e : Server.Event} {sent : List Server.Effect}
    (ok : Server.handle env.server s e = some (t,sent)) {taken : Nat} (up : ∀ f ∈ (framesOf c.client.sent).drop taken, f ∈ c.up)
    (own : ∀ frame now, e = .received q frame now → frame ∈ c.up) :
    Voiced env {c with taken := taken,down := c.down ++ sentTo q sent} ip := by
  refine ⟨voiced.voice,fun ⟨f,inside,asked⟩ => voiced.asking ?_⟩
  rcases inside with member | member
  · exact ⟨f,.inl (up f member),asked⟩
  · rcases List.mem_append.mp member with old | new
    · exact ⟨f,.inr old,asked⟩
    · obtain ⟨g,inside,asked⟩ := answersAsked ok own f new asked
      exact ⟨g,.inl inside,asked⟩

theorem Voiced.moves (voiced : Voiced env c ip) (placed : Placed env group s p c ip) {e : ClientQueues.Event} {client : Client}
    {down : List Bytes} (stepped : (ClientQueues.client (env.client c.cfg)).step c.client e client) (fewer : ∀ f ∈ down, f ∈ c.down)
    (first : ∀ m pingMessage now, e = .frame m pingMessage now → c.down = m::down) {jp : IP4}
    (next : Named env {c with client := client,down := down} jp) : Voiced env {c with client := client,down := down} jp := by
  have named (a : Address) (read : WsClient.address (env.client c.cfg).ws c.client.core.ws.tunCidr = some a) : a.host = ip :=
    Named.same ⟨a,read,rfl⟩ placed.named
  have voice : Voice (env.client c.cfg) c.cfg.password ip client := voiceStep voiced.voice stepped placed.located.core.tun named
  obtain ⟨taken,core,outputs,_,turns,here,frames⟩ := turnsStep stepped
  have up := upAppend placed.taken frames down
  have still (ws : core.ws = c.client.core.ws) (quiet : ∀ f ∈ framesOf (outs outputs).reverse, ¬ ClientQueues.LoginFrame f) :
      Voiced env {c with client := client,down := down} jp := by
    rw [← here] at ws
    have kept : Named env c jp := by
      obtain ⟨a,read,host⟩ := next
      exact ⟨a,ws ▸ read,host⟩
    have same := kept.same placed.named
    refine ⟨voice.moved (.inl same),fun ⟨f,inside,asked⟩ => ?_⟩
    change client.core.ws.tunCidr = []
    rw [ws]
    refine voiced.asking ⟨f,?_,asked⟩
    rcases inside with member | member
    · rw [up] at member
      rcases List.mem_append.mp member with old | new
      · exact .inl old
      · exact absurd (of_decide_eq_true (asksLogs asked)) (quiet f new)
    · exact .inr (fewer f member)
  cases turns with
  | aside stays each => exact still stays.ws (ClientQueues.framesAside each)
  | told head ws => exact still ws (by simp [outs,framesOf])
  | @answered m pingMessage now tunCidr a event kind read =>
    have begins := first m pingMessage now event
    have asked : asks m = true := by simpa [asks] using kind
    have unnamed := voiced.asking ⟨m,.inr (begins ▸ List.mem_cons_self ..),asked⟩
    have zero : ip = IP4.zero := (named ⟨IP4.zero,IP4.zero⟩ (by rw [unnamed]; rfl)).symm
    have single := placed.single
    rw [tokens,begins,List.countP_cons,if_pos asked] at single
    refine ⟨voice.moved (.inr zero),?_⟩
    rintro ⟨f,member | member,again⟩
    · rw [up] at member
      rcases List.mem_append.mp member with old | new
      · have := List.countP_pos_iff.mpr ⟨f,old,asksLogs again⟩
        omega
      · cases List.mem_singleton.mp new
        rw [asks,ClientQueues.authFirst] at again
        contradiction
    · have := List.countP_pos_iff.mpr (show ∃ f ∈ down, asks f = true from ⟨f,member,again⟩)
      omega

theorem startVoiced (dotted : ∀ q : IP4, env.ipAddress q.toString = some q) {cfg : Config} {pingMessage : Bytes} {now : BitVec 64}
    {client : Client} (begun : ClientQueues.start (env.client cfg) cfg pingMessage now = some client) : Voiced env ⟨cfg,client,0,[]⟩ ip := by
  refine ⟨startVoice begun,?_⟩
  rintro ⟨f,member | member,asked⟩
  · have starts : ClientQueues.Starts (env.client cfg) (fun _ => True) cfg client := ClientQueues.startStarts dotted begun
    cases starts with
    | @named a vmac auth ws named located frames other kind ip =>
      have up : (⟨cfg,client,0,[]⟩ : Session).up = [vmac,auth] := frames
      rw [up] at member
      simp only [List.mem_cons,List.not_mem_nil,or_false] at member
      rcases member with rfl | rfl
      · exact absurd (of_decide_eq_true (asksLogs asked)) other
      · rw [asks,kind] at asked
        contradiction
    | asking ws unnamed => exact (congrArg WsClient.Client.tunCidr ws).trans unnamed
  · contradiction

def Voices (env : Env) (s : State) : Prop := ∀ p c, s.sessions p = some c → ∀ ip, Named env c ip → Voiced env c ip

theorem voicesStep (dotted : ∀ q : IP4, env.ipAddress q.toString = some q) {network : Address} {s t : State} {e : Event}
    (consistent : Consistent env network group s) (voices : Voices env s) (stepped : step env s e t) : Voices env t := by
  cases handleCases stepped with
  | opened accepted begun =>
    intro q d found ip named
    rcases placeAt found with ⟨rfl,rfl⟩ | ⟨_,old⟩
    · exact startVoiced dotted begun
    · exact voices q d old ip named
  | @served e out apart handled =>
    intro q d found ip named
    obtain ⟨d',old,rfl⟩ := deliverAt found
    refine (voices q d' old ip named).acts handled (fun f member => member) fun frame now same => ?_
    subst same
    contradiction
  | @uplinked p now c frame rest out here first handled =>
    intro q d found ip named
    obtain ⟨d',old,rfl⟩ := deliverAt found
    rcases placeAt old with ⟨rfl,rfl⟩ | ⟨apart,old⟩
    · refine (voices q c here ip named).acts handled (fun f member => ?_) fun frame' _ same => ?_
      · rw [← List.drop_drop] at member
        exact List.mem_of_mem_drop member
      · cases same
        exact first ▸ List.mem_cons_self ..
    · refine (voices q d' old ip named).acts handled (fun f member => member) fun frame' _ same => ?_
      cases same
      exact absurd rfl apart
  | @downlinked p pingMessage now c frame rest client here first acted =>
    intro q d found ip named
    rcases placeAt found with ⟨rfl,rfl⟩ | ⟨_,old⟩
    · obtain ⟨jp,placed⟩ := consistent.placed q c here
      refine (voices q c here jp placed.named).moves placed acted (fun f member => first ▸ List.mem_cons_of_mem _ member) (fun _ _ _ same => ?_) named
      cases same
      exact first
    · exact voices q d old ip named
  | @member p e c client here apart acted =>
    intro q d found ip named
    rcases placeAt found with ⟨rfl,rfl⟩ | ⟨_,old⟩
    · obtain ⟨jp,placed⟩ := consistent.placed q c here
      refine (voices q c here jp placed.named).moves placed acted (fun f member => member) (fun _ _ _ same => ?_) named
      subst same
      contradiction
    · exact voices q d old ip named

/- The two ways in which an event throws a member out: its frame is refused, or another
login takes its address. -/
def ThrownOut (env : Env) (s : State) (p : Ptr) : Event → Prop
  | .uplinked q _ => q = p ∧ ∃ c frame rest, s.sessions p = some c ∧ c.up = frame::rest ∧ Refusable env.server s.server p frame
  | .served (.registered q) => ∃ ip, s.server.calls q = some (.registering ip) ∧ s.server.ipCtxMap.lookup ip = some p
  | _ => False

def Member (password : Bytes) (s : State) (p : Ptr) : Prop :=
  s.server.calls p ≠ none ∧ ∃ c, s.sessions p = some c ∧ c.cfg.password = password

def Spared (env : Env) (password : Bytes) (s : State) (e : Event) : Prop := ∀ p, Member password s p → ¬ ThrownOut env s p e

def AllKept (password : Bytes) (s : State) : Prop := ∀ p, Member password s p → (s.server.mem p).status = 0

structure Understood (env : Env) (network : Address) (group : IP4 → Prop) (password : Bytes) (s : State) : Prop where
  consistent : Consistent env network group s
  voices : Voices env s
  unchanged : s.server.password = password

section
variable {network : Address} {password : Bytes} {s t : State} {e : Event}

theorem aloneJudges {e : Server.Event} {out : Server.State × List Server.Effect} (apart : alone e = true)
    (handled : Server.handle env.server s.server e = some out) (present : s.server.calls p ≠ none) :
    Server.Judged s.server p (ThrownOut env s p (.served e)) out.1 := by
  cases Server.handleCases handled with
  | @registered q ip _ here entered =>
    have status := Server.registerStatus entered p
    have thrown : ThrownOut env s p (.served (.registered q)) ↔ s.server.ipCtxMap.lookup ip = some p := by
      refine ⟨fun ⟨jp,stage,found⟩ => ?_,fun found => ⟨ip,here,found⟩⟩
      cases here.symm.trans stage
      exact found
    refine Server.Judged.swap ⟨fun found => ?_,fun other => ?_⟩ thrown.symm
    · rw [status,if_pos found]
    · rw [status,if_neg other]
  | returned here left => exact .keep (by simp only [Server.State.enter,(Server.disconnectSpec left).2.1]) id
  | @reused q garbage free =>
    have other : p ≠ q := fun same => present (same ▸ free)
    exact .keep (congrArg Server.WsCtx.status (Function.update_of_ne other ..)) id
  | checked | idled | hungUp | stopped => exact .keep rfl id
  | opened | received => contradiction

theorem judgedStep (understood : Understood env network group password s) (stepped : step env s e t) (member : Member password s p) :
    Server.Judged s.server p (ThrownOut env s p e) t.server := by
  obtain ⟨present,c,here,secret⟩ := member
  cases handleCases stepped with
  | @opened q cfg pingMessage now out client accepted begun =>
    cases Server.handleCases accepted with | opened free => ?_
    have other : p ≠ q := fun same => present (same ▸ free)
    exact .keep (congrArg Server.WsCtx.status (Function.update_of_ne other ..)) id
  | served apart handled => exact aloneJudges apart handled present
  | @uplinked q now d frame rest out there first handled =>
    by_cases same : q = p
    · subst same
      cases here.symm.trans there
      obtain ⟨ip,placed⟩ := understood.consistent.placed q c here
      have voiced := understood.voices q c here ip placed.named
      have sent : frame ∈ framesOf c.client.sent := List.mem_of_mem_drop (show frame ∈ c.up from first ▸ List.mem_cons_self ..)
      have presentable : Presentable (env.client c.cfg) s.server.password ip frame := by
        rw [understood.unchanged,← secret]
        obtain ⟨x,inside,emission⟩ := List.mem_filterMap.mp sent
        split at emission
        · rename_i framed
          cases emission
          exact voiced.voice.sent x (List.mem_reverse.mp inside) frame framed
        · contradiction
      have judged := Server.receivedJudges rfl presentable (fun known => (placed.logged ⟨present,.inl known⟩).1) handled
      refine judged.swap ⟨fun bad => ⟨rfl,c,frame,rest,here,first,bad⟩,?_⟩
      rintro ⟨_,d,frame',rest',again,first',bad⟩
      cases here.symm.trans again
      cases first.symm.trans first'
      exact bad
    · refine .keep (congrArg Server.WsCtx.status (Server.receivedBeside (Ne.symm same) handled)) fun thrown => same thrown.1
  | downlinked => exact .keep rfl id
  | member => exact .keep rfl id

theorem memberBefore (stepped : step env s e t) (member : Member password t p) :
    Member password s p ∨ (t.server.mem p).status = 0 := by
  obtain ⟨present,c,here,secret⟩ := member
  cases handleCases stepped with
  | @opened q cfg pingMessage now out client accepted begun =>
    rcases placeAt here with ⟨rfl,rfl⟩ | ⟨apart,old⟩
    · refine .inr ?_
      cases Server.handleCases accepted
      change (Function.update s.server.mem p Server.WsCtx.fresh p).status = 0
      rw [Function.update_self]
      rfl
    · exact .inl ⟨callsKept accepted (by simpa using Ne.symm apart) present,c,old,secret⟩
  | @served e out apart handled =>
    obtain ⟨d,old,rfl⟩ := deliverAt here
    refine .inl ⟨callsKept handled ?_ present,d,old,secret⟩
    rintro rfl
    contradiction
  | uplinked there first handled =>
    obtain ⟨d,old,rfl⟩ := deliverAt here
    have before := callsKept handled (by simp) present
    rcases placeAt old with ⟨rfl,rfl⟩ | ⟨_,old⟩
    · exact .inl ⟨before,_,there,secret⟩
    · exact .inl ⟨before,d,old,secret⟩
  | downlinked there =>
    rcases placeAt here with ⟨rfl,rfl⟩ | ⟨_,old⟩
    · exact .inl ⟨present,_,there,secret⟩
    · exact .inl ⟨present,c,old,secret⟩
  | member there =>
    rcases placeAt here with ⟨rfl,rfl⟩ | ⟨_,old⟩
    · exact .inl ⟨present,_,there,secret⟩
    · exact .inl ⟨present,c,old,secret⟩

theorem thrownStays (stepped : step env s e t) (member : Member password s p) (thrown : ThrownOut env s p e) : Member password t p := by
  obtain ⟨present,c,here,secret⟩ := member
  cases handleCases stepped with
  | @served e out apart handled =>
    refine ⟨?_,_,Option.map_eq_some_iff.mpr ⟨c,here,rfl⟩,secret⟩
    cases Server.handleCases handled with
    | @registered q ip _ stage entered =>
      change out.1.calls p ≠ none
      rw [(Server.registerSpec entered).1.calls]
      by_cases same : p = q
      · subst same; simp
      · rwa [Function.update_of_ne same]
    | _ => contradiction
  | @uplinked q now d frame rest out there first handled =>
    obtain ⟨rfl,_⟩ := thrown
    cases here.symm.trans there
    refine ⟨?_,_,Option.map_eq_some_iff.mpr ⟨_,Function.update_self ..,rfl⟩,secret⟩
    change out.1.calls q ≠ none
    rw [(Server.receivedSpec handled).1.calls,Function.update_self]
    simp
  | opened | downlinked | member => contradiction

theorem understoodStep (dotted : ∀ q : IP4, env.ipAddress q.toString = some q)
    (classified : ∀ a, Server.Walked network a → ∀ dst, Server.isBroadcast a dst = true → group dst)
    (understood : Understood env network group password s) (stepped : step env s e t) : Understood env network group password t := by
  refine ⟨consistentStep dotted classified understood.consistent stepped,voicesStep dotted understood.consistent understood.voices stepped,?_⟩
  cases handleCases stepped with
  | opened accepted => exact (Server.passwordStep ⟨_,accepted⟩).trans understood.unchanged
  | served _ handled => exact (Server.passwordStep ⟨_,handled⟩).trans understood.unchanged
  | uplinked _ _ handled => exact (Server.passwordStep ⟨_,handled⟩).trans understood.unchanged
  | downlinked => exact understood.unchanged
  | member => exact understood.unchanged

end

theorem membersKept (env : Env) (dotted : ∀ q : IP4, env.ipAddress q.toString = some q) (password : Bytes) (dhcp : Address)
    (routes : List Server.SysRoute) (events : List Event) (s : State) :
    Run (Guarded (step env) (Spared env password)) (initial password dhcp routes) events s ↔
      Run (Keeping (step env) (AllKept password)) (initial password dhcp routes) events s := by
  refine @guardExact _ _ _ _ _ (fun s => Understood env dhcp (fun _ => True) password s ∧ AllKept password s) _ ?_ ?_ ?_ ?_ _ _
  · have start : Consistent env dhcp (fun _ => True) (initial password dhcp routes) := consistentRun dotted (fun _ _ _ _ => trivial) .nil
    exact ⟨⟨start,fun p c found => by contradiction,rfl⟩,fun p member => absurd rfl member.1⟩
  · exact fun s inv => inv.2
  · intro s e t inv spared stepped
    refine ⟨understoodStep dotted (fun _ _ _ _ => trivial) inv.1 stepped,fun p member => ?_⟩
    rcases memberBefore stepped member with before | fresh
    · exact ((judgedStep inv.1 stepped before).kept (spared p before)).trans (inv.2 p before)
    · exact fresh
  · intro s e t inv unspared stepped kept
    simp only [Spared,not_forall,not_not] at unspared
    obtain ⟨p,member,thrown⟩ := unspared
    have status := kept p (thrownStays stepped member thrown)
    rw [(judgedStep inv.1 stepped member).refused thrown] at status
    contradiction

theorem keepingKept {password : Bytes} {dhcp : Address} {routes : List Server.SysRoute} {events : List Event} {s : State}
    (run : Run (Keeping (step env) (AllKept password)) (initial password dhcp routes) events s) : AllKept password s :=
  run.invariant (fun _ member => absurd rfl member.1) fun _ _ _ _ last => last.2

/- The second member publishes itself to the first before its Tun module has read the
address that the server gave it. -/
def attempted (p : Ptr) : Event := .member p (.peerQueue unconnected unconnected ⟨0,0,0⟩ 0)
def raced : List Event := join 0 (ascii "10.0.0.1/24") ++ settle 0 ++
  ([.opened 1 {joining [] with stunEnabled := true} [] 0,.served (.checked 1),.uplinked 1 0,.served (.checked 1),.uplinked 1 0,
    .downlinked 1 [] 0,.served (.checked 1),.uplinked 1 0,.served (.registered 1)] : List Event) ++
  ([.member 0 (.device ⟨0,0,.stored⟩ DataPlane.sample),attempted 0,attempted 0,.member 0 .wsQueue,.served (.checked 0),.uplinked 0 0,
    .downlinked 1 [] 0,attempted 1,attempted 1] : List Event) ++
  ([.member 1 (.tick ⟨10,0,0,1⟩ ⟨0,0,0⟩),.member 1 .stunRequest,.member 1 (.stunResponse []),.member 1 (.stunPeer ⟨10,0,0,1⟩ ⟨0,0,0⟩),
    .member 1 .wsQueue,.served (.checked 1),.uplinked 1 0] : List Event)

theorem racedThrown : ∃ s, Run (step quadEnv) (initial [] pool []) raced s ∧ (s.server.mem 1).status = -1 ∧
    ¬ Run (Guarded (step quadEnv) (Spared quadEnv [])) (initial [] pool []) raced s := by
  have outcome : (execute (handle quadEnv) (initial [] pool []) raced).map (fun s => ((s.server.mem 1).status,s.server.calls 1,
      (s.sessions 1).map fun c => c.cfg.password)) = some (-1,some .looping,some []) := by decide +kernel
  obtain ⟨s,ok,same⟩ := Option.map_eq_some_iff.mp outcome
  obtain ⟨status,calls,session⟩ := by simpa only [Prod.mk.injEq] using same
  obtain ⟨c,here,secret⟩ := Option.map_eq_some_iff.mp session
  have member : Member [] s 1 := ⟨by rw [calls]; simp,c,here,secret⟩
  refine ⟨s,executedRun ok,status,fun guarded => ?_⟩
  have kept := keepingKept ((membersKept quadEnv quadDotted [] pool [] raced s).mp guarded) 1 member
  exact absurd (status.symm.trans kept) (by decide)

end
end Candy.Vpn
