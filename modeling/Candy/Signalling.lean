import Candy.RoutePush
import Candy.ServerRegistry

/-! Signalling from one client to another. What sendPubInfo publishes comes out at
the other end as it went in, through two frame formats and the server's routing.
The other direction is about trust: whatever a connection sends, and whatever it
logged in with before, a signalling frame leaves the server only under the address
of the connection's last accepted login. -/
namespace Candy.Signalling
open WsMsg CoreMsg Server Runs

/- The addresses PeerManager::sendPubInfo fills in. -/
structure Published where
  address : IP4
  localhost : IP4
  localPort : BitVec 16
  stunIp : IP4
  stunPort : BitVec 16
  deriving DecidableEq, Repr

def sendPubInfo (l : Published) (info : PubInfo) : PubInfo :=
  if info.nearby then {info with src := l.address,ip := l.localhost,port := l.localPort}
  else {info with src := l.address,ip := l.stunIp,port := l.stunPort}

def frameOf (info : PubInfo) : Bytes :=
  if info.nearby then WsClient.connLocalFrame info else WsClient.connFrame info

theorem frameSent (info : PubInfo) : WsClient.handlePubInfo info = [.sendFrame (frameOf info)] := by
  unfold WsClient.handlePubInfo frameOf
  split <;> rfl

def sourceOf (m : Bytes) : Option IP4 :=
  if byteAt m 0 = Kind.UDP4CONN then some (Conn.src m)
  else if byteAt m 0 = Kind.DISCOVERY then some (Discovery.src m)
  else if byteAt m 0 = Kind.GENERAL then some (General.src m) else none

/- Both formats end with the port. -/
theorem portLast (front : Bytes) (port : BitVec 16) :
    WsClient.portAt (front ++ WsClient.portBytes port) front.length = port := by
  have read := WsClient.portRead port front []
  rwa [List.append_nil] at read

theorem connDecoded (info : PubInfo) :
    WsClient.handleUdp4ConnMsg (WsClient.connFrame info) = [.write .peer (.pubInfo {info with nearby := false})] := by
  have port : WsClient.portAt (WsClient.connFrame info) 13 = info.port :=
    portLast (Kind.UDP4CONN :: (ip4Bytes info.src ++ ip4Bytes info.dst ++ ip4Bytes info.ip)) info.port
  have long : ¬ (WsClient.connFrame info).length < Conn.size := by simp [WsClient.connFrame,ip4Bytes,WsClient.portBytes,Conn.size]
  rw [WsClient.handleUdp4ConnMsg,if_neg long,port]
  rfl

theorem connLocalDecoded (info : PubInfo) :
    WsClient.handleGeneralMsg (WsClient.connLocalFrame info) = [.write .peer (.pubInfo {info with nearby := true})] := by
  have port : WsClient.portAt (WsClient.connLocalFrame info) 16 = info.port :=
    portLast ([Kind.GENERAL,0,0,0] ++ ip4Bytes info.src ++ ip4Bytes info.dst ++ ip4Bytes info.ip) info.port
  have long : ¬ (WsClient.connLocalFrame info).length < WsClient.connLocalSize := by
    simp [WsClient.connLocalFrame,ip4Bytes,WsClient.portBytes,WsClient.connLocalSize]
  rw [WsClient.handleGeneralMsg,if_neg long,port]
  rfl

theorem frameDecoded (env : WsClient.Env) (c : WsClient.Client) (info : PubInfo) (now : BitVec 64) :
    WsClient.handleWsMsg env c (frameOf info) now = some (c,[.write .peer (.pubInfo info)]) := by
  obtain ⟨src,dst,ip,port,nearby⟩ := info
  cases nearby with
  | false => exact congrArg (fun sent => some (c,sent)) (connDecoded ⟨src,dst,ip,port,false⟩)
  | true => exact congrArg (fun sent => some (c,sent)) (connLocalDecoded ⟨src,dst,ip,port,true⟩)

theorem connRouted {s : State} {p q : Ptr} (known : (s.mem p).ip.empty = false)
    (long : ¬ (s.mem p).buffer.length < Conn.size) (own : (s.mem p).ip = Conn.src (s.mem p).buffer)
    (found : s.ipCtxMap.lookup (Conn.dst (s.mem p).buffer) = some q) :
    handleUdp4ConnMsg s p = (s,[.send q (s.mem p).buffer]) := by
  simp only [handleUdp4ConnMsg,known,if_neg long,found]
  rw [if_neg (by simp),if_neg (not_not.mpr own)]

theorem relayRouted {s : State} {q : Ptr} {src dst : IP4} {frame : Bytes} (different : dst ≠ src)
    (found : s.ipCtxMap.lookup dst = some q) : .send q frame ∈ (relayToDst s src dst frame).2 := by
  unfold relayToDst
  split
  · refine List.mem_map.mpr ⟨⟨dst,q⟩,List.mem_filter.mpr ⟨Table.lookupSome.mp found,?_⟩,rfl⟩
    simpa using different
  · simp [found]

theorem generalRouted {s : State} {p q : Ptr} (known : (s.mem p).ip.empty = false)
    (long : ¬ (s.mem p).buffer.length < General.size) (own : (s.mem p).ip = General.src (s.mem p).buffer)
    (different : General.dst (s.mem p).buffer ≠ General.src (s.mem p).buffer)
    (found : s.ipCtxMap.lookup (General.dst (s.mem p).buffer) = some q) :
    .send q (s.mem p).buffer ∈ (handleGeneralMsg s p).2 := by
  simp only [handleGeneralMsg,known,if_neg long]
  rw [if_neg (by simp),if_neg (not_not.mpr own)]
  exact relayRouted different found

theorem frameRouted {env : Env} {s : State} {p q : Ptr} {info : PubInfo} {now : BitVec 64}
    (receiving : s.calls p = some .receiving) (own : (s.mem p).ip = info.src) (known : info.src.empty = false)
    (different : info.dst ≠ info.src) (found : s.ipCtxMap.lookup info.dst = some q) :
    ∃ t sent, handle env s (.received p (frameOf info) now) = some (t,sent) ∧ .send q (frameOf info) ∈ sent := by
  obtain ⟨src,dst,ip,port,nearby⟩ := info
  have buffer : (((s.setBuffer p (frameOf ⟨src,dst,ip,port,nearby⟩)).enter p (some .looping)).mem p).buffer =
      frameOf ⟨src,dst,ip,port,nearby⟩ := by simp [State.setBuffer,State.write,State.enter]
  have address : (((s.setBuffer p (frameOf ⟨src,dst,ip,port,nearby⟩)).enter p (some .looping)).mem p).ip = src := by
    simpa [State.setBuffer,State.write,State.enter] using own
  have map : ((s.setBuffer p (frameOf ⟨src,dst,ip,port,nearby⟩)).enter p (some .looping)).ipCtxMap = s.ipCtxMap := rfl
  have enabled : s.calls p = some .receiving ∧ frameOf ⟨src,dst,ip,port,nearby⟩ ≠ [] ∧
      (frameOf ⟨src,dst,ip,port,nearby⟩).length ≤ 1500 := by
    refine ⟨receiving,?_⟩
    cases nearby <;> simp [frameOf,WsClient.connFrame,WsClient.connLocalFrame,ip4Bytes,WsClient.portBytes]
  simp only [handle,if_pos enabled]
  generalize (s.setBuffer p (frameOf ⟨src,dst,ip,port,nearby⟩)).enter p (some .looping) = u at *
  cases nearby with
  | false =>
    have sent : handleUdp4ConnMsg u p = (u,[.send q (u.mem p).buffer]) := by
      apply connRouted
      · rw [address]; exact known
      · rw [buffer]; simp [frameOf,WsClient.connFrame,ip4Bytes,WsClient.portBytes,Conn.size]
      · rw [address,buffer]; rfl
      · rw [map,buffer]; exact found
    have inside : .send q (u.mem p).buffer ∈ (handleUdp4ConnMsg u p).2 := by rw [sent]; simp
    rw [buffer] at inside
    refine ⟨(handleUdp4ConnMsg u p).1,_,?_,inside⟩
    simp only [handleMsg,buffer]
    rfl
  | true =>
    have sent : .send q (u.mem p).buffer ∈ (handleGeneralMsg u p).2 := by
      apply generalRouted
      · rw [address]; exact known
      · rw [buffer]; simp [frameOf,WsClient.connLocalFrame,ip4Bytes,WsClient.portBytes,General.size]
      · rw [address,buffer]; rfl
      · rw [buffer]; exact different
      · rw [map,buffer]; exact found
    rw [buffer] at sent
    refine ⟨(handleGeneralMsg u p).1,_,?_,sent⟩
    simp only [handleMsg,buffer]
    rfl

def Vouched (s : State) (p : Ptr) (sent : List Effect) : Prop :=
  ∀ q m a, .send q m ∈ sent → sourceOf m = some a → m = (s.mem p).buffer ∧ (s.mem p).ip = a ∧ a.empty = false

theorem vouchedLog (s p text dump) : Vouched s p [.log text dump] := by
  intro q m a member
  simp at member

theorem vouchedNil (s p) : Vouched s p [] := by
  intro q m a member
  simp at member

theorem vouchedKind {s : State} {p : Ptr} {sent : List Effect} {m : Bytes} (only : ∀ q m', .send q m' ∈ sent → m' = m)
    (plain : sourceOf m = none) : Vouched s p sent := by
  intro q m' a member source
  rw [only q m' member,plain] at source
  contradiction

theorem vouchedOwn {s : State} {p : Ptr} {sent : List Effect} {a : IP4} (known : (s.mem p).ip.empty = false)
    (own : (s.mem p).ip = a) (source : sourceOf (s.mem p).buffer = some a)
    (only : ∀ q m, .send q m ∈ sent → m = (s.mem p).buffer) : Vouched s p sent := by
  intro q m b member carried
  have same := only q m member
  rw [same,source] at carried
  cases Option.some.inj carried
  exact ⟨same,own,own ▸ known⟩

theorem relayOnly (s : State) (src dst : IP4) (frame : Bytes) :
    ∀ q m, .send q m ∈ (relayToDst s src dst frame).2 → m = frame := by
  intro q m member
  unfold relayToDst at member
  split at member
  · obtain ⟨_,_,same⟩ := List.mem_map.mp member
    cases same; rfl
  · split at member
    · cases List.mem_singleton.mp member; rfl
    · contradiction

theorem vouchedAuth (env : Env) (s : State) (p : Ptr) : Vouched s p (handleAuthMsg env s p).2 := by
  simp only [handleAuthMsg]
  split
  · exact vouchedLog _ _ _ _
  split
  · exact vouchedLog _ _ _ _
  · exact vouchedNil _ _

theorem vouchedForward {s : State} {p : Ptr} (kind : byteAt (s.mem p).buffer 0 = Kind.FORWARD) :
    Vouched s p (handleForwardMsg s p).2 := by
  have plain : sourceOf (s.mem p).buffer = none := by
    simp [sourceOf,kind,Kind.FORWARD,Kind.UDP4CONN,Kind.DISCOVERY,Kind.GENERAL]
  refine vouchedKind (fun q m member => ?_) plain
  simp only [handleForwardMsg] at member
  split at member
  · simp [refuse] at member
  split at member
  · simp [refuse] at member
  split at member
  · cases List.mem_singleton.mp member; rfl
  split at member
  · obtain ⟨_,_,same⟩ := List.mem_map.mp member
    cases same; rfl
  · simp at member

theorem vouchedVMac (env : Env) (s : State) (p : Ptr) : Vouched s p (handleVMacMsg env s p).2 := by
  simp only [handleVMacMsg]
  split
  · exact vouchedLog _ _ _ _
  split
  · exact vouchedLog _ _ _ _
  · exact vouchedNil _ _

theorem vouchedConn {s : State} {p : Ptr} (kind : byteAt (s.mem p).buffer 0 = Kind.UDP4CONN) :
    Vouched s p (handleUdp4ConnMsg s p).2 := by
  simp only [handleUdp4ConnMsg]
  split
  · exact vouchedLog _ _ _ _
  rename_i known
  split
  · exact vouchedLog _ _ _ _
  split
  · exact vouchedLog _ _ _ _
  rename_i own
  split
  · exact vouchedLog _ _ _ _
  · refine vouchedOwn (by simpa using known) (not_not.mp own) (by simp [sourceOf,kind]) fun q m member => ?_
    cases List.mem_singleton.mp member; rfl

theorem vouchedDiscovery {s : State} {p : Ptr} (kind : byteAt (s.mem p).buffer 0 = Kind.DISCOVERY) :
    Vouched s p (handleDiscoveryMsg s p).2 := by
  simp only [handleDiscoveryMsg]
  split
  · exact vouchedLog _ _ _ _
  rename_i known
  split
  · exact vouchedLog _ _ _ _
  split
  · exact vouchedLog _ _ _ _
  rename_i own
  exact vouchedOwn (by simpa using known) (not_not.mp own)
    (by simp [sourceOf,kind,Kind.DISCOVERY,Kind.UDP4CONN]) (relayOnly _ _ _ _)

theorem vouchedGeneral {s : State} {p : Ptr} (kind : byteAt (s.mem p).buffer 0 = Kind.GENERAL) :
    Vouched s p (handleGeneralMsg s p).2 := by
  simp only [handleGeneralMsg]
  split
  · exact vouchedLog _ _ _ _
  rename_i known
  split
  · exact vouchedLog _ _ _ _
  split
  · exact vouchedLog _ _ _ _
  rename_i own
  exact vouchedOwn (by simpa using known) (not_not.mp own)
    (by simp [sourceOf,kind,Kind.GENERAL,Kind.DISCOVERY,Kind.UDP4CONN]) (relayOnly _ _ _ _)

theorem kindKept {m value : Bytes} {offset : Nat} (later : 0 < offset) (kind : byteAt m 0 = Kind.EXPTTUN) :
    byteAt (setField m offset value) 0 = Kind.EXPTTUN := by
  cases m with
  | nil => exact absurd kind (by decide)
  | cons first rest =>
    obtain ⟨n,rfl⟩ : ∃ n, offset = n + 1 := ⟨offset - 1,by omega⟩
    exact kind

theorem plainExptTun {m : Bytes} (kind : byteAt m 0 = Kind.EXPTTUN) : sourceOf m = none := by
  simp [sourceOf,kind,Kind.EXPTTUN,Kind.UDP4CONN,Kind.DISCOVERY,Kind.GENERAL]

theorem vouchedAnswer (env : Env) {s u : State} (p : Ptr) (a : Address) (now : BitVec 64)
    (kind : byteAt (u.mem p).buffer 0 = Kind.EXPTTUN) : Vouched s p (answerExptTun env u p a now).2 := by
  have stamped : byteAt (setField (u.mem p).buffer 1 (timestampBytes now)) 0 = Kind.EXPTTUN := kindKept (by decide) kind
  have written : byteAt (setField (setField (u.mem p).buffer 1 (timestampBytes now)) 9 (a.toCidr ++ [0])) 0 =
      Kind.EXPTTUN := kindKept (by decide) stamped
  have signed : byteAt (ExptTun.updateHash env.sha u.password
      (setField (setField (u.mem p).buffer 1 (timestampBytes now)) 9 (a.toCidr ++ [0]))) 0 = Kind.EXPTTUN :=
    kindKept (by decide) written
  refine vouchedKind (fun q m member => ?_) (plainExptTun signed)
  cases List.mem_singleton.mp member; rfl

theorem vouchedExptTun {env : Env} {s : State} {p : Ptr} {now : BitVec 64} {out : State × List Effect}
    (kind : byteAt (s.mem p).buffer 0 = Kind.EXPTTUN) (ok : handleExptTunMsg env s p now = some out) :
    Vouched s p out.2 := by
  have checked : byteAt (((s.setBuffer p (ExptTun.check env.sha s.password (s.mem p).buffer).2).mem p).buffer) 0 =
      Kind.EXPTTUN := by
    simp only [State.setBuffer,State.write,Function.update_self]
    exact kindKept (by decide) kind
  simp only [handleExptTunMsg] at ok
  split at ok
  · cases Option.some.inj ok; exact vouchedLog _ _ _ _
  split at ok
  · cases Option.some.inj ok; exact vouchedLog _ _ _ _
  split at ok
  · contradiction
  · cases Option.some.inj ok; exact vouchedLog _ _ _ _
  · cases Option.some.inj ok; exact vouchedAnswer env p _ now checked
  · cases Option.some.inj ok; exact vouchedAnswer env p _ now checked

theorem vouchedFrame {env : Env} {s : State} {p : Ptr} {now : BitVec 64} {out : State × List Effect}
    (ok : handleMsg env s p now = some out) : Vouched s p out.2 := by
  simp only [handleMsg] at ok
  split at ok
  · cases Option.some.inj ok; exact vouchedAuth _ _ _
  split at ok
  · rename_i kind; cases Option.some.inj ok; exact vouchedForward kind
  split at ok
  · rename_i kind; exact vouchedExptTun kind ok
  split at ok
  · rename_i kind; cases Option.some.inj ok; exact vouchedConn kind
  split at ok
  · cases Option.some.inj ok; exact vouchedVMac _ _ _
  split at ok
  · rename_i kind; cases Option.some.inj ok; exact vouchedDiscovery kind
  split at ok
  · rename_i kind; cases Option.some.inj ok; exact vouchedGeneral kind
  · cases Option.some.inj ok; exact vouchedNil _ _

/- The address of the last accepted login of a connection since it was opened. -/
def note (env : Env) (password : Bytes) (p : Ptr) (known : Option IP4) : Event → Option IP4
  | .opened q => if q = p then none else known
  | .received q frame _ => if q = p then (loginAddress env password frame).or known else known
  | _ => known

def lastLogin (env : Env) (password : Bytes) (p : Ptr) (events : List Event) : Option IP4 :=
  events.foldl (note env password p) none

theorem lastLoginSnoc (env : Env) (password : Bytes) (p : Ptr) (events : List Event) (e : Event) :
    lastLogin env password p (events ++ [e]) = note env password p (lastLogin env password p events) e := by
  simp [lastLogin]

structure Tracked (env : Env) (password : Bytes) (events : List Event) (s : State) : Prop where
  kept : s.password = password
  address : ∀ p, s.calls p ≠ none → (s.mem p).ip = (lastLogin env password p events).getD IP4.zero

theorem trackedQuiet {env : Env} {password : Bytes} {events : List Event} {s t : State} {e : Event}
    (tracked : Tracked env password events s) (kept : t.password = s.password)
    (plain : ∀ p, note env password p (lastLogin env password p events) e = lastLogin env password p events)
    (same : ∀ p, t.calls p ≠ none → s.calls p ≠ none ∧ (t.mem p).ip = (s.mem p).ip) :
    Tracked env password (events ++ [e]) t := by
  refine ⟨kept.trans tracked.kept,fun p open_ => ?_⟩
  obtain ⟨before,ip⟩ := same p open_
  rw [lastLoginSnoc,plain,ip]
  exact tracked.address p before

theorem enterOpen {s : State} {p q : Ptr} {stage : Option Stage} (here : s.calls p ≠ none)
    (open_ : (s.enter p stage).calls q ≠ none) : s.calls q ≠ none := by
  by_cases same : q = p
  · rw [same]; exact here
  · simpa [State.enter,same] using open_

theorem trackedStep {env : Env} {password : Bytes} {events : List Event} {s t : State} {e : Event}
    (tracked : Tracked env password events s) (stepped : step env s e t) : Tracked env password (events ++ [e]) t := by
  have kept := passwordStep stepped
  obtain ⟨sent,ok⟩ := stepped
  cases handleCases ok with
  | @opened p =>
    refine ⟨tracked.kept,fun q open_ => ?_⟩
    rw [lastLoginSnoc]
    by_cases same : q = p
    · subst same
      simp [note,State.write,State.enter,WsCtx.fresh]
    · have before : s.calls q ≠ none := by simpa [State.write,State.enter,same] using open_
      simpa [note,State.write,State.enter,same,Ne.symm same] using tracked.address q before
  | @received p frame now =>
    have spec := (receivedSpec ok).1
    refine ⟨kept.trans tracked.kept,fun q open_ => ?_⟩
    rw [lastLoginSnoc,spec.address,tracked.kept]
    by_cases same : q = p
    · subst same
      have before := tracked.address q (by rw [spec.receiving]; simp)
      simp only [note,if_true,before]
      cases loginAddress env password frame <;> rfl
    · have before : s.calls q ≠ none := by
        rw [spec.calls,Function.update_of_ne same] at open_; exact open_
      simpa [note,same,Ne.symm same] using tracked.address q before
  | registered stage entered =>
    obtain ⟨spec,_⟩ := registerSpec entered
    refine trackedQuiet tracked kept (fun _ => rfl) fun q open_ => ⟨?_,spec.address q⟩
    rw [spec.calls] at open_
    exact enterOpen (by rw [stage]; simp) open_
  | returned stage left =>
    obtain ⟨calls,mem,_,_⟩ := disconnectSpec left
    refine trackedQuiet tracked kept (fun _ => rfl) fun q open_ => ⟨?_,congrArg (fun m => (m q).ip) mem⟩
    rw [← calls]
    exact enterOpen (by rw [calls,stage]; simp) open_
  | stopped => exact trackedQuiet tracked kept (fun _ => rfl) fun q open_ => ⟨open_,rfl⟩
  | @reused p garbage free =>
    refine trackedQuiet tracked kept (fun _ => rfl) fun q open_ => ⟨open_,?_⟩
    have away : q ≠ p := by intro same; subst same; exact open_ free
    simp [State.write,away]
  | checked here | idled here =>
    exact trackedQuiet tracked kept (fun _ => rfl) fun q open_ => ⟨enterOpen (by rw [here]; simp) open_,rfl⟩
  | @hungUp p here =>
    have before : s.calls p ≠ none := by rcases here with here | here <;> (rw [here]; simp)
    exact trackedQuiet tracked kept (fun _ => rfl) fun q open_ => ⟨enterOpen before open_,rfl⟩

theorem trackedRun {env : Env} {password : Bytes} {dhcp : Address} {routes : List SysRoute} {events : List Event}
    {s : State} (run : Run (step env) (initial password dhcp routes) events s) : Tracked env password events s := by
  induction run with
  | nil => exact ⟨rfl,fun p open_ => absurd rfl open_⟩
  | snoc _ last ih => exact trackedStep ih last

theorem publishedSource (l : Published) (info : PubInfo) :
    (sendPubInfo l info).src = l.address ∧ (sendPubInfo l info).dst = info.dst := by
  unfold sendPubInfo
  split <;> exact ⟨rfl,rfl⟩

theorem publishedArrives {env : Env} {password : Bytes} {events : List Event} {s : State} {p q : Ptr}
    (tracked : Tracked env password events s) (l : Published) (info : PubInfo) (now : BitVec 64)
    (receiving : s.calls p = some .receiving) (login : lastLogin env password p events = some l.address)
    (known : l.address.empty = false) (different : info.dst ≠ l.address)
    (found : s.ipCtxMap.lookup info.dst = some q) :
    ∃ t sent, handle env s (.received p (frameOf (sendPubInfo l info)) now) = some (t,sent) ∧
      .send q (frameOf (sendPubInfo l info)) ∈ sent := by
  obtain ⟨src,dst⟩ := publishedSource l info
  have own : (s.mem p).ip = l.address := by
    rw [tracked.address p (by rw [receiving]; simp),login]; rfl
  apply frameRouted receiving
  · rw [src]; exact own
  · rw [src]; exact known
  · rw [src,dst]; exact different
  · rw [dst]; exact found

theorem pushPlain {s : State} {p q : Ptr} {frame : Bytes} (member : .send q frame ∈ (updateSysRoute s p).2) :
    sourceOf frame = none := by
  obtain ⟨batches,frames,_,_⟩ := RoutePush.batchSpec (s.mem p).ip s.routes [] (by simp)
  have sent : (updateSysRoute s p).2 = (batches.map RoutePush.batchFrame).map (.send p) :=
    congrArg (List.map (Effect.send p)) frames
  rw [sent] at member
  obtain ⟨one,inside,same⟩ := List.mem_map.mp member
  obtain ⟨batch,_,rfl⟩ := List.mem_map.mp inside
  cases same
  rfl

theorem registerPlain {s : State} {p q : Ptr} {ip : IP4} {frame : Bytes} (member : .send q frame ∈ (register s p ip).2) :
    sourceOf frame = none := by
  cases found : s.ipCtxMap.lookup ip with
  | none =>
    simp only [register,found] at member
    rcases List.mem_cons.mp member with line | pushed
    · contradiction
    · exact pushPlain pushed
  | some old =>
    simp only [register,found] at member
    rcases List.mem_cons.mp member with line | pushed
    · contradiction
    · exact pushPlain pushed

theorem sourceVouched {env : Env} {password : Bytes} {events : List Event} {s t : State} {e : Event}
    {sent : List Effect} (tracked : Tracked env password events s) (ok : handle env s e = some (t,sent)) {q : Ptr}
    {frame : Bytes} {a : IP4} (member : .send q frame ∈ sent) (source : sourceOf frame = some a) :
    ∃ p now, e = .received p frame now ∧ lastLogin env password p events = some a := by
  cases handleCases ok with
  | @received p data now _ receiving _ _ served =>
    obtain ⟨same,own,known⟩ := vouchedFrame served q frame a member source
    have content : frame = data := by simpa [State.setBuffer,State.write,State.enter] using same
    have address : (s.mem p).ip = a := by simpa [State.setBuffer,State.write,State.enter] using own
    subst content
    refine ⟨p,now,rfl,?_⟩
    have login := tracked.address p (by rw [receiving]; simp)
    rw [address] at login
    cases noted : lastLogin env password p events with
    | some b => rw [noted] at login; exact congrArg some login.symm
    | none =>
      rw [noted] at login
      rw [login] at known
      exact absurd known (by decide)
  | @registered p ip _ _ entered =>
    have pushed : .send q frame ∈ (register s p ip).2 := entered ▸ member
    exact absurd source (by rw [registerPlain pushed]; simp)
  | returned _ left => exact absurd member ((disconnectSpec left).2.2.1 q frame)
  | opened | checked | idled | hungUp | reused | stopped => simp at member

theorem signallingSound (env : Env) (password : Bytes) (dhcp : Address) (routes : List SysRoute)
    (events : List Event) (s : State) (run : Run (step env) (initial password dhcp routes) events s) :
    (∀ l info p q now, s.calls p = some .receiving → lastLogin env password p events = some l.address →
      l.address.empty = false → info.dst ≠ l.address → s.ipCtxMap.lookup info.dst = some q →
      ∃ frame t sent, WsClient.handlePubInfo (sendPubInfo l info) = [.sendFrame frame] ∧
        handle env s (.received p frame now) = some (t,sent) ∧ .send q frame ∈ sent ∧
        ∀ far b later, WsClient.handleWsMsg far b frame later =
          some (b,[.write .peer (.pubInfo (sendPubInfo l info))])) ∧
    ∀ e t sent, handle env s e = some (t,sent) → ∀ q frame a, .send q frame ∈ sent → sourceOf frame = some a →
      ∃ p now, e = .received p frame now ∧ lastLogin env password p events = some a := by
  have tracked := trackedRun run
  refine ⟨fun l info p q now receiving login known different found => ?_,
    fun e t sent ok q frame a member source => sourceVouched tracked ok member source⟩
  obtain ⟨t,sent,handled,member⟩ := publishedArrives tracked l info now receiving login known different found
  exact ⟨_,t,sent,frameSent _,handled,member,fun far b later => frameDecoded far b _ later⟩

/- Hosts 1 and 2 are logged in; host 1 publishes its public address to host 2. -/
def bothIn : List Event :=
  ([.opened 0,.opened 1] : List Event) ++ login 0 1 ++ login 1 2 ++ ([.checked 0] : List Event)

def publishing : Published := ⟨host 1,⟨192,168,0,7⟩,4000,⟨8,8,8,8⟩,5000⟩

theorem bothInSound : ∃ s frame t sent, Run (step threeHosts) (initial [] noNetwork []) bothIn s ∧
    handle threeHosts s (.received 0 frame 0) = some (t,sent) ∧ .send 1 frame ∈ sent ∧
    ∀ far b later, WsClient.handleWsMsg far b frame later =
      some (b,[.write .peer (.pubInfo ⟨host 1,host 2,⟨8,8,8,8⟩,5000,false⟩)]) := by
  have outcome : (execute (advance threeHosts) (initial [] noNetwork []) bothIn).map (fun s =>
      (s.calls 0,lastLogin threeHosts [] 0 bothIn,s.ipCtxMap.lookup (host 2))) =
      some (some .receiving,some (host 1),some 1) := by decide +kernel
  obtain ⟨s,ok,same⟩ := Option.map_eq_some_iff.mp outcome
  obtain ⟨receiving,login,found⟩ : s.calls 0 = some .receiving ∧ lastLogin threeHosts [] 0 bothIn = some (host 1) ∧
      s.ipCtxMap.lookup (host 2) = some 1 := by simpa using same
  have run : Run (step threeHosts) (initial [] noNetwork []) bothIn s := executeRun (fun _ _ _ => advanceStep) ok
  obtain ⟨frame,t,sent,_,handled,member,decoded⟩ := (signallingSound threeHosts [] noNetwork [] bothIn s run).1
    publishing ⟨IP4.zero,host 2,IP4.zero,0,false⟩ 0 1 0 receiving login (by decide) (by decide) found
  exact ⟨s,frame,t,sent,run,handled,member,decoded⟩

end Candy.Signalling
