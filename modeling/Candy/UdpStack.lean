import Candy.UdpMux

/-! The NetStack thread with converged UDP: its session table, the mux it creates
with the first session, and the periodic pair of reapers. lwIP keeps one pcb for a
source from its first datagram until udp_remove, so a datagram meets onUdpRecv only
when its source has no session. What ties the two tables together is time: a
session is active no earlier than any entry that names it, and lives longer. -/
namespace Candy.NetStack
open Runs
open Udp (seconds UdpMux Effect OwnerEntry TxnEntry)

structure SessionUdp where
  origSrc : IP4
  origSrcPort : BitVec 16
  lastActiveTs : Int
  deriving DecidableEq, Repr

/- The two fields as they lie in memory, the port in host order. -/
def sessionKey (origSrc : IP4) (origSrcPort : BitVec 16) : Bytes :=
  WsMsg.ip4Bytes origSrc ++ [origSrcPort.extractLsb' 0 8,origSrcPort.extractLsb' 8 8]

structure State where
  udpSessions : Table Bytes SessionUdp
  udpMux : Option UdpMux
  lastReap : Int
  clock : Int

def State.start (now : Int) : State := ⟨∅,none,now,now⟩

def sendUdpConverged (n : State) (now : Int) (innerSrc : Bytes) (dstIpBe : BitVec 32)
    (dstPortHost : BitVec 16) (data : Bytes) : State × List Effect :=
  match n.udpMux with
  | none => (n,[])
  | some m =>
    let (m,effects) := m.sendFromSource now innerSrc dstIpBe dstPortHost data
    ({n with udpMux := some m},effects)

def refresh (n : State) (now : Int) (key : Bytes) (s : SessionUdp) : State :=
  {n with udpSessions := n.udpSessions.insert key {s with lastActiveTs := now}}

def onPcbRecv (n : State) (now : Int) (key : Bytes) (s : SessionUdp) (dstIpBe : BitVec 32)
    (dstPortHost : BitVec 16) (data : Bytes) : State × List Effect :=
  sendUdpConverged (refresh n now key s) now key dstIpBe dstPortHost data

/- The first datagram of a source. No session is kept when the stack is stopping
or the mux cannot open its socket; lwIP then drops the datagram. -/
def onUdpRecv (n : State) (now : Int) (running muxStarts : Bool) (origSrc : IP4)
    (origSrcPort : BitVec 16) : State × Option SessionUdp :=
  if !running then (n,none)
  else if n.udpMux.isNone && !muxStarts then (n,none)
  else
    let session := ⟨origSrc,origSrcPort,now⟩
    ({n with
      udpMux := some (n.udpMux.getD UdpMux.fresh)
      udpSessions := n.udpSessions.insert (sessionKey origSrc origSrcPort) session},some session)

def datagram (n : State) (now : Int) (running muxStarts : Bool) (origSrc : IP4) (origSrcPort : BitVec 16)
    (dstIpBe : BitVec 32) (dstPortHost : BitVec 16) (data : Bytes) : State × List Effect :=
  let key := sessionKey origSrc origSrcPort
  match n.udpSessions.lookup key with
  | some s => onPcbRecv n now key s dstIpBe dstPortHost data
  | none => match onUdpRecv n now running muxStarts origSrc origSrcPort with
    | (n,some s) => onPcbRecv n now key s dstIpBe dstPortHost data
    | (n,none) => (n,[])

/- injectUdpReply and, behind it, replyToLwip. A session in the table has its pcb. -/
def injectUdpReply (n : State) (now : Int) : Effect → State
  | .injectUdpReply innerSrc _ _ _ => match n.udpSessions.lookup innerSrc with
    | none => n
    | some s => refresh n now innerSrc s
  | _ => n

def reply (n : State) (now : Int) (rIpBe : BitVec 32) (rPortHost : BitVec 16) (data : Bytes) :
    State × List Effect :=
  match n.udpMux with
  | none => (n,[])
  | some m =>
    let (m,effects) := m.demux now rIpBe rPortHost data
    (effects.foldl (fun n e => injectUdpReply n now e) {n with udpMux := some m},effects)

def kSessionIdle : Int := seconds 60
def reapInterval : Int := seconds 10

def reapIdleUdpSessions (n : State) (now : Int) : State :=
  {n with udpSessions := n.udpSessions.keep (fun _ s => !(now - s.lastActiveTs > kSessionIdle))}

def reapMux (n : State) (now : Int) : State :=
  {n with udpMux := n.udpMux.map (fun m => (m.reap now).1)}

/- `other` is every task that touches neither table, `none` an idle turn. -/
inductive Task where
  | datagram (running muxStarts : Bool) (origSrc : IP4) (origSrcPort : BitVec 16)
      (dstIpBe : BitVec 32) (dstPortHost : BitVec 16) (data : Bytes)
  | reply (rIpBe : BitVec 32) (rPortHost : BitVec 16) (data : Bytes)
  | other
  deriving DecidableEq, Repr

def perform (n : State) (now : Int) : Task → State
  | .datagram running muxStarts src port dstIp dstPort data =>
    (datagram n now running muxStarts src port dstIp dstPort data).1
  | .reply rIp rPort data => (reply n now rIp rPort data).1
  | .other => n

/- One turn of the loop, with the clock as its task, its check and the two
reapers read it. -/
structure Turn where
  task : Option Task
  start : Int
  check : Int
  sessions : Int
  mux : Int
  deriving DecidableEq, Repr

def runTask (n : State) (i : Turn) : State :=
  match i.task with
  | some task => perform {n with clock := i.start} i.start task
  | none => {n with clock := i.start}

def turn (n : State) (i : Turn) : State :=
  let n := runTask n i
  if i.check - n.lastReap ≥ reapInterval then
    {reapMux (reapIdleUdpSessions n i.sessions) i.mux with lastReap := i.check, clock := i.mux}
  else {n with clock := i.mux}

def step (n : State) (i : Turn) (n' : State) : Prop :=
  n.clock ≤ i.start ∧ i.start ≤ i.check ∧ i.check ≤ i.sessions ∧ i.sessions ≤ i.mux ∧ n' = turn n i

def Live (n : State) (src : Bytes) : Prop := ∃ s, n.udpSessions.lookup src = some s

def Unlocked (n : State) : Prop := ∀ m, n.udpMux = some m →
  (∀ k e, m.endpointOwner.lookup k = some e → Live n e.owner) ∧
  ∀ txid e, m.stunTxn.lookup txid = some e → Live n e.innerSrc

/- The session behind an entry was active no earlier than the entry. -/
def Backed (n : State) (src : Bytes) (t : Int) : Prop :=
  ∃ s, n.udpSessions.lookup src = some s ∧ t ≤ s.lastActiveTs

structure Timed (n : State) : Prop where
  past : ∀ key s, n.udpSessions.lookup key = some s → s.lastActiveTs ≤ n.clock
  owners : ∀ m, n.udpMux = some m → ∀ k e, m.endpointOwner.lookup k = some e → Backed n e.owner e.lastActive
  txns : ∀ m, n.udpMux = some m → ∀ txid e, m.stunTxn.lookup txid = some e → Backed n e.innerSrc e.createdAt

theorem Timed.unlocked {n : State} (timed : Timed n) : Unlocked n := by
  intro m here
  refine ⟨fun k e found => ?_,fun txid e found => ?_⟩
  · obtain ⟨s,live,_⟩ := timed.owners m here k e found
    exact ⟨s,live⟩
  · obtain ⟨s,live,_⟩ := timed.txns m here txid e found
    exact ⟨s,live⟩

section
variable {n : State} {now : Int} {key : Bytes} {s : SessionUdp}

theorem refreshLookup (other : Bytes) : (refresh n now key s).udpSessions.lookup other =
    if other = key then some {s with lastActiveTs := now} else n.udpSessions.lookup other :=
  Table.lookupInsert ..

theorem refreshBacked (past : ∀ key s, n.udpSessions.lookup key = some s → s.lastActiveTs ≤ now)
    {src : Bytes} {t : Int} (backed : Backed n src t) : Backed (refresh n now key s) src t := by
  obtain ⟨old,found,before⟩ := backed
  by_cases same : src = key
  · exact ⟨_,by rw [refreshLookup,if_pos same],le_trans before (past src old found)⟩
  · exact ⟨old,by rw [refreshLookup,if_neg same]; exact found,before⟩

theorem refreshNow : Backed (refresh n now key s) key now :=
  ⟨_,by rw [refreshLookup,if_pos rfl],le_refl _⟩

theorem refreshPast (past : ∀ key s, n.udpSessions.lookup key = some s → s.lastActiveTs ≤ now) :
    ∀ other s', (refresh n now key s).udpSessions.lookup other = some s' → s'.lastActiveTs ≤ now := by
  intro other s' found
  rw [refreshLookup] at found
  split at found
  · cases Option.some.inj found; exact le_refl _
  · exact past other s' found

end

theorem Timed.moved {n : State} {now : Int} (timed : Timed n) (later : n.clock ≤ now) :
    Timed {n with clock := now} :=
  ⟨fun key s found => le_trans (timed.past key s found) later,timed.owners,timed.txns⟩

theorem timedRefresh {n : State} {key : Bytes} {s : SessionUdp} (timed : Timed n) :
    Timed (refresh n n.clock key s) :=
  ⟨refreshPast timed.past,fun m here k e found => refreshBacked timed.past (timed.owners m here k e found),
    fun m here txid e found => refreshBacked timed.past (timed.txns m here txid e found)⟩

theorem timedSend {n : State} {src : Bytes} {ip : BitVec 32} {port : BitVec 16} {data : Bytes} (timed : Timed n)
    (active : Backed n src n.clock) : Timed (sendUdpConverged n n.clock src ip port data).1 := by
  unfold sendUdpConverged
  split
  · exact timed
  · rename_i m here
    have spec : Udp.Sent m n.clock src ip port data (m.sendFromSource n.clock src ip port data) := Udp.sendSpec
    refine ⟨timed.past,fun m' same k e found => ?_,fun m' same txid e found => ?_⟩
    · cases Option.some.inj same
      rcases spec.owners k e found with before | ⟨_,rfl⟩
      · exact timed.owners m here k e before
      · exact active
    · cases Option.some.inj same
      rcases spec.txns txid e found with ⟨before,_⟩ | ⟨_,rfl⟩
      · exact timed.txns m here txid e before
      · exact active

theorem timedPcbRecv {n : State} {key : Bytes} {s : SessionUdp} {ip port data} (timed : Timed n) :
    Timed (onPcbRecv n n.clock key s ip port data).1 :=
  timedSend (timedRefresh timed) refreshNow

theorem timedUdpRecv {n : State} {running muxStarts : Bool} {src : IP4} {port : BitVec 16} (timed : Timed n) :
    Timed (onUdpRecv n n.clock running muxStarts src port).1 ∧
    (onUdpRecv n n.clock running muxStarts src port).1.clock = n.clock := by
  unfold onUdpRecv
  split
  · exact ⟨timed,rfl⟩
  split
  · exact ⟨timed,rfl⟩
  have fresh : Timed (refresh n n.clock (sessionKey src port) ⟨src,port,n.clock⟩) := timedRefresh timed
  refine ⟨⟨fresh.past,fun m same k e found => ?_,fun m same txid e found => ?_⟩,rfl⟩
  · cases Option.some.inj same
    cases here : n.udpMux with
    | none => simp [here,UdpMux.fresh] at found
    | some m => exact fresh.owners m here k e (by simpa [here] using found)
  · cases Option.some.inj same
    cases here : n.udpMux with
    | none => simp [here,UdpMux.fresh] at found
    | some m => exact fresh.txns m here txid e (by simpa [here] using found)

theorem timedDatagram {n : State} {running muxStarts src port dstIp dstPort data} (timed : Timed n) :
    Timed (datagram n n.clock running muxStarts src port dstIp dstPort data).1 := by
  unfold datagram
  simp only
  split
  · exact timedPcbRecv timed
  · have opened := @timedUdpRecv n running muxStarts src port timed
    split
    · rename_i n' s first
      rw [first] at opened
      rw [← opened.2]
      exact timedPcbRecv opened.1
    · rename_i n' first
      rw [first] at opened
      exact opened.1

theorem injectLogs {now : Int} {effects : List Effect} (logs : ∀ e ∈ effects, ∃ text, e = .log text) (n : State) :
    effects.foldl (fun n e => injectUdpReply n now e) n = n := by
  induction effects with
  | nil => rfl
  | cons e rest ih =>
    obtain ⟨text,rfl⟩ := logs e (by simp)
    exact ih fun e member => logs e (by simp [member])

/- The reply path: an entry is refreshed only together with the session that gets
the datagram, and every entry has one. -/
theorem timedReply {n : State} {ip port data} (timed : Timed n) : Timed (reply n n.clock ip port data).1 := by
  unfold reply
  split
  · exact timed
  rename_i m here
  have spec : Udp.Demuxed m n.clock ip port data (m.demux n.clock ip port data) := Udp.demuxSpec
  rcases result : m.demux n.clock ip port data with ⟨m',effects⟩
  rw [result] at spec
  -- the mux first, then the session it names
  have stored : (∀ src, effects ≠ [.injectUdpReply src ip port data]) → Timed {n with udpMux := some m'} := by
    intro nobody
    refine ⟨timed.past,fun m₂ same k e found => ?_,fun m₂ same txid e found => ?_⟩
    · cases Option.some.inj same
      rcases spec.owners k e found with before | ⟨_,named,_⟩
      · exact timed.owners m here k e before
      · exact absurd named (nobody e.owner)
    · cases Option.some.inj same
      exact timed.txns m here txid e (spec.txns txid e found)
  rcases spec.shape with ⟨src,single⟩ | logs
  · change effects = _ at single
    subst single
    change Timed (injectUdpReply {n with udpMux := some m'} n.clock (.injectUdpReply src ip port data))
    simp only [injectUdpReply]
    split
    · rename_i absent
      refine ⟨timed.past,fun m₂ same k e found => ?_,fun m₂ same txid e found => ?_⟩
      · cases Option.some.inj same
        rcases spec.owners k e found with before | ⟨_,named,e',before,owner⟩
        · exact timed.owners m here k e before
        · obtain ⟨s,live,_⟩ := timed.owners m here k e' before
          cases named
          rw [owner,absent] at live
          contradiction
      · cases Option.some.inj same
        exact timed.txns m here txid e (spec.txns txid e found)
    · rename_i s live
      refine ⟨refreshPast timed.past,fun m₂ same k e found => ?_,fun m₂ same txid e found => ?_⟩
      · cases Option.some.inj same
        rcases spec.owners k e found with before | ⟨recent,named,_⟩
        · exact refreshBacked (n := n) timed.past (timed.owners m here k e before)
        · cases named
          rw [recent]
          exact refreshNow (n := n)
      · cases Option.some.inj same
        exact refreshBacked (n := n) timed.past (timed.txns m here txid e (spec.txns txid e found))
  · change Timed (List.foldl _ _ effects)
    rw [injectLogs logs]
    refine stored fun src single => ?_
    obtain ⟨_,same⟩ := logs (.injectUdpReply src ip port data) (by rw [single]; simp)
    contradiction

theorem timedPerform {n : State} (timed : Timed n) (task : Task) : Timed (perform n n.clock task) := by
  cases task with
  | datagram => exact timedDatagram timed
  | reply => exact timedReply timed
  | other => exact timed

theorem performClock (n : State) (now : Int) (task : Task) : (perform n now task).clock = n.clock := by
  have injectClock (e : Effect) (n : State) : (injectUdpReply n now e).clock = n.clock := by
    cases e with
    | injectUdpReply => simp only [injectUdpReply]; split <;> rfl
    | transmit | log => rfl
  have foldClock (effects : List Effect) (n : State) :
      (effects.foldl (fun n e => injectUdpReply n now e) n).clock = n.clock := by
    induction effects generalizing n with
    | nil => rfl
    | cons e rest ih => exact (ih _).trans (injectClock e n)
  have sendClock (n : State) (src ip port data) : (sendUdpConverged n now src ip port data).1.clock = n.clock := by
    unfold sendUdpConverged; split <;> rfl
  cases task with
  | other => rfl
  | reply ip port data =>
    simp only [perform,reply]
    split
    · rfl
    · exact foldClock _ _
  | datagram running muxStarts src port dstIp dstPort data =>
    simp only [perform,datagram,onPcbRecv,onUdpRecv]
    split
    · exact sendClock _ _ _ _ _
    · split
      · rename_i opened
        rw [sendClock]
        split at opened
        · cases opened
        split at opened
        · cases opened
        · cases opened; rfl
      · rename_i refused
        split at refused
        · cases refused; rfl
        split at refused
        · cases refused; rfl
        · cases refused

/- The two reapers together: an entry that survives its own timeout kept its
session active, and that session's timeout is longer. -/
theorem timedReaps {n : State} {sessions mux lastReap : Int} (timed : Timed n) (ordered : n.clock ≤ sessions)
    (later : sessions ≤ mux) :
    Timed {reapMux (reapIdleUdpSessions n sessions) mux with lastReap := lastReap, clock := mux} := by
  have survives (src : Bytes) (t idle : Int) (short : idle ≤ kSessionIdle) (backed : Backed n src t)
      (young : ¬ mux - t > idle) : Backed (reapIdleUdpSessions n sessions) src t := by
    obtain ⟨s,live,before⟩ := backed
    refine ⟨s,Table.keepSome.mpr ⟨live,?_⟩,before⟩
    have active : ¬ sessions - s.lastActiveTs > kSessionIdle := by omega
    simp [active]
  refine ⟨fun key s found => ?_,fun m same k e found => ?_,fun m same txid e found => ?_⟩
  · exact le_trans (timed.past key s (Table.keepSome.mp found).1) (le_trans ordered later)
  · obtain ⟨old,here,reaped⟩ := Option.map_eq_some_iff.mp same
    cases reaped
    obtain ⟨before,young⟩ := ((Udp.reapSpec old mux).1 k e).mp found
    exact survives e.owner e.lastActive Udp.kEndpointIdle (by decide) (timed.owners old here k e before) young
  · obtain ⟨old,here,reaped⟩ := Option.map_eq_some_iff.mp same
    cases reaped
    obtain ⟨before,young⟩ := ((Udp.reapSpec old mux).2.1 txid e).mp found
    exact survives e.innerSrc e.createdAt Udp.kStunTxnIdle (by decide) (timed.txns old here txid e before) young

theorem timedStep {n n' : State} {i : Turn} (timed : Timed n) (stepped : step n i n') : Timed n' := by
  obtain ⟨later,started,checked,reaped,rfl⟩ := stepped
  have moved : Timed {n with clock := i.start} := timed.moved later
  have done : Timed (runTask n i) ∧ (runTask n i).clock = i.start := by
    unfold runTask
    split
    · exact ⟨timedPerform moved _,performClock _ _ _⟩
    · exact ⟨moved,rfl⟩
  unfold turn
  simp only
  split
  · exact timedReaps done.1 (by rw [done.2]; omega) reaped
  · exact done.1.moved (by rw [done.2]; omega)

theorem startTimed (now : Int) : Timed (State.start now) :=
  ⟨fun key s found => by simp [State.start] at found,fun m same => by simp [State.start] at same,
    fun m same => by simp [State.start] at same⟩

theorem noDeadOwner (now : Int) (turns : List Turn) (n : State) (run : Run step (State.start now) turns n) :
    Unlocked n :=
  Timed.unlocked (run.invariant (startTimed now) fun _ _ _ timed stepped => timedStep timed stepped)

/- A source sends once and falls silent; 70 s later both reapers have run. -/
def silence : List Turn :=
  [⟨some (.datagram true true ⟨10,0,0,1⟩ 53 7 9 [0xff]),0,0,0,0⟩,⟨none,seconds 70,seconds 70,seconds 70,seconds 70⟩]

theorem silenceUnlocked : ∃ n, Run step (State.start 0) silence n ∧ Unlocked n ∧
    n.udpSessions.lookup (sessionKey ⟨10,0,0,1⟩ 53) = none := by
  have run : Run step (State.start 0) silence _ :=
    .snoc (.snoc .nil ⟨by decide,by decide,by decide,by decide,rfl⟩) ⟨by decide,by decide,by decide,by decide,rfl⟩
  exact ⟨_,run,noDeadOwner 0 silence _ run,by decide⟩

end Candy.NetStack
