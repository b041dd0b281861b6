import Candy.Runs
import Candy.Table
import Candy.WsMessage
import Mathlib.Data.Finset.Insert

/-! UDP convergence of src/netstack: one socket for every inner source, and four
tables that bring replies back. A transmission is the task step 3 posts to the
reactor, an injection the call of injectUdpReply. Times are the nanoseconds of the
steady clock. Routing follows the history: who sent data to an endpoint last, and
who asked last under a transaction id. -/
namespace Candy.Udp
open WsMsg (byteAt field)
open Runs

inductive StunClass where
  | Request
  | Indication
  | SuccessResp
  | ErrorResp
  deriving DecidableEq, Repr

structure StunInfo where
  klass : StunClass
  txid : Bytes
  deriving DecidableEq, Repr

def kStunMagicCookie : BitVec 32 := 0x2112A442

def klassOf (c1 c0 : Bool) : StunClass :=
  match c1,c0 with
  | false,false => .Request
  | false,true => .Indication
  | true,false => .SuccessResp
  | true,true => .ErrorResp

def stunParse (b : Bytes) : Option StunInfo :=
  if b.length < 20 then none
  else if byteAt b 0 &&& 0xC0 ≠ 0 then none
  else if byteAt b 4 ++ byteAt b 5 ++ byteAt b 6 ++ byteAt b 7 ≠ kStunMagicCookie then none
  else
    let msgLen := byteAt b 2 ++ byteAt b 3
    if msgLen &&& 3 ≠ 0 then none
    else if msgLen.toNat + 20 ≠ b.length then none
    else
      let type := byteAt b 0 ++ byteAt b 1
      some ⟨klassOf (type.getLsbD 8) (type.getLsbD 4),field b 8 12⟩

def seconds (n : Int) : Int := n * 1000000000

def kEndpointIdle : Int := seconds 30
def kStunTxnIdle : Int := seconds 40
def kDropWarnInterval : Int := seconds 1

structure OwnerEntry where
  owner : Bytes
  lastActive : Int
  deriving DecidableEq, Repr

structure TxnEntry where
  innerSrc : Bytes
  createdAt : Int
  deriving DecidableEq, Repr

abbrev Key := BitVec 64

def endpointKey (ipBe : BitVec 32) (portHost : BitVec 16) : Key :=
  (ipBe.setWidth 64 <<< 16) ||| portHost.setWidth 64

structure UdpMux where
  endpointOwner : Table Key OwnerEntry
  stunTxn : Table Bytes TxnEntry
  ownerEndpoints : Table Bytes (Finset Key)
  dropCollision : BitVec 64
  dropTxidMiss : BitVec 64
  dropEndpointMiss : BitVec 64
  lastLoggedDrops : BitVec 64
  lastDropWarn : Int

def UdpMux.fresh : UdpMux := ⟨∅,∅,∅,0,0,0,0,0⟩

inductive Effect where
  | transmit (dstIpBe : BitVec 32) (dstPortHost : BitVec 16) (data : Bytes)
  | injectUdpReply (innerSrc : Bytes) (rIpBe : BitVec 32) (rPortHost : BitVec 16) (data : Bytes)
  | log (text : String)
  deriving DecidableEq, Repr

namespace UdpMux

/- it->second.lastActive = now for a found endpoint. -/
def touch (m : UdpMux) (k : Key) (e : OwnerEntry) (now : Int) : UdpMux :=
  {m with endpointOwner := m.endpointOwner.insert k {e with lastActive := now}}

def sendFromSource (m : UdpMux) (now : Int) (innerSrc : Bytes) (dstIpBe : BitVec 32)
    (dstPortHost : BitVec 16) (data : Bytes) : UdpMux × List Effect :=
  let k := endpointKey dstIpBe dstPortHost
  let sent := [Effect.transmit dstIpBe dstPortHost data]
  match stunParse data with
  | some info =>
    let m := if info.klass = .Request then
      {m with stunTxn := m.stunTxn.insert info.txid ⟨innerSrc,now⟩} else m
    match m.endpointOwner.lookup k with
    | some e => if e.owner = innerSrc then (m.touch k e now,sent) else (m,sent)
    | none => (m,sent)
  | none => match m.endpointOwner.lookup k with
    | none => ({m with
        endpointOwner := m.endpointOwner.insert k ⟨innerSrc,now⟩
        ownerEndpoints := m.ownerEndpoints.insert innerSrc
          (insert k ((m.ownerEndpoints.lookup innerSrc).getD ∅))},sent)
    | some e =>
      if e.owner ≠ innerSrc then ({m with dropCollision := m.dropCollision + 1},
        [.log "udpmux drop(collision): dst=%08x:%hu owned by other source, dropping later source's packet"])
      else (m.touch k e now,sent)

def onSourceGone (m : UdpMux) (innerSrc : Bytes) : UdpMux :=
  match m.ownerEndpoints.lookup innerSrc with
  | none => m
  | some endpoints => {m with
      endpointOwner := m.endpointOwner.keep (fun k e => !(k ∈ endpoints && e.owner == innerSrc))
      ownerEndpoints := m.ownerEndpoints.erase innerSrc}

def warnDrop (m : UdpMux) (now : Int) : UdpMux × List Effect :=
  if now - m.lastDropWarn < kDropWarnInterval then (m,[])
  else ({m with lastDropWarn := now},
    [.log "udpmux drop(%s): peer=%08x:%hu totals(collision=%s txidMiss=%s endpointMiss=%s)"])

def unindex (index : Table Bytes (Finset Key)) (owner : Bytes) (k : Key) : Table Bytes (Finset Key) :=
  match index.lookup owner with
  | none => index
  | some endpoints => if endpoints.erase k = ∅ then index.erase owner
    else index.insert owner (endpoints.erase k)

def reap (m : UdpMux) (now : Int) : UdpMux × List Effect :=
  let idle (e : OwnerEntry) : Bool := now - e.lastActive > kEndpointIdle
  let gone := m.endpointOwner.entries.filter (fun e => idle e.2)
  let m : UdpMux := {m with
    ownerEndpoints := gone.foldl (fun index e => unindex index e.2.owner e.1) m.ownerEndpoints
    endpointOwner := m.endpointOwner.keep (fun _ e => !idle e)
    stunTxn := m.stunTxn.keep (fun _ e => !(now - e.createdAt > kStunTxnIdle))}
  let total := m.dropCollision + m.dropTxidMiss + m.dropEndpointMiss
  if total ≠ m.lastLoggedDrops then ({m with lastLoggedDrops := total},
    [.log "udpmux stats: endpoints=%s txns=%s drops(collision=%s txidMiss=%s endpointMiss=%s)"])
  else (m,[])

def missEndpoint (m : UdpMux) (now : Int) : UdpMux × List Effect :=
  warnDrop {m with dropEndpointMiss := m.dropEndpointMiss + 1} now

/- The endpoint's owner gets what the endpoint sends: data, and the checks of a
peer that asks on its own. -/
def demuxByEndpoint (m : UdpMux) (now : Int) (rIpBe : BitVec 32) (rPortHost : BitVec 16)
    (data : Bytes) : UdpMux × List Effect :=
  let k := endpointKey rIpBe rPortHost
  match m.endpointOwner.lookup k with
  | some e => (m.touch k e now,[.injectUdpReply e.owner rIpBe rPortHost data])
  | none => m.missEndpoint now

def demux (m : UdpMux) (now : Int) (rIpBe : BitVec 32) (rPortHost : BitVec 16)
    (data : Bytes) : UdpMux × List Effect :=
  match stunParse data with
  | some info =>
    if info.klass = .SuccessResp ∨ info.klass = .ErrorResp then
      match m.stunTxn.lookup info.txid with
      | some txn => ({m with stunTxn := m.stunTxn.erase info.txid},
          [.injectUdpReply txn.innerSrc rIpBe rPortHost data])
      | none => warnDrop {m with dropTxidMiss := m.dropTxidMiss + 1} now
    else m.demuxByEndpoint now rIpBe rPortHost data
  | none => m.demuxByEndpoint now rIpBe rPortHost data

end UdpMux

inductive Op where
  | sendFromSource (now : Int) (innerSrc : Bytes) (dstIpBe : BitVec 32) (dstPortHost : BitVec 16) (data : Bytes)
  | demux (now : Int) (rIpBe : BitVec 32) (rPortHost : BitVec 16) (data : Bytes)
  | reap (now : Int)
  | onSourceGone (innerSrc : Bytes)
  deriving DecidableEq, Repr

def apply (m : UdpMux) : Op → UdpMux × List Effect
  | .sendFromSource now innerSrc ip port data => m.sendFromSource now innerSrc ip port data
  | .demux now ip port data => m.demux now ip port data
  | .reap now => m.reap now
  | .onSourceGone innerSrc => (m.onSourceGone innerSrc,[])

/- A run keeps everything that happened, oldest first. -/
structure Record where
  op : Op
  effects : List Effect
  deriving DecidableEq, Repr

structure History where
  mux : UdpMux
  log : List Record

def History.next (s : History) (op : Op) : History :=
  ⟨(apply s.mux op).1,s.log ++ [⟨op,(apply s.mux op).2⟩]⟩

def step (s : History) (op : Op) (t : History) : Prop := t = s.next op

def History.start : History := ⟨UdpMux.fresh,[]⟩

def dataTo (ip : BitVec 32) (port : BitVec 16) (r : Record) : Option Bytes :=
  match r.op with
  | .sendFromSource _ innerSrc dstIp dstPort data =>
    if stunParse data = none ∧ dstIp = ip ∧ dstPort = port ∧ .transmit ip port data ∈ r.effects then
      some innerSrc else none
  | _ => none

def requestOf (txid : Bytes) (r : Record) : Option Bytes :=
  match r.op with
  | .sendFromSource _ innerSrc dstIp dstPort data =>
    if stunParse data = some ⟨.Request,txid⟩ ∧ .transmit dstIp dstPort data ∈ r.effects then
      some innerSrc else none
  | _ => none

def isResponse (data : Bytes) (txid : Bytes) : Prop :=
  stunParse data = some ⟨.SuccessResp,txid⟩ ∨ stunParse data = some ⟨.ErrorResp,txid⟩

def Answered (txid : Bytes) (r : Record) : Prop :=
  ∃ s ip port data, .injectUdpReply s ip port data ∈ r.effects ∧ isResponse data txid

def SentLast (log : List Record) (ip : BitVec 32) (port : BitVec 16) (s : Bytes) : Prop :=
  ∃ earlier r later, log = earlier ++ r::later ∧ dataTo ip port r = some s ∧
    ∀ r' ∈ later, ∀ s', dataTo ip port r' = some s' → s' = s

def AskedLast (log : List Record) (txid s : Bytes) : Prop :=
  ∃ earlier r later, log = earlier ++ r::later ∧ requestOf txid r = some s ∧
    ∀ r' ∈ later, requestOf txid r' = none ∧ ¬ Answered txid r'

theorem endpointKeyParts (ip : BitVec 32) (port : BitVec 16) :
    (endpointKey ip port).extractLsb' 16 32 = ip ∧ (endpointKey ip port).extractLsb' 0 16 = port := by
  constructor
  · ext i bound
    simp only [endpointKey,BitVec.getElem_extractLsb',BitVec.getLsbD_or,BitVec.getLsbD_shiftLeft,
      BitVec.getLsbD_setWidth]
    grind
  · ext i bound
    simp only [endpointKey,BitVec.getElem_extractLsb',BitVec.getLsbD_or,BitVec.getLsbD_shiftLeft,
      BitVec.getLsbD_setWidth]
    grind

theorem endpointKeyInjective {ip ip' : BitVec 32} {port port' : BitVec 16}
    (same : endpointKey ip port = endpointKey ip' port') : ip = ip' ∧ port = port' := by
  have left := endpointKeyParts ip port
  rw [same] at left
  have right := endpointKeyParts ip' port'
  exact ⟨left.1.symm.trans right.1,left.2.symm.trans right.2⟩

structure Sent (m : UdpMux) (now : Int) (src : Bytes) (ip : BitVec 32) (port : BitVec 16) (data : Bytes)
    (out : UdpMux × List Effect) : Prop where
  owners : ∀ k e, out.1.endpointOwner.lookup k = some e →
    m.endpointOwner.lookup k = some e ∨ (k = endpointKey ip port ∧ e = ⟨src,now⟩)
  exempt : stunParse data ≠ none → ∀ k e, out.1.endpointOwner.lookup k = some e →
    ∃ e', m.endpointOwner.lookup k = some e' ∧ e'.owner = e.owner
  locked : stunParse data = none → out.2 = [.transmit ip port data] →
    ∀ e, out.1.endpointOwner.lookup (endpointKey ip port) = some e → e.owner = src
  txns : ∀ txid e, out.1.stunTxn.lookup txid = some e →
    (m.stunTxn.lookup txid = some e ∧ stunParse data ≠ some ⟨.Request,txid⟩) ∨
      (stunParse data = some ⟨.Request,txid⟩ ∧ e = ⟨src,now⟩)
  outcome : out.2 = [.transmit ip port data] ∨
    (stunParse data = none ∧ (∃ text, out.2 = [.log text]) ∧ out.1.endpointOwner = m.endpointOwner ∧
      out.1.ownerEndpoints = m.ownerEndpoints ∧ out.1.stunTxn = m.stunTxn)

section
variable {m : UdpMux} {now : Int} {src : Bytes} {ip : BitVec 32} {port : BitVec 16} {data : Bytes}

theorem touchOwners {k : Key} {e : OwnerEntry} (owner : e.owner = src) (k' : Key) (e' : OwnerEntry)
    (found : (m.touch k e now).endpointOwner.lookup k' = some e') :
    m.endpointOwner.lookup k' = some e' ∨ (k' = k ∧ e' = ⟨src,now⟩) := by
  change (m.endpointOwner.insert k {e with lastActive := now}).lookup k' = some e' at found
  rw [Table.lookupInsert] at found
  split at found
  · rename_i same
    cases Option.some.inj found
    exact .inr ⟨same,by rw [owner]⟩
  · exact .inl found

theorem stunSent {info : StunInfo} (parsed : stunParse data = some info) (m' : UdpMux)
    (owners : m'.endpointOwner = m.endpointOwner)
    (txns : m'.stunTxn = if info.klass = .Request then m.stunTxn.insert info.txid ⟨src,now⟩ else m.stunTxn) :
    Sent m now src ip port data (match m'.endpointOwner.lookup (endpointKey ip port) with
      | some e => if e.owner = src then (m'.touch (endpointKey ip port) e now,[.transmit ip port data])
        else (m',[.transmit ip port data])
      | none => (m',[.transmit ip port data])) := by
  have asked : ∀ txid e, m'.stunTxn.lookup txid = some e →
      (m.stunTxn.lookup txid = some e ∧ stunParse data ≠ some ⟨.Request,txid⟩) ∨
        (stunParse data = some ⟨.Request,txid⟩ ∧ e = ⟨src,now⟩) := by
    intro txid e found
    rw [txns] at found
    obtain ⟨klass,own⟩ := info
    split at found
    · rename_i request
      change klass = .Request at request
      subst request
      rw [Table.lookupInsert] at found
      split at found
      · rename_i same
        change txid = own at same
        subst same
        exact .inr ⟨parsed,(Option.some.inj found).symm⟩
      · rename_i other
        refine .inl ⟨found,fun request => other ?_⟩
        rw [parsed] at request
        cases request; rfl
    · rename_i plain
      refine .inl ⟨found,fun request => plain ?_⟩
      rw [parsed] at request
      cases request; rfl
  have isStun : stunParse data ≠ none := by rw [parsed]; simp
  split
  · rename_i e found
    rw [owners] at found
    split
    · rename_i mine
      have entries := @touchOwners m' now _ (endpointKey ip port) _ mine
      rw [owners] at entries
      refine ⟨entries,fun _ k e' here => ?_,fun none => absurd none isStun,asked,.inl rfl⟩
      rcases entries k e' here with before | ⟨rfl,rfl⟩
      · exact ⟨e',before,rfl⟩
      · exact ⟨e,found,mine⟩
    · exact ⟨fun k e' here => .inl (owners ▸ here),fun _ k e' here => ⟨e',owners ▸ here,rfl⟩,
        fun none => absurd none isStun,asked,.inl rfl⟩
  · exact ⟨fun k e' here => .inl (owners ▸ here),fun _ k e' here => ⟨e',owners ▸ here,rfl⟩,
      fun none => absurd none isStun,asked,.inl rfl⟩

theorem sendSpec : Sent m now src ip port data (m.sendFromSource now src ip port data) := by
  unfold UdpMux.sendFromSource
  cases parsed : stunParse data with
  | some info =>
    refine stunSent parsed _ ?_ ?_
    · split <;> rfl
    · split <;> rfl
  | none =>
    have plain (txid : Bytes) : stunParse data ≠ some ⟨.Request,txid⟩ := by rw [parsed]; simp
    simp only
    split
    · refine ⟨fun k e found => ?_,fun stun => absurd parsed stun,fun _ _ e found => ?_,
        fun txid e found => .inl ⟨found,plain txid⟩,.inl rfl⟩
      · change (m.endpointOwner.insert (endpointKey ip port) ⟨src,now⟩).lookup k = some e at found
        rw [Table.lookupInsert] at found
        split at found
        · rename_i same
          exact .inr ⟨same,(Option.some.inj found).symm⟩
        · exact .inl found
      · change (m.endpointOwner.insert (endpointKey ip port) ⟨src,now⟩).lookup (endpointKey ip port) = some e at found
        rw [Table.lookupInsert,if_pos rfl] at found
        cases Option.some.inj found; rfl
    · rename_i e found
      split
      · exact ⟨fun k e found => .inl found,fun stun => absurd parsed stun,fun _ sent => by simp at sent,
          fun txid e found => .inl ⟨found,plain txid⟩,.inr ⟨parsed,⟨_,rfl⟩,rfl,rfl,rfl⟩⟩
      · rename_i mine
        rw [ne_eq,not_not] at mine
        refine ⟨touchOwners mine,fun stun => absurd parsed stun,fun _ _ e' here => ?_,
          fun txid e found => .inl ⟨found,plain txid⟩,.inl rfl⟩
        change (m.endpointOwner.insert (endpointKey ip port) {e with lastActive := now}).lookup
          (endpointKey ip port) = some e' at here
        rw [Table.lookupInsert,if_pos rfl] at here
        cases Option.some.inj here
        exact mine

/- Every injection is of the datagram received, to whom one table says; entries
only go, or are refreshed for the owner who gets it. -/
structure Demuxed (m : UdpMux) (now : Int) (ip : BitVec 32) (port : BitVec 16) (data : Bytes)
    (out : UdpMux × List Effect) : Prop where
  owners : ∀ k e, out.1.endpointOwner.lookup k = some e → m.endpointOwner.lookup k = some e ∨
    (e.lastActive = now ∧ out.2 = [.injectUdpReply e.owner ip port data] ∧
      ∃ e', m.endpointOwner.lookup k = some e' ∧ e'.owner = e.owner)
  txns : ∀ txid e, out.1.stunTxn.lookup txid = some e → m.stunTxn.lookup txid = some e
  shape : (∃ s, out.2 = [.injectUdpReply s ip port data]) ∨ ∀ e ∈ out.2, ∃ text, e = .log text
  injected : ∀ s ip' port' d, .injectUdpReply s ip' port' d ∈ out.2 → ip' = ip ∧ port' = port ∧ d = data ∧
    ((∃ txid e, isResponse data txid ∧ m.stunTxn.lookup txid = some e ∧ e.innerSrc = s ∧
        out.1.stunTxn.lookup txid = none) ∨
      ((∀ txid, ¬ isResponse data txid) ∧ ∃ e, m.endpointOwner.lookup (endpointKey ip port) = some e ∧ e.owner = s))

theorem warnDropTables (m : UdpMux) (now : Int) : (m.warnDrop now).1.endpointOwner = m.endpointOwner ∧
    (m.warnDrop now).1.stunTxn = m.stunTxn ∧ ∀ e ∈ (m.warnDrop now).2, ∃ text, e = .log text := by
  unfold UdpMux.warnDrop
  split
  · exact ⟨rfl,rfl,by simp⟩
  · exact ⟨rfl,rfl,by simp⟩

theorem dropDemuxed {m' : UdpMux} (owners : m'.endpointOwner = m.endpointOwner) (txns : m'.stunTxn = m.stunTxn) :
    Demuxed m now ip port data (m'.warnDrop now) := by
  obtain ⟨sameOwners,sameTxns,logs⟩ := warnDropTables m' now
  refine ⟨fun k e found => .inl ?_,fun txid e found => ?_,.inr logs,fun s ip' port' d member => ?_⟩
  · rwa [sameOwners,owners] at found
  · rwa [sameTxns,txns] at found
  · obtain ⟨_,same⟩ := logs _ member; contradiction

theorem endpointDemuxed (other : ∀ txid, ¬ isResponse data txid) :
    Demuxed m now ip port data (m.demuxByEndpoint now ip port data) := by
  unfold UdpMux.demuxByEndpoint
  simp only
  split
  · rename_i e found
    refine ⟨fun k e' here => ?_,fun txid e found => found,.inl ⟨_,rfl⟩,fun s ip' port' d member => ?_⟩
    · rcases touchOwners rfl k e' here with before | ⟨rfl,rfl⟩
      · exact .inl before
      · exact .inr ⟨rfl,rfl,e,found,rfl⟩
    · simp only [List.mem_singleton,Effect.injectUdpReply.injEq] at member
      obtain ⟨rfl,rfl,rfl,rfl⟩ := member
      exact ⟨rfl,rfl,rfl,.inr ⟨other,e,found,rfl⟩⟩
  · exact dropDemuxed rfl rfl

theorem demuxSpec : Demuxed m now ip port data (m.demux now ip port data) := by
  unfold UdpMux.demux
  cases parsed : stunParse data with
  | none => exact endpointDemuxed (by simp [isResponse,parsed])
  | some info =>
    simp only
    split
    · rename_i response
      split
      · rename_i txn found
        refine ⟨fun k e here => .inl here,fun txid e here => ?_,.inl ⟨_,rfl⟩,fun s ip' port' d member => ?_⟩
        · change (m.stunTxn.erase info.txid).lookup txid = some e at here
          rw [Table.lookupErase] at here
          split at here
          · contradiction
          · exact here
        · simp only [List.mem_singleton,Effect.injectUdpReply.injEq] at member
          obtain ⟨rfl,rfl,rfl,rfl⟩ := member
          refine ⟨rfl,rfl,rfl,.inl ⟨info.txid,txn,?_,found,rfl,?_⟩⟩
          · obtain ⟨klass,own⟩ := info
            rcases response with success | failure
            · cases success; exact .inl parsed
            · cases failure; exact .inr parsed
          · change (m.stunTxn.erase info.txid).lookup info.txid = none
            rw [Table.lookupErase,if_pos rfl]
      · exact dropDemuxed rfl rfl
    · rename_i plain
      apply endpointDemuxed
      intro txid response
      apply plain
      rcases response with success | failure
      · rw [parsed] at success; cases success; exact .inl rfl
      · rw [parsed] at failure; cases failure; exact .inr rfl

theorem reapSpec (m : UdpMux) (now : Int) :
    (∀ k e, (m.reap now).1.endpointOwner.lookup k = some e ↔
      m.endpointOwner.lookup k = some e ∧ ¬ now - e.lastActive > kEndpointIdle) ∧
    (∀ txid e, (m.reap now).1.stunTxn.lookup txid = some e ↔
      m.stunTxn.lookup txid = some e ∧ ¬ now - e.createdAt > kStunTxnIdle) ∧
    ∀ e ∈ (m.reap now).2, ∃ text, e = .log text := by
  unfold UdpMux.reap
  simp only
  refine ⟨fun k e => ?_,fun txid e => ?_,?_⟩
  · split <;> exact Table.keepSome.trans (by simp)
  · split <;> exact Table.keepSome.trans (by simp)
  · split <;> simp

theorem goneSpec (m : UdpMux) (src : Bytes) :
    (∀ k e, (m.onSourceGone src).endpointOwner.lookup k = some e → m.endpointOwner.lookup k = some e) ∧
    (m.onSourceGone src).stunTxn = m.stunTxn := by
  unfold UdpMux.onSourceGone
  split
  · exact ⟨fun _ _ found => found,rfl⟩
  · exact ⟨fun _ _ found => (Table.keepSome.mp found).1,rfl⟩

end

section
variable {log : List Record} {r : Record} {ip : BitVec 32} {port : BitVec 16} {txid s : Bytes}

theorem SentLast.keep (sent : SentLast log ip port s) (same : ∀ s', dataTo ip port r = some s' → s' = s) :
    SentLast (log ++ [r]) ip port s := by
  obtain ⟨earlier,r₀,later,shape,mine,others⟩ := sent
  refine ⟨earlier,r₀,later ++ [r],by rw [shape]; simp,mine,fun r' member => ?_⟩
  rcases List.mem_append.mp member with old | new
  · exact others r' old
  · rw [List.mem_singleton.mp new]; exact same

theorem SentLast.now (mine : dataTo ip port r = some s) : SentLast (log ++ [r]) ip port s :=
  ⟨log,r,[],rfl,mine,by simp⟩

theorem AskedLast.keep (asked : AskedLast log txid s) (quiet : requestOf txid r = none)
    (open_ : ¬ Answered txid r) : AskedLast (log ++ [r]) txid s := by
  obtain ⟨earlier,r₀,later,shape,mine,others⟩ := asked
  refine ⟨earlier,r₀,later ++ [r],by rw [shape]; simp,mine,fun r' member => ?_⟩
  rcases List.mem_append.mp member with old | new
  · exact others r' old
  · rw [List.mem_singleton.mp new]; exact ⟨quiet,open_⟩

theorem AskedLast.now (mine : requestOf txid r = some s) : AskedLast (log ++ [r]) txid s :=
  ⟨log,r,[],rfl,mine,by simp⟩

end

structure Tracked (s : History) : Prop where
  owner : ∀ ip port e, s.mux.endpointOwner.lookup (endpointKey ip port) = some e → SentLast s.log ip port e.owner
  txn : ∀ txid e, s.mux.stunTxn.lookup txid = some e → AskedLast s.log txid e.innerSrc

theorem trackedStart : Tracked History.start :=
  ⟨fun _ _ e found => by simp [History.start,UdpMux.fresh] at found,
    fun _ e found => by simp [History.start,UdpMux.fresh] at found⟩

theorem trackedQuiet {s : History} {r : Record} {m : UdpMux} (tracked : Tracked s)
    (silent : ∀ ip port d, .transmit ip port d ∉ r.effects)
    (deaf : ∀ src ip port d, .injectUdpReply src ip port d ∉ r.effects)
    (owners : ∀ k e, m.endpointOwner.lookup k = some e → s.mux.endpointOwner.lookup k = some e)
    (txns : ∀ txid e, m.stunTxn.lookup txid = some e → s.mux.stunTxn.lookup txid = some e) :
    Tracked ⟨m,s.log ++ [r]⟩ := by
  have noData (ip port) : dataTo ip port r = none := by
    unfold dataTo; split <;> simp [silent]
  have noRequest (txid) : requestOf txid r = none := by
    unfold requestOf; split <;> simp [silent]
  refine ⟨fun ip port e found => (tracked.owner ip port e (owners _ e found)).keep (by simp [noData]),
    fun txid e found => (tracked.txn txid e (txns _ e found)).keep (noRequest txid) ?_⟩
  intro holds
  obtain ⟨src,ip,port,d,member,_⟩ := holds
  exact deaf src ip port d member

theorem trackedSend {s : History} {now src ip port data} {out : UdpMux × List Effect} (tracked : Tracked s)
    (spec : Sent s.mux now src ip port data out) :
    Tracked ⟨out.1,s.log ++ [⟨.sendFromSource now src ip port data,out.2⟩]⟩ := by
  rcases spec.outcome with sent | ⟨_,⟨text,dropped⟩,owners,_,txns⟩
  · have deaf (txid : Bytes) : ¬ Answered txid ⟨.sendFromSource now src ip port data,out.2⟩ := by
      intro holds
      obtain ⟨_,_,_,_,member,_⟩ := holds
      rw [sent] at member
      simp at member
    refine ⟨fun ip' port' e found => ?_,fun txid e found => ?_⟩
    · by_cases stun : stunParse data = none
      · by_cases here : ip = ip' ∧ port = port'
        · obtain ⟨rfl,rfl⟩ := here
          rw [spec.locked stun sent e found]
          exact .now (by simp [dataTo,stun,sent])
        · rcases spec.owners _ e found with before | ⟨same,_⟩
          · refine (tracked.owner ip' port' e before).keep fun s' shown => ?_
            simp only [dataTo] at shown
            split at shown <;> try contradiction
            rename_i sender
            exact absurd ⟨sender.2.1,sender.2.2.1⟩ here
          · obtain ⟨rfl,rfl⟩ := endpointKeyInjective same
            exact absurd ⟨rfl,rfl⟩ here
      · obtain ⟨e',before,owner⟩ := spec.exempt stun _ e found
        rw [← owner]
        exact (tracked.owner ip' port' e' before).keep (by simp [dataTo,stun])
    · rcases spec.txns txid e found with ⟨before,other⟩ | ⟨request,rfl⟩
      · exact (tracked.txn txid e before).keep (by simp [requestOf,other]) (deaf txid)
      · exact .now (by simp [requestOf,request,sent])
  · refine trackedQuiet tracked (by simp [dropped]) (by simp [dropped]) (fun k e found => ?_) fun txid e found => ?_
    · rwa [owners] at found
    · rwa [txns] at found

theorem responseId {data txid txid' : Bytes} (left : isResponse data txid) (right : isResponse data txid') :
    txid = txid' := by
  rcases left with left | left <;> rcases right with right | right <;> rw [left] at right <;> cases right <;> rfl

theorem trackedDemux {s : History} {now ip port data} {out : UdpMux × List Effect} (tracked : Tracked s)
    (spec : Demuxed s.mux now ip port data out) :
    Tracked ⟨out.1,s.log ++ [⟨.demux now ip port data,out.2⟩]⟩ := by
  refine ⟨fun ip' port' e found => ?_,fun txid e found => ?_⟩
  · rcases spec.owners _ e found with before | ⟨_,_,e',before,owner⟩
    · exact (tracked.owner ip' port' e before).keep (by simp [dataTo])
    · rw [← owner]
      exact (tracked.owner ip' port' e' before).keep (by simp [dataTo])
  · refine (tracked.txn txid e (spec.txns txid e found)).keep rfl ?_
    intro holds
    obtain ⟨src,ip',port',d,member,response⟩ := holds
    obtain ⟨_,_,rfl,way⟩ := spec.injected src ip' port' d member
    rcases way with ⟨own,_,mine,_,_,gone⟩ | ⟨plain,_⟩
    · rw [responseId response mine,gone] at found; contradiction
    · exact plain txid response

theorem trackedStep {s t : History} {op : Op} (tracked : Tracked s) (stepped : step s op t) : Tracked t := by
  subst stepped
  cases op with
  | sendFromSource now src ip port data => exact trackedSend tracked sendSpec
  | demux now ip port data => exact trackedDemux tracked demuxSpec
  | reap now =>
    obtain ⟨owners,txns,logs⟩ := reapSpec s.mux now
    refine trackedQuiet tracked (fun ip port d member => ?_) (fun src ip port d member => ?_)
      (fun k e found => ((owners k e).mp found).1) fun txid e found => ((txns txid e).mp found).1
    · obtain ⟨_,same⟩ := logs _ member; contradiction
    · obtain ⟨_,same⟩ := logs _ member; contradiction
  | onSourceGone src =>
    obtain ⟨owners,txns⟩ := goneSpec s.mux src
    refine trackedQuiet tracked (by simp [apply]) (by simp [apply]) owners fun txid e found => ?_
    change (s.mux.onSourceGone src).stunTxn.lookup txid = some e at found
    rwa [txns] at found

theorem convergenceRoutes (ops : List Op) (s : History) (run : Run step History.start ops s)
    (now : Int) (ip : BitVec 32) (port : BitVec 16) (data : Bytes) :
    (∀ src ip' port' d, .injectUdpReply src ip' port' d ∈ (s.mux.demux now ip port data).2 →
      ip' = ip ∧ port' = port ∧ d = data ∧ ((∀ txid, ¬ isResponse data txid) → SentLast s.log ip port src) ∧
      ∀ txid, isResponse data txid → AskedLast s.log txid src) ∧
    (∀ src, (∀ ip' port' d, .transmit ip' port' d ∉ (s.mux.sendFromSource now src ip port data).2) →
      stunParse data = none ∧
      (s.mux.sendFromSource now src ip port data).1.endpointOwner = s.mux.endpointOwner ∧
      (s.mux.sendFromSource now src ip port data).1.ownerEndpoints = s.mux.ownerEndpoints ∧
      (s.mux.sendFromSource now src ip port data).1.stunTxn = s.mux.stunTxn) ∧
    ∀ src, stunParse data ≠ none →
      .transmit ip port data ∈ (s.mux.sendFromSource now src ip port data).2 := by
  have tracked : Tracked s := run.invariant trackedStart fun _ _ _ before stepped => trackedStep before stepped
  refine ⟨fun src ip' port' d member => ?_,fun src silent => ?_,fun src stun => ?_⟩
  · obtain ⟨rfl,rfl,rfl,way⟩ := demuxSpec.injected src ip' port' d member
    refine ⟨rfl,rfl,rfl,fun plain => ?_,fun txid response => ?_⟩
    · rcases way with ⟨txid,_,mine,_⟩ | ⟨_,e,found,rfl⟩
      · exact absurd mine (plain txid)
      · exact tracked.owner _ _ e found
    · rcases way with ⟨own,e,mine,found,rfl,_⟩ | ⟨plain,_⟩
      · rw [responseId response mine]
        exact tracked.txn own e found
      · exact absurd response (plain txid)
  · have sends : Sent s.mux now src ip port data (s.mux.sendFromSource now src ip port data) := sendSpec
    rcases sends.outcome with sent | ⟨parsed,_,owners,index,txns⟩
    · rw [sent] at silent
      exact absurd (List.mem_singleton.mpr rfl) (silent ip port data)
    · exact ⟨parsed,owners,index,txns⟩
  · have sends : Sent s.mux now src ip port data (s.mux.sendFromSource now src ip port data) := sendSpec
    rcases sends.outcome with sent | ⟨parsed,_⟩
    · rw [sent]; exact List.mem_singleton.mpr rfl
    · exact absurd parsed stun

/- Two sources, one endpoint: the second one's datagram is dropped and the first
one gets the reply. -/
def collision : List Op :=
  [.sendFromSource 0 [1] 7 9 [0xff],.sendFromSource 1 [2] 7 9 [0xff]]

theorem collisionRoutes : ∃ s, Run step History.start collision s ∧
    (s.mux.sendFromSource 2 [2] 7 9 [0xff]).1.stunTxn = s.mux.stunTxn ∧
    .injectUdpReply [1] 7 9 [0xff] ∈ (s.mux.demux 2 7 9 [0xff]).2 ∧ SentLast s.log 7 9 [1] := by
  have run : Run step History.start collision _ := .snoc (.snoc .nil rfl) rfl
  have routes := convergenceRoutes collision _ run 2 7 9 [0xff]
  have dropped : ∀ e ∈ ((((History.start.next (.sendFromSource 0 [1] 7 9 [0xff])).next
      (.sendFromSource 1 [2] 7 9 [0xff])).mux.sendFromSource 2 [2] 7 9 [0xff])).2,
      ∃ text, e = .log text := by
    intro e member
    exact ⟨_,List.mem_singleton.mp member⟩
  refine ⟨_,run,(routes.2.1 [2] fun ip port d member => ?_).2.2.2,by decide,
    (routes.1 [1] 7 9 [0xff] (by decide)).2.2.2.1 fun txid response => ?_⟩
  · obtain ⟨_,same⟩ := dropped _ member
    contradiction
  · have short : stunParse [0xff] = none := by decide
    rcases response with h | h <;> rw [short] at h <;> contradiction

end Candy.Udp
