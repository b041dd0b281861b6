import Candy.SessionTcp
import Candy.Runs
import Candy.Table

/-! The TCP sessions of one NetStack. lwIP holds a session by a raw pointer, the
tcp_arg of its pcb; what keeps it alive is the entry in sessions, keyed by the
address of the pcb, and its own self reference. Every session runs as in
SessionTcp; here are the two maps around it, and addresses that come again. -/
namespace Candy.TcpStack
open Runs
open SessionTcp (shutdownFromStack)

/- The address of a pcb, and a session by the order of their making. -/
abbrev Pcb := Nat
abbrev Sid := Nat

/- `tcpArg` has the open pcbs whose argument is a session; a pcb not accepted yet has
the NetStack for it, a closed one nothing. `aborting` is a pcb whose accept returned
ERR_RST with its callbacks set: lwIP, still in the same call, aborts it next. -/
structure NetStack where
  running : Bool
  tcpArg : Table Pcb Sid
  sessions : Table Pcb Sid
  made : Sid
  newpcb : Sid → Pcb
  session : Sid → SessionTcp.State
  aborting : Option Pcb

def NetStack.start : NetStack := ⟨true,∅,∅,0,fun _ => 0,fun _ => SessionTcp.State.start,none⟩

def NetStack.pcb (n : NetStack) (s : Sid) : Option Pcb := if (n.session s).pcb then some (n.newpcb s) else none

/- SessionTcp::start when dialTcp fails: there is no fd, and onAccept makes no entry. -/
def undialed : SessionTcp.State := {SessionTcp.State.start with listed := false, fd := false, tasks := []}

def onAccept (n : NetStack) (newpcb : Pcb) (dialed : Bool) : NetStack :=
  if !n.running then n else
    let s := n.made
    let n := {n with
      made := s + 1
      newpcb := Function.update n.newpcb s newpcb
      session := Function.update n.session s (if dialed then SessionTcp.State.start else undialed)
      tcpArg := n.tcpArg.insert newpcb s}
    if dialed then {n with sessions := n.sessions.insert newpcb s} else {n with aborting := some newpcb}

def removeSession (n : NetStack) (pcb : Pcb) : NetStack := {n with sessions := n.sessions.erase pcb}

/- A step of one session. The pcb leaves it in closeFromStack, which unsets tcp_arg and
closes it, and in onErr, when lwIP has freed it; removeSession follows in both. -/
def deliver (n : NetStack) (s : Sid) (e : SessionTcp.Event) : Option NetStack :=
  (SessionTcp.handle (n.session s) e).map fun t =>
    let m := {n with session := Function.update n.session s t}
    if (n.session s).pcb && !t.pcb then removeSession {m with tcpArg := m.tcpArg.erase (n.newpcb s)} (n.newpcb s) else m

def shutdownSession (n : NetStack) (s : Sid) : NetStack :=
  {n with
    session := Function.update n.session s (shutdownFromStack {n.session s with listed := false})
    tcpArg := if (n.session s).pcb then n.tcpArg.erase (n.newpcb s) else n.tcpArg}

def teardownStack (n : NetStack) : NetStack :=
  {(n.sessions.entries.map Sigma.snd).foldl shutdownSession n with sessions := ∅}

/- Accept has no pcb when lwIP reports an error. Callbacks come for a pcb that has an
argument; `reactor` is any step of the session's reactor side. -/
inductive Event where
  | shutdown
  | accept (newpcb : Option Pcb) (dialed : Bool)
  | aborted
  | recv (pcb : Pcb) (data : Bytes)
  | fin (pcb : Pcb)
  | sent (pcb : Pcb) (answers : List SessionTcp.TcpWrite)
  | err (pcb : Pcb)
  | stackRan (s : Sid) (answers : List SessionTcp.TcpWrite)
  | reactor (s : Sid) (e : SessionTcp.Event)
  | teardown
  deriving DecidableEq, Repr

def callback (n : NetStack) (pcb : Pcb) (e : SessionTcp.Event) : Option NetStack :=
  (n.tcpArg.lookup pcb).bind fun s => deliver n s e

def handle (n : NetStack) : Event → Option NetStack
  | .shutdown => some {n with running := false}
  | .reactor s e => if s < n.made ∧ e.onReactor = true then deliver n s e else none
  | .aborted => n.aborting.bind fun pcb => (callback n pcb .err).map fun n => {n with aborting := none}
  | e => if n.aborting.isSome then none else match e with
    | .accept newpcb dialed => match newpcb with
      | none => some n
      | some pcb => if n.tcpArg.lookup pcb = none then some (onAccept n pcb dialed) else none
    | .recv pcb data => callback n pcb (.recv data)
    | .fin pcb => callback n pcb .fin
    | .sent pcb answers => callback n pcb (.sent answers)
    | .err pcb => callback n pcb .err
    | .stackRan s answers => if s < n.made then deliver n s (.stackRan answers) else none
    | .teardown => if n.running then none else some (teardownStack n)
    | _ => none

def step (n : NetStack) (e : Event) (m : NetStack) : Prop := handle n e = some m

structure Owned (n : NetStack) : Prop where
  reached : ∀ pcb s, n.tcpArg.lookup pcb = some s →
    n.pcb s = some pcb ∧ (n.sessions.lookup pcb = some s ∨ (n.session s).self = true)
  entered : ∀ pcb s, n.sessions.lookup pcb = some s → n.pcb s = some pcb

/- The two maps and the pcbs of the sessions say the same, but for the session that
is about to be aborted. -/
structure Kept (n : NetStack) : Prop where
  argued : ∀ pcb s, n.tcpArg.lookup pcb = some s → s < n.made ∧ n.newpcb s = pcb ∧ (n.session s).pcb = true
  opened : ∀ s < n.made, (n.session s).pcb = true → n.tcpArg.lookup (n.newpcb s) = some s
  entered : ∀ pcb s, n.sessions.lookup pcb = some s → s < n.made ∧ n.newpcb s = pcb ∧ (n.session s).listed = true
  listed : ∀ s < n.made, (n.session s).listed = true →
    (n.session s).pcb = true ∧ n.sessions.lookup (n.newpcb s) = some s
  kept : ∀ s < n.made, (n.session s).pcb = true →
    (n.session s).listed = true ∨ (n.aborting = some (n.newpcb s) ∧ n.session s = undialed)

theorem Kept.owned {n : NetStack} (kept : Kept n) : Owned n := by
  have pointer {pcb s} (address : n.newpcb s = pcb) (opened : (n.session s).pcb = true) : n.pcb s = some pcb := by
    rw [NetStack.pcb,if_pos opened,address]
  refine ⟨fun pcb s found => ?_,fun pcb s found => ?_⟩
  · obtain ⟨made,address,opened⟩ := kept.argued pcb s found
    refine ⟨pointer address opened,?_⟩
    rcases kept.kept s made opened with listed | ⟨_,same⟩
    · exact .inl (address ▸ (kept.listed s made listed).2)
    · exact .inr (by rw [same]; rfl)
  · obtain ⟨made,address,listed⟩ := kept.entered pcb s found
    exact pointer address (kept.listed s made listed).1

theorem Kept.apart {n : NetStack} {s x : Sid} (kept : Kept n) (made : s < n.made) (opened : (n.session s).pcb = true)
    (made' : x < n.made) (opened' : (n.session x).pcb = true) (other : x ≠ s) : n.newpcb x ≠ n.newpcb s := by
  intro same
  have found := kept.opened x made' opened'
  rw [same,kept.opened s made opened] at found
  exact other (Option.some.inj found).symm

theorem sessionStep {s t : SessionTcp.State} {e : SessionTcp.Event} (still : e ≠ .teardown)
    (stepped : SessionTcp.step s e t) :
    (t.pcb = true → s.pcb = true) ∧ t.listed = (s.listed && (t.pcb || !s.pcb)) := by
  cases reactor : e.onReactor with
  | true =>
    have across := SessionTcp.acrossStep reactor stepped
    rw [across.pcb,across.listed]
    exact ⟨fun h => h,by simp⟩
  | false =>
    cases SessionTcp.answeredOf reactor stepped with
    | teardownLate | teardown => exact absurd rfl still
    | recv => exact ⟨fun h => h,by simp [SessionTcp.onRecv]⟩
    | fin =>
      have side := SessionTcp.closeFromStackSide {s with finned := true}
      exact ⟨side.pcb,side.listed⟩
    | sent _ pumped =>
      have side := SessionTcp.pumpSide pumped
      exact ⟨side.pcb,side.listed⟩
    | errLate | err => exact ⟨nofun,by simp⟩
    | stackRan _ taken =>
      have side := SessionTcp.stackTaskSide taken
      exact ⟨side.pcb,side.listed⟩

theorem deliverKept {n m : NetStack} {s : Sid} {e : SessionTcp.Event} (kept : Kept n) (made : s < n.made)
    (still : e ≠ .teardown) (settled : (m.session s).pcb = true → (n.session s).listed = true)
    (ok : deliver n s e = some m) : Kept m := by
  obtain ⟨t,stepped,same⟩ := Option.map_eq_some_iff.mp ok
  obtain ⟨shut,listed⟩ := sessionStep still stepped
  have other {x : Sid} (ne : x ≠ s) : Function.update n.session s t x = n.session x := Function.update_of_ne ne ..
  have self : Function.update n.session s t s = t := Function.update_self ..
  cases closed : (n.session s).pcb && !t.pcb with
  | true =>
    simp only [closed,if_true,removeSession] at same
    subst same
    rw [Bool.and_eq_true,Bool.not_eq_true'] at closed
    obtain ⟨opened,gone⟩ := closed
    rw [gone,opened] at listed
    have open_ {x : Sid} (here : (Function.update n.session s t x).pcb = true) : x ≠ s := fun wrong => by
      rw [wrong,self,gone] at here; contradiction
    have onList {x : Sid} (here : (Function.update n.session s t x).listed = true) : x ≠ s := fun wrong => by
      rw [wrong,self,listed] at here; simp at here
    refine ⟨fun pcb x found => ?_,fun x made' here => ?_,fun pcb x found => ?_,fun x made' here => ?_,
      fun x made' here => ?_⟩
    · simp only [Table.lookupErase] at found
      split at found <;> try contradiction
      rename_i apart
      obtain ⟨made',address,opened'⟩ := kept.argued pcb x found
      have ne : x ≠ s := fun wrong => apart (by rw [← address,wrong])
      exact ⟨made',address,by simp only [other ne]; exact opened'⟩
    · have ne := open_ here
      simp only [other ne] at here
      simp only [Table.lookupErase]
      rw [if_neg (kept.apart made opened made' here ne)]
      exact kept.opened x made' here
    · simp only [Table.lookupErase] at found
      split at found <;> try contradiction
      rename_i apart
      obtain ⟨made',address,listed'⟩ := kept.entered pcb x found
      have ne : x ≠ s := fun wrong => apart (by rw [← address,wrong])
      exact ⟨made',address,by simp only [other ne]; exact listed'⟩
    · have ne := onList here
      simp only [other ne] at here ⊢
      obtain ⟨opened',found⟩ := kept.listed x made' here
      simp only [Table.lookupErase]
      rw [if_neg (kept.apart made opened made' opened' ne)]
      exact ⟨opened',found⟩
    · have ne := open_ here
      simp only [other ne] at here ⊢
      exact kept.kept x made' here
  | false =>
    simp only [closed,Bool.false_eq_true,if_false] at same
    subst same
    have pcb : t.pcb = (n.session s).pcb := by
      revert closed shut
      cases t.pcb <;> cases (n.session s).pcb <;> simp
    rw [pcb] at listed
    have samePcb (x : Sid) : (Function.update n.session s t x).pcb = (n.session x).pcb := by
      by_cases ne : x = s
      · rw [ne,self,pcb]
      · rw [other ne]
    have sameListed (x : Sid) : (Function.update n.session s t x).listed = (n.session x).listed := by
      by_cases ne : x = s
      · rw [ne,self,listed]; simp
      · rw [other ne]
    refine ⟨fun pcb x found => ?_,fun x made' here => ?_,fun pcb x found => ?_,fun x made' here => ?_,
      fun x made' here => ?_⟩
    · simp only [samePcb]; exact kept.argued pcb x found
    · simp only [samePcb] at here; exact kept.opened x made' here
    · simp only [sameListed]; exact kept.entered pcb x found
    · simp only [sameListed] at here; simp only [samePcb]; exact kept.listed x made' here
    · by_cases ne : x = s
      · subst ne
        simp only [sameListed]
        exact .inl (settled here)
      · simp only [samePcb] at here
        simp only [other ne]
        exact kept.kept x made' here

theorem acceptKept {n : NetStack} {pcb : Pcb} {dialed : Bool} (kept : Kept n) (calm : n.aborting = none)
    (free : n.tcpArg.lookup pcb = none) : Kept (onAccept n pcb dialed) := by
  unfold onAccept
  split
  · exact kept
  have newSession (t : SessionTcp.State) : Function.update n.session n.made t n.made = t := Function.update_self ..
  have newAddress : Function.update n.newpcb n.made pcb n.made = pcb := Function.update_self ..
  have oldSession {x : Sid} (t : SessionTcp.State) (before : x < n.made) :
      Function.update n.session n.made t x = n.session x := Function.update_of_ne (Nat.ne_of_lt before) ..
  have oldAddress {x : Sid} (before : x < n.made) : Function.update n.newpcb n.made pcb x = n.newpcb x :=
    Function.update_of_ne (Nat.ne_of_lt before) ..
  have elsewhere {x : Sid} (before : x < n.made) (opened : (n.session x).pcb = true) : n.newpcb x ≠ pcb := fun wrong => by
    rw [← wrong,kept.opened x before opened] at free
    contradiction
  have onList {x : Sid} (before : x < n.made) (opened : (n.session x).pcb = true) : (n.session x).listed = true :=
    (kept.kept x before opened).resolve_right fun ⟨wrong,_⟩ => by rw [calm] at wrong; contradiction
  -- the first two laws do not depend on the dial
  have argued (t : SessionTcp.State) (opened : t.pcb = true) (p : Pcb) (x : Sid)
      (found : (n.tcpArg.insert pcb n.made).lookup p = some x) :
      x < n.made + 1 ∧ Function.update n.newpcb n.made pcb x = p ∧ (Function.update n.session n.made t x).pcb = true := by
    rw [Table.lookupInsert] at found
    split at found
    · cases Option.some.inj found
      exact ⟨Nat.lt_succ_self _,by rw [newAddress]; exact Eq.symm (by assumption),by rw [newSession]; exact opened⟩
    · obtain ⟨before,address,here⟩ := kept.argued p x found
      exact ⟨Nat.lt_succ_of_lt before,by rw [oldAddress before]; exact address,by rw [oldSession t before]; exact here⟩
  have opened (t : SessionTcp.State) (x : Sid) (made : x < n.made + 1)
      (here : (Function.update n.session n.made t x).pcb = true) :
      (n.tcpArg.insert pcb n.made).lookup (Function.update n.newpcb n.made pcb x) = some x := by
    rw [Table.lookupInsert]
    rcases Nat.lt_succ_iff_lt_or_eq.mp made with before | same
    · rw [oldSession t before] at here
      rw [oldAddress before,if_neg (elsewhere before here)]
      exact kept.opened x before here
    · rw [same,newAddress,if_pos rfl]
  have oldListed (t : SessionTcp.State) {x : Sid} (before : x < n.made)
      (here : (Function.update n.session n.made t x).listed = true) :
      (Function.update n.session n.made t x).pcb = true ∧ n.newpcb x ≠ pcb ∧ n.sessions.lookup (n.newpcb x) = some x := by
    rw [oldSession t before] at here ⊢
    obtain ⟨here,found⟩ := kept.listed x before here
    exact ⟨here,elsewhere before here,found⟩
  cases dialed with
  | true =>
    simp only [if_true]
    refine ⟨argued _ rfl,opened _,fun p x found => ?_,fun x made here => ?_,fun x made here => ?_⟩
    · simp only [Table.lookupInsert] at found
      split at found
      · cases Option.some.inj found
        exact ⟨Nat.lt_succ_self _,newAddress.trans (Eq.symm (by assumption)),by simp only [newSession]; rfl⟩
      · obtain ⟨before,address,listed⟩ := kept.entered p x found
        exact ⟨Nat.lt_succ_of_lt before,(oldAddress before).trans address,by simp only [oldSession _ before]; exact listed⟩
    · rcases Nat.lt_succ_iff_lt_or_eq.mp made with before | same
      · obtain ⟨here,apart,found⟩ := oldListed _ before here
        refine ⟨here,?_⟩
        change (n.sessions.insert pcb n.made).lookup (Function.update n.newpcb n.made pcb x) = some x
        rw [Table.lookupInsert,oldAddress before,if_neg apart]
        exact found
      · simp only [same,newSession,newAddress,Table.lookupInsert,if_true,and_true]
        rfl
    · rcases Nat.lt_succ_iff_lt_or_eq.mp made with before | same
      · simp only [oldSession _ before] at here ⊢
        exact .inl (onList before here)
      · simp only [same,newSession]
        exact .inl rfl
  | false =>
    simp only [Bool.false_eq_true,if_false]
    refine ⟨argued _ rfl,opened _,fun p x found => ?_,fun x made here => ?_,fun x made here => ?_⟩
    · obtain ⟨before,address,listed⟩ := kept.entered p x found
      exact ⟨Nat.lt_succ_of_lt before,(oldAddress before).trans address,by simp only [oldSession _ before]; exact listed⟩
    · rcases Nat.lt_succ_iff_lt_or_eq.mp made with before | same
      · obtain ⟨here,_,found⟩ := oldListed _ before here
        refine ⟨here,?_⟩
        change n.sessions.lookup (Function.update n.newpcb n.made pcb x) = some x
        rw [oldAddress before]
        exact found
      · simp only [same,newSession] at here
        contradiction
    · rcases Nat.lt_succ_iff_lt_or_eq.mp made with before | same
      · simp only [oldSession _ before] at here ⊢
        exact .inl (onList before here)
      · simp only [same,newSession,newAddress]
        exact .inr ⟨trivial,trivial⟩

/- A session is shut down once, however often its entry is seen. -/
theorem shutDownTwice (s : SessionTcp.State) :
    shutdownFromStack {shutdownFromStack {s with listed := false} with listed := false} =
      shutdownFromStack {s with listed := false} := by
  simp only [shutdownFromStack]
  cases s.closing <;> simp

theorem shutDownPcb (s : SessionTcp.State) : (shutdownFromStack s).pcb = false := by
  simp only [shutdownFromStack]
  split <;> rfl

theorem shutdownAll (sids : List Sid) (n : NetStack) :
    (∀ s, (sids.foldl shutdownSession n).session s =
      if s ∈ sids then shutdownFromStack {n.session s with listed := false} else n.session s) ∧
    (∀ pcb, (sids.foldl shutdownSession n).tcpArg.lookup pcb =
      if ∃ s ∈ sids, (n.session s).pcb = true ∧ n.newpcb s = pcb then none else n.tcpArg.lookup pcb) ∧
    (sids.foldl shutdownSession n).newpcb = n.newpcb ∧ (sids.foldl shutdownSession n).made = n.made := by
  induction sids generalizing n with
  | nil => simp
  | cons head rest ih =>
    obtain ⟨session,tcpArg,newpcb,made⟩ := ih (shutdownSession n head)
    simp only [List.foldl_cons]
    have here : (shutdownSession n head).session head = shutdownFromStack {n.session head with listed := false} :=
      Function.update_self ..
    have there {s : Sid} (other : s ≠ head) : (shutdownSession n head).session s = n.session s :=
      Function.update_of_ne other ..
    refine ⟨fun s => ?_,fun pcb => ?_,newpcb,made⟩
    · rw [session]
      by_cases same : s = head
      · rw [same,here,shutDownTwice]
        simp
      · rw [there same]
        simp [same]
    · have erased : (shutdownSession n head).tcpArg.lookup pcb =
          if (n.session head).pcb = true ∧ n.newpcb head = pcb then none else n.tcpArg.lookup pcb := by
        simp only [shutdownSession]
        split
        · rename_i opened
          rw [Table.lookupErase]
          simp only [opened,true_and,eq_comm]
        · rename_i shut
          rw [if_neg fun ⟨opened,_⟩ => shut opened]
      have seen : (∃ s ∈ rest, ((shutdownSession n head).session s).pcb = true ∧ (shutdownSession n head).newpcb s = pcb) ↔
          ∃ s ∈ rest, s ≠ head ∧ (n.session s).pcb = true ∧ n.newpcb s = pcb := by
        refine exists_congr fun s => and_congr_right fun _ => ?_
        by_cases same : s = head
        · rw [same,here,shutDownPcb]
          simp
        · rw [there same]
          simp only [ne_eq,same,not_false_eq_true,true_and]
          exact Iff.rfl
      rw [tcpArg,erased]
      simp only [seen]
      by_cases any : ∃ s ∈ head::rest, (n.session s).pcb = true ∧ n.newpcb s = pcb
      · rw [if_pos any]
        split
        · rfl
        · rename_i later
          obtain ⟨s,member,opened⟩ := any
          rcases List.mem_cons.mp member with same | member
          · rw [if_pos (same ▸ opened)]
          · by_cases same : s = head
            · rw [if_pos (same ▸ opened)]
            · exact absurd ⟨s,member,same,opened⟩ later
      · rw [if_neg any,if_neg fun ⟨s,member,_,opened⟩ => any ⟨s,List.mem_cons_of_mem _ member,opened⟩,
          if_neg fun opened => any ⟨head,List.mem_cons_self ..,opened⟩]

theorem teardownKept {n : NetStack} (kept : Kept n) (calm : n.aborting = none) : Kept (teardownStack n) := by
  obtain ⟨session,tcpArg,newpcb,made⟩ := shutdownAll (n.sessions.entries.map Sigma.snd) n
  unfold teardownStack
  generalize (n.sessions.entries.map Sigma.snd).foldl shutdownSession n = m at session tcpArg newpcb made
  have inTable {x : Sid} (before : x < n.made) (opened : (n.session x).pcb = true) :
      x ∈ n.sessions.entries.map Sigma.snd := by
    have listed := (kept.kept x before opened).resolve_right fun ⟨wrong,_⟩ => by rw [calm] at wrong; contradiction
    exact List.mem_map.mpr ⟨_,Table.lookupSome.mp (kept.listed x before listed).2,rfl⟩
  have shut {x : Sid} (before : x < n.made) : (m.session x).pcb = false := by
    rw [session]
    split
    · exact shutDownPcb _
    · rename_i untouched
      exact Bool.eq_false_iff.mpr fun opened => untouched (inTable before opened)
  have unlisted {x : Sid} (before : x < n.made) : (m.session x).listed = false := by
    rw [session]
    split
    · simp only [shutdownFromStack]
      split <;> rfl
    · rename_i untouched
      exact Bool.eq_false_iff.mpr fun listed => untouched (inTable before (kept.listed x before listed).1)
  refine ⟨fun pcb x found => ?_,fun x before opened => ?_,fun pcb x found => ?_,fun x before listed => ?_,
    fun x before opened => ?_⟩
  · rw [tcpArg] at found
    split at found <;> try contradiction
    rename_i spared
    obtain ⟨before,address,opened⟩ := kept.argued pcb x found
    exact absurd ⟨x,inTable before opened,opened,address⟩ spared
  · rw [shut (made ▸ before)] at opened; contradiction
  · rw [AList.lookup_empty] at found; contradiction
  · rw [unlisted (made ▸ before)] at listed; contradiction
  · rw [shut (made ▸ before)] at opened; contradiction

theorem undialedStill {t : SessionTcp.State} {e : SessionTcp.Event} (reactor : e.onReactor = true) :
    SessionTcp.handle undialed e ≠ some t := by
  cases e <;> first | contradiction | (rintro ⟨⟩)

theorem deliverFrame {n m : NetStack} {s : Sid} {e : SessionTcp.Event} (ok : deliver n s e = some m) :
    SessionTcp.step (n.session s) e (m.session s) ∧ (∀ x, x ≠ s → m.session x = n.session x) ∧
    m.newpcb = n.newpcb ∧ m.made = n.made ∧ m.aborting = n.aborting := by
  obtain ⟨t,stepped,same⟩ := Option.map_eq_some_iff.mp ok
  have session : m.session = Function.update n.session s t := by
    rw [← same]
    simp only
    split <;> rfl
  rw [session,Function.update_self]
  refine ⟨stepped,fun x other => Function.update_of_ne other ..,?_⟩
  rw [← same]
  simp only
  split <;> exact ⟨rfl,rfl,rfl⟩

theorem calmKept {n m : NetStack} {s : Sid} {e : SessionTcp.Event} (kept : Kept n) (calm : n.aborting = none)
    (made : s < n.made) (still : e ≠ .teardown) (ok : deliver n s e = some m) : Kept m := by
  refine deliverKept kept made still (fun opened => ?_) ok
  have before := (sessionStep still (deliverFrame ok).1).1 opened
  exact (kept.kept s made before).resolve_right fun ⟨wrong,_⟩ => by rw [calm] at wrong; contradiction

theorem callbackKept {n m : NetStack} {pcb : Pcb} {e : SessionTcp.Event} (kept : Kept n) (calm : n.aborting = none)
    (still : e ≠ .teardown) (ok : callback n pcb e = some m) : Kept m := by
  obtain ⟨s,found,delivered⟩ := Option.bind_eq_some_iff.mp ok
  exact calmKept kept calm (kept.argued pcb s found).1 still delivered

theorem reactorKept {n m : NetStack} {s : Sid} {e : SessionTcp.Event} (kept : Kept n) (made : s < n.made)
    (reactor : e.onReactor = true) (ok : deliver n s e = some m) : Kept m := by
  have still : e ≠ .teardown := fun wrong => by rw [wrong] at reactor; contradiction
  have stepped := (deliverFrame ok).1
  refine deliverKept kept made still (fun opened => ?_) ok
  refine (kept.kept s made ((sessionStep still stepped).1 opened)).resolve_right fun ⟨_,same⟩ => ?_
  rw [same] at stepped
  exact undialedStill reactor stepped

theorem abortedKept {n m : NetStack} {pcb : Pcb} (kept : Kept n) (aborting : n.aborting = some pcb)
    (ok : callback n pcb .err = some m) : Kept {m with aborting := none} := by
  obtain ⟨s,found,delivered⟩ := Option.bind_eq_some_iff.mp ok
  obtain ⟨made,address,opened⟩ := kept.argued pcb s found
  obtain ⟨stepped,others,newpcb,count,still⟩ := deliverFrame delivered
  have gone : (m.session s).pcb = false := by
    generalize m.session s = t at stepped
    cases SessionTcp.answeredOf rfl stepped <;> rfl
  have after := deliverKept kept made (by simp) (fun wrong => by rw [gone] at wrong; contradiction) delivered
  refine ⟨after.argued,after.opened,after.entered,after.listed,fun x before here => ?_⟩
  refine .inl ((after.kept x before here).resolve_right fun aborts => ?_)
  have atPcb := aborts.1
  have other : x ≠ s := fun wrong => by rw [wrong,gone] at here; contradiction
  rw [still,aborting,newpcb] at atPcb
  simp only [others x other] at here
  exact kept.apart made opened (count ▸ before) here other (by rw [address]; exact (Option.some.inj atPcb).symm)

theorem keptStep {n m : NetStack} {e : Event} (kept : Kept n) (stepped : step n e m) : Kept m := by
  have calm (p : n.aborting.isSome ≠ true) : n.aborting = none := by simpa using p
  unfold step at stepped
  cases e with
  | shutdown =>
    cases Option.some.inj stepped
    exact ⟨kept.argued,kept.opened,kept.entered,kept.listed,kept.kept⟩
  | reactor s e =>
    simp only [handle] at stepped
    split at stepped <;> try contradiction
    rename_i able
    exact reactorKept kept able.1 able.2 stepped
  | aborted =>
    obtain ⟨pcb,aborting,called⟩ := Option.bind_eq_some_iff.mp stepped
    obtain ⟨after,ok,same⟩ := Option.map_eq_some_iff.mp called
    subst same
    exact abortedKept kept aborting ok
  | accept newpcb dialed =>
    simp only [handle] at stepped
    split at stepped <;> try contradiction
    rename_i free
    split at stepped
    · cases Option.some.inj stepped
      exact kept
    · split at stepped <;> try contradiction
      cases Option.some.inj stepped
      exact acceptKept kept (calm free) (by assumption)
  | recv pcb _ | fin pcb | sent pcb _ | err pcb =>
    simp only [handle] at stepped
    split at stepped <;> try contradiction
    rename_i free
    exact callbackKept kept (calm free) (by simp) stepped
  | stackRan s answers =>
    simp only [handle] at stepped
    split at stepped <;> try contradiction
    rename_i free
    split at stepped <;> try contradiction
    exact calmKept kept (calm free) (by assumption) (by simp) stepped
  | teardown =>
    simp only [handle] at stepped
    split at stepped <;> try contradiction
    rename_i free
    split at stepped <;> try contradiction
    cases Option.some.inj stepped
    exact teardownKept kept (calm free)

theorem startKept : Kept NetStack.start :=
  ⟨fun _ _ found => by contradiction,fun _ wrong => by contradiction,fun _ _ found => by contradiction,
    fun _ wrong => by contradiction,fun _ wrong => by contradiction⟩

theorem callbacksOwned {events : List Event} {n : NetStack} (run : Run step NetStack.start events n) : Owned n := by
  have kept : Kept n := run.invariant startKept fun _ _ _ kept stepped => keptStep kept stepped
  exact kept.owned

/- One connection is closed and its address given again, one cannot be dialed, and of
the last the landing connect fails: only the table still keeps its session. -/
def reused : List Event :=
  [.accept (some 5) true,.fin 5,.accept (some 6) false,.aborted,.accept (some 5) true,.reactor 2 (.ran []),
    .reactor 2 (.fdEvent ⟨false,false,true⟩)]

theorem keptByTable : ∃ n, Run step NetStack.start reused n ∧ n.tcpArg.lookup 5 = some 2 ∧ (n.session 2).self = false ∧
    n.sessions.lookup 5 = some 2 := by
  obtain ⟨n,ok,argued,alone⟩ : ∃ n, execute handle NetStack.start reused = some n ∧ n.tcpArg.lookup 5 = some 2 ∧
      (n.session 2).self = false := ⟨_,rfl,by decide,by decide⟩
  have run : Run step NetStack.start reused n := executeRun (fun _ _ _ h => h) ok
  refine ⟨n,run,argued,alone,((callbacksOwned run).reached 5 2 argued).2.resolve_right ?_⟩
  rw [alone]
  exact Bool.false_ne_true

end Candy.TcpStack
