import Candy.WsClient
import Mathlib.Data.List.Infix

/-! What the handlers of src/websocket/client.cc take out of a frame, read by read:
a read that does not lie in the received bytes has no result. Only then do they act,
and what they do depends on nothing else of the frame. -/
namespace Candy.WsClient
open WsMsg CoreMsg

def byteIn (m : Bytes) (offset : Nat) : Option Byte := if offset < m.length then some (byteAt m offset) else none
def ip4In (m : Bytes) (offset : Nat) : Option IP4 := if offset + 4 ≤ m.length then some (ip4At m offset) else none
def portIn (m : Bytes) (offset : Nat) : Option (BitVec 16) :=
  if offset + 2 ≤ m.length then some (portAt m offset) else none

inductive Fields where
  | forward (saddr : IP4) (packet : Bytes)
  | exptTun (cidr : Bytes)
  | conn (info : PubInfo)
  | discovery (src dst : IP4)
  | routes (entries : List Bytes)
  | nothing
  deriving DecidableEq, Repr

def readForward (m : Bytes) : Option Fields :=
  if m.length < Forward.size then some .nothing
  else do
    let packet := m.drop 1
    let saddr ← ip4In packet 12
    some (.forward saddr packet)

/- The 32 bytes of the field; a text without a zero byte goes on to the end of the frame. -/
def readExptTun (m : Bytes) : Option Fields :=
  if m.length < ExptTun.size then some .nothing
  else if 9 + 32 ≤ m.length then some (.exptTun (ExptTun.cidr m)) else none

/- The two PubInfo frames differ in their size, in what lies in front of src, and in local. -/
def readInfo (size front : Nat) (nearby : Bool) (m : Bytes) : Option Fields :=
  if m.length < size then some .nothing
  else do
    let src ← ip4In m front
    let dst ← ip4In m (front + 4)
    let ip ← ip4In m (front + 8)
    let port ← portIn m (front + 12)
    some (.conn ⟨src,dst,ip,port,nearby⟩)

def readUdp4Conn (m : Bytes) : Option Fields := readInfo Conn.size 1 false m
def readGeneral (m : Bytes) : Option Fields := readInfo connLocalSize 4 true m

def readDiscovery (m : Bytes) : Option Fields :=
  if m.length < Discovery.size then some .nothing
  else do
    let dst ← ip4In m 5
    let src ← ip4In m 1
    some (.discovery src dst)

def readRoute (m : Bytes) : Option Fields :=
  if m.length < 4 then some .nothing
  else do
    let size ← byteIn m 1
    let entries ← (List.range size.toNat).mapM (routeEntry m)
    some (.routes entries)

def readFrame (m : Bytes) : Option Fields := do
  let kind ← byteIn m 0
  if kind = Kind.FORWARD then readForward m
  else if kind = Kind.EXPTTUN then readExptTun m
  else if kind = Kind.UDP4CONN then readUdp4Conn m
  else if kind = Kind.DISCOVERY then readDiscovery m
  else if kind = Kind.ROUTE then readRoute m
  else if kind = Kind.GENERAL then readGeneral m
  else some .nothing

def act (env : Env) (c : Client) (now : BitVec 64) : Fields → Option (Client × List Effect)
  | .forward saddr packet =>
    some (c,.write .peer (.tryP2P saddr.toString) :: if c.p2pOnly then [] else [.write .tun (.packet packet)])
  | .exptTun cidr => do
    let exptTun ← address env cidr
    let c := {c with tunCidr := exptTun.toCidr}
    let sent ← sendAuthMsg env c now
    some (c,sent)
  | .conn info => some (c,[.write .peer (.pubInfo info)])
  | .discovery src dst => do
    let sent ← if dst = broadcast then sendDiscoveryMsg env c src else some []
    some (c,sent ++ [.write .peer (.tryP2P src.toString)])
  | .routes entries => some (c,entries.flatMap fun data => [.write .tun (.sysRt data),.write .peer (.sysRt [])])
  | .nothing => some (c,[])

section
variable {m : Bytes}

theorem forwardRead : readForward m =
    some (if m.length < Forward.size then .nothing else .forward (ip4At (m.drop 1) 12) (m.drop 1)) := by
  unfold readForward
  split
  · rfl
  · rename_i long
    have inside : 12 + 4 ≤ (m.drop 1).length := by
      rw [List.length_drop]
      simp only [Forward.size] at long
      omega
    simp only [ip4In,if_pos inside]
    rfl

theorem exptTunRead : readExptTun m = some (if m.length < ExptTun.size then .nothing else .exptTun (ExptTun.cidr m)) := by
  unfold readExptTun
  split
  · rfl
  · rename_i long
    have inside : 9 + 32 ≤ m.length := by
      simp only [ExptTun] at long
      omega
    rw [if_pos inside]

theorem infoRead {size front : Nat} (nearby : Bool) (covers : front + 14 ≤ size) : readInfo size front nearby m =
    some (if m.length < size then .nothing else
      .conn ⟨ip4At m front,ip4At m (front + 4),ip4At m (front + 8),portAt m (front + 12),nearby⟩) := by
  unfold readInfo
  split
  · rfl
  · rename_i long
    have src : front + 4 ≤ m.length := by omega
    have dst : front + 4 + 4 ≤ m.length := by omega
    have ip : front + 8 + 4 ≤ m.length := by omega
    have port : front + 12 + 2 ≤ m.length := by omega
    simp only [ip4In,portIn,if_pos src,if_pos dst,if_pos ip,if_pos port]
    rfl

theorem udp4ConnRead : readUdp4Conn m = some (if m.length < Conn.size then .nothing else
    .conn ⟨Conn.src m,Conn.dst m,ip4At m 9,portAt m 13,false⟩) := infoRead false (by decide)

theorem generalRead : readGeneral m = some (if m.length < connLocalSize then .nothing else
    .conn ⟨General.src m,General.dst m,ip4At m 12,portAt m 16,true⟩) := infoRead true (by decide)

theorem discoveryRead : readDiscovery m =
    some (if m.length < Discovery.size then .nothing else .discovery (Discovery.src m) (Discovery.dst m)) := by
  unfold readDiscovery
  split
  · rfl
  · rename_i long
    simp only [Discovery.size] at long
    have dst : 5 + 4 ≤ m.length := by omega
    have src : 1 + 4 ≤ m.length := by omega
    simp only [ip4In,if_pos dst,if_pos src]
    rfl

variable (env : Env) (c : Client) (now : BitVec 64)

theorem discoveryActs : (handleDiscoveryMsg env c m).map (fun sent => (c,sent)) = (readDiscovery m).bind (act env c now) := by
  rw [discoveryRead,handleDiscoveryMsg]
  split
  · rfl
  · by_cases asked : Discovery.dst m = broadcast
    · simp only [act,asked,if_true,bind,Option.bind_some]
      exact Option.map_bind
    · simp only [act,asked,if_false,bind,Option.bind_some]
      rfl

theorem routeActs : (handleRouteMsg m).map (fun sent => (c,sent)) = (readRoute m).bind (act env c now) := by
  unfold readRoute handleRouteMsg
  split
  · rfl
  · rename_i long
    have size : 1 < m.length := by omega
    simp only [byteIn,if_pos size,bind,Option.bind_some]
    cases (List.range (byteAt m 1).toNat).mapM (routeEntry m) with
    | none => rfl
    | some entries => rfl

end

theorem readActs (env : Env) (c : Client) (kind : Byte) (rest : Bytes) (now : BitVec 64) :
    handleWsMsg env c (kind::rest) now = (readFrame (kind::rest)).bind (act env c now) := by
  have front : byteIn (kind::rest) 0 = some kind := rfl
  unfold handleWsMsg readFrame
  have first : byteAt (kind::rest) 0 = kind := rfl
  simp only [front,first,bind,Option.bind_some]
  by_cases forward : kind = Kind.FORWARD
  · rw [if_pos forward,if_pos forward]
    rw [forwardRead,handleForwardMsg]
    split <;> rfl
  rw [if_neg forward,if_neg forward]
  by_cases exptTun : kind = Kind.EXPTTUN
  · rw [if_pos exptTun,if_pos exptTun]
    rw [exptTunRead,handleExptTunMsg]
    split <;> rfl
  rw [if_neg exptTun,if_neg exptTun]
  by_cases udp4 : kind = Kind.UDP4CONN
  · rw [if_pos udp4,if_pos udp4]
    rw [udp4ConnRead,handleUdp4ConnMsg]
    split <;> rfl
  rw [if_neg udp4,if_neg udp4]
  by_cases discovery : kind = Kind.DISCOVERY
  · rw [if_pos discovery,if_pos discovery]
    exact discoveryActs env c now
  rw [if_neg discovery,if_neg discovery]
  by_cases route : kind = Kind.ROUTE
  · rw [if_pos route,if_pos route]
    exact routeActs env c now
  rw [if_neg route,if_neg route]
  by_cases ge : kind = Kind.GENERAL
  · rw [if_pos ge,if_pos ge]
    rw [generalRead,handleGeneralMsg]
    split <;> rfl
  · rw [if_neg ge,if_neg ge]
    rfl

/- Nothing is read that was not received, the text of an address and every route for
the Tun module are pieces of the frame. -/
def Inside (m : Bytes) : Prop := (readFrame m).isSome ∧ (∀ cidr, readFrame m = some (.exptTun cidr) → cidr <:+: m) ∧
  ∀ env c now out, handleWsMsg env c m now = some out →
    ∀ data, .sysRt data ∈ written .tun out.2 → data.length = 12 ∧ data <:+: m

theorem entriesRead {m : Bytes} {entries : List Bytes} {indexes : List Nat} (ok : indexes.mapM (routeEntry m) = some entries) :
    ∀ data ∈ entries, data.length = 12 ∧ data <:+: m := by
  induction indexes generalizing entries with
  | nil => cases ok; simp
  | cons idx indexes ih =>
    simp only [List.mapM_cons,bind,Option.bind_eq_some_iff] at ok
    obtain ⟨data,entry,more,others,last⟩ := ok
    cases Option.some.inj last
    intro other member
    rcases List.mem_cons.mp member with rfl | member
    · unfold routeEntry at entry
      split at entry <;> try contradiction
      rename_i room
      cases Option.some.inj entry
      refine ⟨by rw [field,List.length_take,List.length_drop]; omega,?_⟩
      exact (List.take_prefix _ _).isInfix.trans (List.drop_suffix _ _).isInfix
    · exact ih others other member

theorem entriesInside {m : Bytes} {indexes : List Nat} :
    (indexes.mapM (routeEntry m)).isSome ↔ ∀ idx ∈ indexes, 4 + 12 * (idx + 1) ≤ m.length := by
  induction indexes with
  | nil => simp
  | cons idx indexes ih =>
    rw [List.forall_mem_cons,← ih,List.mapM_cons]
    have entry : (routeEntry m idx).isSome ↔ 4 + 12 * (idx + 1) ≤ m.length := by
      unfold routeEntry
      split
      · rename_i room; simp [room]
      · rename_i short; simp [short]
    rw [← entry]
    cases routeEntry m idx with
    | none => simp
    | some data => cases indexes.mapM (routeEntry m) <;> simp

theorem routesWritten (entries : List Bytes) :
    written .tun (entries.flatMap fun data => [Effect.write .tun (.sysRt data),.write .peer (.sysRt [])]) = entries.map Msg.sysRt := by
  induction entries with
  | nil => rfl
  | cons entry entries ih =>
    rw [List.map_cons,← ih]
    rfl

theorem routeInside {m : Bytes} : (readRoute m).isSome ↔ m.length < 4 ∨ 4 + 12 * (byteAt m 1).toNat ≤ m.length := by
  unfold readRoute
  split
  · rename_i short; simp [short]
  · rename_i long
    have size : 1 < m.length := by omega
    have entries : ((List.range (byteAt m 1).toNat).mapM (routeEntry m)).isSome ↔ _ := entriesInside
    have all : (∀ idx ∈ List.range (byteAt m 1).toNat, 4 + 12 * (idx + 1) ≤ m.length) ↔ 4 + 12 * (byteAt m 1).toNat ≤ m.length := by
      constructor
      · intro each
        by_contra short
        have last := each ((byteAt m 1).toNat - 1) (List.mem_range.mpr (by omega))
        omega
      · intro room idx member
        have := List.mem_range.mp member
        omega
    rw [all] at entries
    simp only [byteIn,if_pos size,bind,Option.bind_some,long,false_or]
    rw [← entries]
    cases (List.range (byteAt m 1).toNat).mapM (routeEntry m) <;> simp

def Fields.Plain (m : Bytes) (f : Fields) : Prop :=
  (∀ entries, f ≠ .routes entries) ∧ ∀ cidr, f = .exptTun cidr → cidr = ExptTun.cidr m

theorem othersRead {kind : Byte} {rest : Bytes} (other : kind ≠ Kind.ROUTE) :
    ∃ f, readFrame (kind::rest) = some f ∧ f.Plain (kind::rest) := by
  have front : byteIn (kind::rest) 0 = some kind := rfl
  have nothing : Fields.nothing.Plain (kind::rest) := ⟨by simp,by simp⟩
  have plain {small : Prop} [Decidable small] {f : Fields} (own : f.Plain (kind::rest)) :
      ∃ g, some (if small then .nothing else f) = some g ∧ g.Plain (kind::rest) := by
    split
    · exact ⟨_,rfl,nothing⟩
    · exact ⟨_,rfl,own⟩
  simp only [readFrame,front,bind,Option.bind_some,if_neg other]
  split
  · rw [forwardRead]; exact plain ⟨by simp,by simp⟩
  split
  · rw [exptTunRead]; exact plain ⟨by simp,by simp⟩
  split
  · rw [udp4ConnRead]; exact plain ⟨by simp,by simp⟩
  split
  · rw [discoveryRead]; exact plain ⟨by simp,by simp⟩
  split
  · rw [generalRead]; exact plain ⟨by simp,by simp⟩
  · exact ⟨_,rfl,nothing⟩

theorem cidrInside (m : Bytes) : ExptTun.cidr m <:+: m :=
  (List.takeWhile_prefix _).isInfix.trans (List.drop_suffix _ _).isInfix

theorem routeNoText {m cidr : Bytes} : readRoute m ≠ some (.exptTun cidr) := by
  intro read
  unfold readRoute at read
  split at read
  · cases read
  · simp only [bind,Option.bind_eq_some_iff] at read
    obtain ⟨_,_,_,_,last⟩ := read
    cases last

theorem writtenMem {queue : Queue} {msg : Msg} {effects : List Effect} (member : msg ∈ written queue effects) :
    .write queue msg ∈ effects := by
  induction effects with
  | nil => contradiction
  | cons effect rest ih =>
    cases effect with
    | write q other =>
      by_cases same : q = queue
      · subst same
        rw [written,if_pos rfl] at member
        rcases List.mem_cons.mp member with rfl | later
        · exact List.mem_cons_self ..
        · exact List.mem_cons_of_mem _ (ih later)
      · rw [written,if_neg same] at member
        exact List.mem_cons_of_mem _ (ih member)
    | _ => exact List.mem_cons_of_mem _ (ih member)

theorem exptTunActed {env : Env} {c : Client} {now : BitVec 64} {cidr : Bytes} {out : Client × List Effect}
    (ok : act env c now (.exptTun cidr) = some out) : ∃ tunCidr, ∃ a : Address, out = ({c with tunCidr := tunCidr},
      [.sendFrame (authFrame env c.password a.host now),.write .tun (.tunAddr a.toCidr),.write .peer (.tunAddr a.toCidr),.sendPing]) := by
  simp only [act,bind,Option.bind_eq_some_iff] at ok
  obtain ⟨exptTun,_,sent,auth,last⟩ := ok
  obtain ⟨a,_,same⟩ := Option.map_eq_some_iff.mp auth
  subst same
  cases Option.some.inj last
  exact ⟨exptTun.toCidr,a,rfl⟩

theorem discoveryActed {env : Env} {c : Client} {now : BitVec 64} {src dst : IP4} {out : Client × List Effect}
    (ok : act env c now (.discovery src dst) = some out) : ∃ sent, out = (c,sent ++ [.write .peer (.tryP2P src.toString)]) ∧
      ∀ effect ∈ sent, ∃ a : Address, effect = .sendFrame (discoveryFrame a.host src) := by
  simp only [act] at ok
  split at ok
  · obtain ⟨sent,answer,last⟩ := Option.bind_eq_some_iff.mp ok
    obtain ⟨a,_,same⟩ := Option.map_eq_some_iff.mp answer
    subst same
    cases Option.some.inj last
    exact ⟨_,rfl,fun effect inside => ⟨a,List.mem_singleton.mp inside⟩⟩
  · cases Option.some.inj ok
    exact ⟨[],rfl,by simp⟩

theorem actRoutes {env : Env} {c : Client} {now : BitVec 64} {f : Fields} {out : Client × List Effect}
    (ok : act env c now f = some out) {data : Bytes} (member : .sysRt data ∈ written .tun out.2) :
    ∃ entries, f = .routes entries ∧ data ∈ entries := by
  cases f with
  | routes entries =>
    cases Option.some.inj ok
    rw [routesWritten] at member
    obtain ⟨entry,inside,same⟩ := List.mem_map.mp member
    cases same
    exact ⟨entries,rfl,inside⟩
  | forward saddr packet =>
    cases Option.some.inj ok
    split at member <;> simp [written] at member
  | exptTun cidr =>
    obtain ⟨tunCidr,a,rfl⟩ := exptTunActed ok
    simp [written] at member
  | conn info => cases Option.some.inj ok; simp [written] at member
  | discovery src dst =>
    obtain ⟨sent,rfl,frames⟩ := discoveryActed ok
    rcases List.mem_append.mp (writtenMem member) with inside | inside
    · obtain ⟨a,frame⟩ := frames _ inside
      contradiction
    · simp at inside
  | nothing => cases Option.some.inj ok; simp [written] at member

theorem routeRoutes {m : Bytes} {entries : List Bytes} (ok : readRoute m = some (.routes entries)) :
    ∀ data ∈ entries, data.length = 12 ∧ data <:+: m := by
  unfold readRoute at ok
  split at ok
  · cases ok
  · simp only [bind,Option.bind_eq_some_iff] at ok
    obtain ⟨_,_,_,read,last⟩ := ok
    cases Option.some.inj last
    exact entriesRead read

theorem framesInside (kind : Byte) (rest : Bytes) : Inside (kind::rest) ↔
    kind ≠ Kind.ROUTE ∨ (kind::rest).length < 4 ∨ 4 + 12 * (byteAt (kind::rest) 1).toNat ≤ (kind::rest).length := by
  have acted {env c now out} (ok : handleWsMsg env c (kind::rest) now = some out) {data : Bytes}
      (member : .sysRt data ∈ written .tun out.2) : ∃ entries, readFrame (kind::rest) = some (.routes entries) ∧ data ∈ entries := by
    rw [readActs] at ok
    obtain ⟨f,read,acting⟩ := Option.bind_eq_some_iff.mp ok
    obtain ⟨entries,rfl,inside⟩ := actRoutes acting member
    exact ⟨entries,read,inside⟩
  by_cases route : kind = Kind.ROUTE
  · subst route
    rw [← routeInside]
    constructor
    · exact fun inside => .inr inside.1
    · rintro (other | read)
      · contradiction
      · refine ⟨read,fun cidr text => absurd text routeNoText,fun env c now out ok data member => ?_⟩
        obtain ⟨entries,read,inside⟩ := acted ok member
        exact routeRoutes read data inside
  · obtain ⟨f,read,other,own⟩ := @othersRead kind rest route
    refine iff_of_true ⟨by rw [read]; rfl,?_,fun env c now out ok data member => ?_⟩ (.inl route)
    · intro cidr text
      rw [own cidr (Option.some.inj (read.symm.trans text))]
      exact cidrInside _
    · obtain ⟨entries,routes,_⟩ := acted ok member
      exact absurd (Option.some.inj (read.symm.trans routes)) (other entries)

theorem announcedRoute : ¬ Inside [Kind.ROUTE,1,0,0] := by
  have outside : readFrame [Kind.ROUTE,1,0,0] = none := by decide
  intro inside
  have read := inside.1
  rw [outside] at read
  contradiction

end Candy.WsClient
