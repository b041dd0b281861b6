import Candy.PeerRoutes

/-! Two clients and the heartbeats between them. A heartbeat once sent stays in the
network, so it may arrive at any later time, from any address and any number of
times, or never. A client may lose its peers altogether and start again while its
old heartbeats are still under way; what it has accepted is remembered here, not
by the client. The ack bit is the only evidence: who sends it has accepted. -/
namespace Candy.P2P
open Runs

inductive Side where
  | A
  | B
  deriving DecidableEq, Repr

def Side.other : Side → Side
  | .A => .B
  | .B => .A

/- produced are the heartbeats of a side's Peer object for the other one. -/
structure Pair where
  client : Side → Client
  produced : Side → List Heartbeat
  accepted : Side → Bool

inductive Pair.Event where
  | input (side : Side) (i : Input)
  | restarted (side : Side) (address : IP4) (p2pOnly : Bool)

namespace Pair
variable (ip : Side → IP4)

def start (manager : Side → Manager) (address : Side → IP4) (p2pOnly : Side → Bool) : Pair :=
  ⟨fun side => Client.start {manager side with tunIp := ip side} (address side) (p2pOnly side),
    fun _ => [],fun _ => false⟩

def accepts (c : Client) (peer : IP4) (i : Input) : Bool :=
  match i.event with
  | .heartbeat _ heartbeat => heartbeat.tunip = peer ∧ ((c.ipPeerMap.lookup peer).any fun p => p.accepts)
  | _ => false

def produces (peer : IP4) : Datagram → Option Heartbeat
  | .heartbeat target heartbeat => if target = peer then some heartbeat else none
  | _ => none

/- Members are honest: a heartbeat that names the other side comes from its Peer. -/
def Honest (s : Pair) (side : Side) (i : Input) : Prop :=
  match i.event with
  | .heartbeat _ heartbeat => heartbeat.tunip = ip side.other → heartbeat ∈ s.produced side.other
  | _ => True

instance (s : Pair) (side : Side) (i : Input) : Decidable (Honest ip s side i) := by
  unfold Honest; split <;> infer_instance

def after (s : Pair) (side : Side) (i : Input) (c : Client) (sent : List Datagram) : Pair where
  client := Function.update s.client side c
  produced := Function.update s.produced side (s.produced side ++ sent.filterMap (produces (ip side.other)))
  accepted := Function.update s.accepted side (s.accepted side || accepts (s.client side) (ip side.other) i)

def handle (s : Pair) : Event → Option Pair
  | .input side i =>
    if Honest ip s side i then ((s.client side).handle i).map (fun out => s.after ip side i out.1 out.2) else none
  | .restarted side address p2pOnly =>
    some {s with client := Function.update s.client side (Client.start (s.client side).manager address p2pOnly)}

def step (s : Pair) (e : Event) (t : Pair) : Prop := s.handle ip e = some t

/- What one side knows, and what it has sent, is backed by what it has accepted. -/
structure Witnessed (s : Pair) (side : Side) : Prop where
  ack : ∀ p, (s.client side).ipPeerMap.lookup (ip side.other) = some p → p.ack ≠ 0 → s.accepted side
  sent : ∀ h ∈ s.produced side, h.ack ≠ 0 → s.accepted side
  connected : ∀ p, (s.client side).ipPeerMap.lookup (ip side.other) = some p → p.state = .CONNECTED →
    s.accepted side ∧ s.accepted side.other

variable {ip}

theorem startWitnessed (manager : Side → Manager) (address : Side → IP4) (p2pOnly : Side → Bool) (side : Side) :
    Witnessed ip (start ip manager address p2pOnly) side where
  ack := fun _ found => by simp [start,Client.start] at found
  sent := fun _ member => by simp [start] at member
  connected := fun _ found => by simp [start,Client.start] at found

theorem peerMoves {c c' : Client} {i : Input} {sent : List Datagram} {peer : IP4}
    (ok : c.handle i = some (c',sent)) :
    (∀ q, c'.ipPeerMap.lookup peer = some q →
      (q.ack ≠ 0 → accepts c peer i ∨ ∃ p, c.ipPeerMap.lookup peer = some p ∧ p.ack ≠ 0) ∧
      (q.state = .CONNECTED → (accepts c peer i ∧ ∃ address h, i.event = .heartbeat address h ∧ h.tunip = peer ∧ h.ack ≠ 0) ∨
        ∃ p, c.ipPeerMap.lookup peer = some p ∧ p.state = .CONNECTED)) ∧
    (∀ h ∈ sent.filterMap (produces peer), h.ack ≠ 0 → ∃ p, c.ipPeerMap.lookup peer = some p ∧ p.ack ≠ 0) := by
  have none (sent : List Datagram) (silent : ∀ key h, Datagram.heartbeat key h ∉ sent) (h : Heartbeat) :
      h ∉ sent.filterMap (produces peer) := by
    intro member
    obtain ⟨d,inside,eq⟩ := List.mem_filterMap.mp member
    cases d with
    | heartbeat key beat => exact silent key beat inside
    | delay => contradiction
    | route => contradiction
  cases Client.handleStepped ok with
  | @peer key p e q _ _ known heard _ stepped =>
    obtain ⟨calls,moved⟩ := stepped.moved
    have idle (seed : BitVec 32) (same : p = Peer.fresh key seed) : p.ack = 0 ∧ p.state ≠ .CONNECTED ∧ ¬ p.accepts := by
      subst same; simp [Peer.fresh,Peer.accepts,Peer.Idle]
    refine ⟨fun r found => ?_,fun h member marked => ?_⟩
    · rw [stepped.kept,Table.lookupInsert] at found
      split at found
      · rename_i same
        subst same
        cases Option.some.inj found
        have took (address : SocketAddress) (ack : Byte) (eq : e = .heartbeat address ack) (passed : p.accepts) :
            accepts c peer i = true := by
          obtain ⟨found,event⟩ := heard address ack eq
          simp [accepts,event,found,passed]
        refine ⟨fun marked => ?_,fun entered => ?_⟩
        · rcases moved.ack marked with before | ⟨passed,address,ack,eq⟩
          · rcases known with found | ⟨_,seed,fresh⟩
            · exact .inr ⟨p,found,before⟩
            · exact absurd (idle seed fresh).1 before
          · exact .inl (took address ack eq passed)
        · rcases moved.connected entered with before | ⟨passed,address,ack,eq,marked⟩
          · rcases known with found | ⟨_,seed,fresh⟩
            · exact .inr ⟨p,found,before⟩
            · exact absurd before (idle seed fresh).2.1
          · exact .inl ⟨took address ack eq passed,address,_,(heard address ack eq).2,rfl,marked⟩
      · exact ⟨fun marked => .inr ⟨r,found,marked⟩,fun entered => .inr ⟨r,found,entered⟩⟩
    · obtain ⟨d,inside,eq⟩ := List.mem_filterMap.mp member
      cases d with
      | delay => contradiction
      | route => contradiction
      | heartbeat key beat =>
        obtain ⟨toPeer,same⟩ := Option.ite_none_right_eq_some.mp eq
        cases Option.some.inj same
        obtain ⟨own,content⟩ := stepped.beats key _ inside
        have marked : p.ack ≠ 0 := by rw [content] at marked; exact marked
        rcases known with found | ⟨_,seed,fresh⟩
        · exact ⟨p,by rw [← toPeer,own,found],marked⟩
        · exact absurd (idle seed fresh).1 marked
  | quiet _ _ _ silent =>
    exact ⟨fun q found => ⟨fun marked => .inr ⟨q,found,marked⟩,fun entered => .inr ⟨q,found,entered⟩⟩,
      fun h member => absurd member (none _ silent h)⟩
  | offered _ same updated =>
    obtain ⟨kept,_,silent⟩ := Client.updateClient updated
    refine ⟨fun q found => ?_,fun h member => absurd member (none _ silent h)⟩
    rw [kept] at found
    obtain ⟨p,before,eq⟩ := Client.retimedFound same found
    have ack : p.ack = q.ack := (congrArg Peer.ack eq :)
    have state : p.state = q.state := (congrArg Peer.state eq :)
    exact ⟨fun marked => .inr ⟨p,before,ack ▸ marked⟩,fun entered => .inr ⟨p,before,state ▸ entered⟩⟩

theorem inputWitnessed {s : Pair} {side : Side} {i : Input} {c : Client} {sent : List Datagram}
    (witnessed : ∀ side, Witnessed ip s side) (honest : Honest ip s side i)
    (handled : (s.client side).handle i = some (c,sent)) : ∀ side', Witnessed ip (s.after ip side i c sent) side' := by
  obtain ⟨peers,beats⟩ := @peerMoves _ _ _ _ (ip side.other) handled
  have here := witnessed side
  intro k
  have far : side.other ≠ side := by cases side <;> decide
  by_cases same : k = side
  · subst same
    refine ⟨fun q found marked => ?_,fun h member marked => ?_,fun q found entered => ?_⟩
    · simp only [after,Function.update_self] at found ⊢
      rcases (peers q found).1 marked with now | ⟨p,before,marked⟩
      · simp [now]
      · simp [here.ack p before marked]
    · simp only [after,Function.update_self] at member ⊢
      rcases List.mem_append.mp member with old | fresh
      · simp [here.sent h old marked]
      · obtain ⟨p,before,marked⟩ := beats h fresh marked
        simp [here.ack p before marked]
    · simp only [after,Function.update_self,Function.update_of_ne far] at found ⊢
      rcases (peers q found).2 entered with ⟨now,address,h,event,source,marked⟩ | ⟨p,before,entered⟩
      · have inFlight : h ∈ s.produced k.other := by
          simp only [Honest,event] at honest
          exact honest source
        exact ⟨by simp [now],(witnessed k.other).sent h inFlight marked⟩
      · obtain ⟨own,their⟩ := here.connected p before entered
        exact ⟨by simp [own],their⟩
  · have there := witnessed k
    have back : k.other = side := by cases k <;> cases side <;> first | rfl | exact absurd rfl same
    refine ⟨fun q found marked => ?_,fun h member marked => ?_,fun q found entered => ?_⟩
    · simp only [after,Function.update_of_ne same] at found ⊢; exact there.ack q found marked
    · simp only [after,Function.update_of_ne same] at member ⊢; exact there.sent h member marked
    · simp only [after,Function.update_of_ne same] at found ⊢
      obtain ⟨own,their⟩ := there.connected q found entered
      rw [back] at their ⊢
      simp only [Function.update_self]
      exact ⟨own,by simp [their]⟩

theorem restartWitnessed {s : Pair} (witnessed : ∀ side, Witnessed ip s side) (side : Side) (manager : Manager)
    (address : IP4) (p2pOnly : Bool) :
    ∀ k, Witnessed ip {s with client := Function.update s.client side (Client.start manager address p2pOnly)} k := by
  intro k
  have there := witnessed k
  by_cases same : k = side
  · subst same
    have forgotten (p : Peer) : (Client.start manager address p2pOnly).ipPeerMap.lookup (ip k.other) ≠ some p := by
      simp [Client.start]
    refine ⟨fun p found => ?_,there.sent,fun p found => ?_⟩
    · simp only [Function.update_self] at found; exact absurd found (forgotten p)
    · simp only [Function.update_self] at found; exact absurd found (forgotten p)
  · refine ⟨fun p found => ?_,there.sent,fun p found => ?_⟩
    · simp only [Function.update_of_ne same] at found; exact there.ack p found
    · simp only [Function.update_of_ne same] at found; exact there.connected p found

theorem stepWitnessed {s t : Pair} {e : Event} (witnessed : ∀ side, Witnessed ip s side) (stepped : step ip s e t) :
    ∀ side, Witnessed ip t side := by
  cases e with
  | input side i =>
    simp only [step,handle] at stepped
    split at stepped <;> try contradiction
    rename_i honest
    obtain ⟨⟨c,sent⟩,handled,rfl⟩ := Option.map_eq_some_iff.mp stepped
    exact inputWitnessed witnessed honest handled
  | restarted side address p2pOnly =>
    cases Option.some.inj stepped
    exact restartWitnessed witnessed side _ address p2pOnly

theorem connectedBothWays (ip : Side → IP4) (manager : Side → Manager) (address : Side → IP4) (p2pOnly : Side → Bool)
    (events : List Event) (s : Pair) (run : Run (step ip) (start ip manager address p2pOnly) events s) (side : Side)
    (connected : (s.client side).Connected (ip side.other)) : s.accepted side ∧ s.accepted side.other := by
  obtain ⟨p,found,here⟩ := connected
  have witnessed := run.invariant (startWitnessed manager address p2pOnly)
    fun _ _ _ witnessed stepped => stepWitnessed witnessed stepped
  exact (witnessed side).connected p found here

/- Both sides learn the other's public address, then A's first heartbeat is answered. -/
def ends : Side → IP4
  | .A => Client.member 1
  | .B => Client.member 2

def publicOf : Side → SocketAddress
  | .A => ⟨.v4 ⟨8,8,8,1⟩,4000⟩
  | .B => ⟨.v4 ⟨8,8,8,2⟩,4000⟩

def punched : List Event :=
  let at' (side : Side) (e : P2P.Event) : Event := .input side ⟨e,⟨0,0,0⟩,0⟩
  let learnt (side : Side) (ip : IP4) : List Event :=
    [at' side (.pubInfo ⟨ends side.other,ends side,ip,4000,false⟩),at' side (.stunResponse (ends side.other))]
  learnt .A ⟨8,8,8,2⟩ ++ learnt .B ⟨8,8,8,1⟩ ++
    [at' .A (.tick (ends .B)),at' .B (.heartbeat (publicOf .A) ⟨ends .A,0⟩),at' .B (.tick (ends .A)),
      at' .A (.heartbeat (publicOf .B) ⟨ends .B,1⟩)]

theorem punchedBothWays : ∃ s, Run (step ends) (start ends (fun _ => Client.relayer.manager) ends (fun _ => false)) punched s ∧
    (s.client .A).Connected (ends .B) ∧ s.accepted .A ∧ s.accepted .B := by
  have outcome : (execute (handle ends) (start ends (fun _ => Client.relayer.manager) ends (fun _ => false)) punched).map
      (fun s => ((s.client .A).ipPeerMap.lookup (ends .B)).map Peer.state) = some (some .CONNECTED) := by
    decide +kernel
  obtain ⟨s,ok,same⟩ := Option.map_eq_some_iff.mp outcome
  have run := executeRun (fun _ _ _ taken => taken) ok
  have connected : (s.client .A).Connected (ends .B) := Option.map_eq_some_iff.mp same
  exact ⟨s,run,connected,connectedBothWays ends _ ends _ punched s run .A connected⟩

end Pair
end Candy.P2P
