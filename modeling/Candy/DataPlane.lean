import Candy.PeerClient
import Candy.ServerSteps
import Candy.WsClient

/-! A packet on its way from one client's Tun module to another's, by
src/peer/manager.cc, src/peer/peer.cc and the two websocket ends. It is somewhere:
in a queue, encrypted in a datagram, or in a frame to or from the server. Whoever
holds it handles it in whatever state it is in, and every framing that is put on
is taken off again at the other end, however the hops are mixed. -/
namespace Candy.DataPlane
open WsMsg CoreMsg Runs

abbrev Key := Bytes

/- AES-256-GCM: an iv of 12 bytes, a tag of 16, a ciphertext as long as the text. -/
structure Aead where
  encrypt : Key → Bytes → Bytes → Bytes × Bytes
  decrypt : Key → Bytes → Bytes → Bytes → Option Bytes
  tagLength : ∀ key iv m, (encrypt key iv m).1.length = 16
  textLength : ∀ key iv m, (encrypt key iv m).2.length = m.length
  opens : ∀ key iv m, decrypt key iv (encrypt key iv m).1 (encrypt key iv m).2 = some m

structure Iv where
  bytes : Bytes
  length : bytes.length = 12
  deriving DecidableEq

structure Network where
  aead : Aead
  sha : Digest
  password : Bytes

/- The key of a member: the hash of the password and its address, lowest byte first. -/
def Network.key (n : Network) (ip : IP4) : Key := n.sha.sha256 (n.password ++ [ip.raw3,ip.raw2,ip.raw1,ip.raw0])

/- How a datagram leaves: the random iv if everything in openssl worked, whether it
got into the network, and whether sendTo reported all of it. -/
structure Attempt where
  iv : Option Iv
  sent : Bool
  whole : Bool
  deriving DecidableEq

namespace PeerMsg
def FORWARD : Byte := 1
def forwardSize : Nat := 21
def forward (packet : Bytes) : Bytes := FORWARD::packet
end PeerMsg

structure Sealed where
  key : Key
  datagram : Bytes
  deriving DecidableEq, Repr

/- More than 1500 bytes would be written behind the ciphertext. -/
def encrypt (n : Network) (key : Key) (iv : Option Iv) (plaintext : Bytes) : Option (Option Bytes) :=
  match iv with
  | none => some none
  | some iv =>
    if plaintext.length > 1500 then none else
    let out := n.aead.encrypt key iv.bytes plaintext
    some (some (iv.bytes ++ out.1 ++ out.2))

def decrypt (n : Network) (key : Key) (ciphertext : Bytes) : Option Bytes :=
  if key.length ≠ 32 then none
  else if ciphertext.length < 28 then none
  else n.aead.decrypt key (ciphertext.take 12) (field ciphertext 12 16) (ciphertext.drop 28)

/- Whether sending counts as done, and the datagrams on their way. -/
def sendEncrypted (n : Network) (p : P2P.Peer) (a : Attempt) (data : Bytes) : Option (Bool × List Sealed) := do
  let sealed ← encrypt n (n.key p.addr) a.iv data
  match sealed with
  | none => some (false,[])
  | some datagram => match p.real with
    | none => some (false,[])
    | some _ => some (a.whole,if a.sent then [⟨n.key p.addr,datagram⟩] else [])

def sendPacketDirect (n : Network) (c : P2P.Client) (a : Attempt) (dst : IP4) (data : Bytes) :
    Option (Bool × List Sealed) :=
  match c.ipPeerMap.lookup dst with
  | some p => if p.isConnected.isSome then sendEncrypted n p a (PeerMsg.forward data) else some (false,[])
  | none => some (false,[])

def sendPacketRelay (n : Network) (c : P2P.Client) (a : Attempt) (dst : IP4) (data : Bytes) :
    Option (Bool × List Sealed) :=
  match c.rtTableMap.lookup dst with
  | none => some (false,[])
  | some entry => sendPacketDirect n c a entry.next data

def sendPacket (n : Network) (c : P2P.Client) (relay direct : Attempt) (dst : IP4) (data : Bytes) :
    Option (Bool × List Sealed) := do
  let (done,sent) ← sendPacketRelay n c relay dst data
  if done then some (true,sent)
  else do
    let (done,more) ← sendPacketDirect n c direct dst data
    some (done,sent ++ more)

def resolvePeerTarget (c : P2P.Client) (dst : IP4) : IP4 :=
  match c.rtTableMap.lookup dst with
  | none => dst
  | some entry => entry.next

/- A packet in the peer queue: the datagrams sent, and what goes on by another way.
In p2p-only mode a connection is tried and the packet dropped. -/
inductive Rest where
  | sent
  | tryP2P (peer : IP4)
  | ws (data : Bytes)
  deriving DecidableEq, Repr

def handlePacket (n : Network) (c : P2P.Client) (relay direct : Attempt) (data : Bytes) : Option (List Sealed × Rest) :=
  if data.length < 20 then none else do
  let daddr := ip4At data 16
  let (done,sent) ← sendPacket n c relay direct daddr data
  if done then some (sent,.sent)
  else if c.p2pOnly then some (sent,.tryP2P (resolvePeerTarget c daddr))
  else some (sent,.ws data)

def handleForwardMessage (c : P2P.Client) (buffer : Bytes) : Option (Queue × Bytes) :=
  if buffer.length < PeerMsg.forwardSize then none else
  let packet := buffer.drop 1
  if ip4At packet 16 = c.manager.tunIp then some (.tun,packet) else some (.peer,packet)

/- What PeerManager::poll does with a datagram; other kinds than FORWARD carry no packet. -/
def receive (n : Network) (c : P2P.Client) (datagram : Bytes) : Option (Queue × Bytes) := do
  let plaintext ← decrypt n (n.key c.manager.tunIp) (datagram.take 1500)
  if byteAt plaintext 0 = PeerMsg.FORWARD then handleForwardMessage c plaintext else none

inductive Place where
  | peerQueue (node : IP4) (data : Bytes)
  | wire (sealed : Sealed)
  | wsQueue (node : IP4) (data : Bytes)
  | uplink (node : IP4) (frame : Bytes)
  | downlink (target : Server.Ptr) (frame : Bytes)
  | tunQueue (node : IP4) (data : Bytes)
  deriving DecidableEq, Repr

/- Who handles the packet next, in the state it is in. -/
inductive Hop where
  | packet (c : P2P.Client) (relay direct : Attempt)
  | datagram (c : P2P.Client)
  | flushed (env : WsClient.Env) (c : WsClient.Client)
  | served (env : Server.Env) (s : Server.State) (p : Server.Ptr) (now : BitVec 64)
  | frame (env : WsClient.Env) (node : IP4) (c : WsClient.Client) (now : BitVec 64)

def queued (node : IP4) : Option (Queue × Bytes) → List Place
  | some (.tun,data) => [.tunQueue node data]
  | some (.peer,data) => [.peerQueue node data]
  | _ => []

def rest (node : IP4) : Rest → List Place
  | .ws data => [.wsQueue node data]
  | _ => []

def frames (node : IP4) : List WsClient.Effect → List Place :=
  List.filterMap fun
    | .sendFrame frame => some (.uplink node frame)
    | _ => none

def deliveries : List Server.Effect → List Place :=
  List.filterMap fun
    | .send target frame => some (.downlink target frame)
    | _ => none

def packets (node : IP4) (effects : List WsClient.Effect) : List Place :=
  (WsClient.written .tun effects).filterMap fun
    | .packet data => some (.tunQueue node data)
    | _ => none

/- Where the packet is after a hop. A datagram that comes to a client with another
key fails its tag check there. -/
def move (n : Network) : Place → Hop → Option (List Place)
  | .peerQueue node data,.packet c relay direct =>
    if c.manager.tunIp = node then
      (handlePacket n c relay direct data).map fun out => out.1.map .wire ++ rest node out.2
    else none
  | .wire sealed,.datagram c =>
    if n.key c.manager.tunIp = sealed.key then some (queued c.manager.tunIp (receive n c sealed.datagram)) else some []
  | .wsQueue node data,.flushed env c => (WsClient.handleWsQueue env c (.packet data)).map (frames node)
  | .uplink _ frame,.served env s p now =>
    (Server.handle env s (.received p frame now)).map fun out => deliveries out.2
  | .downlink _ frame,.frame env node c now =>
    if frame.length ≤ 1500 then (WsClient.handleWsMsg env c frame now).map fun out => packets node out.2 else none
  | _,_ => none

def step (n : Network) (place : Place) (hop : Hop) (next : Place) : Prop :=
  ∃ places, move n place hop = some places ∧ next ∈ places

def Carries (n : Network) (q : Bytes) : Place → Prop
  | .peerQueue _ data => data = q
  | .wire sealed => ∃ iv : Iv, sealed.datagram =
      iv.bytes ++ (n.aead.encrypt sealed.key iv.bytes (PeerMsg.forward q)).1 ++
        (n.aead.encrypt sealed.key iv.bytes (PeerMsg.forward q)).2
  | .wsQueue _ data => data = q
  | .uplink _ frame => frame = Kind.FORWARD::q
  | .downlink _ frame => frame = Kind.FORWARD::q
  | .tunQueue _ data => data = q

theorem decryptEncrypted (n : Network) (ip : IP4) (iv : Iv) (m : Bytes) :
    decrypt n (n.key ip) (iv.bytes ++ (n.aead.encrypt (n.key ip) iv.bytes m).1 ++
      (n.aead.encrypt (n.key ip) iv.bytes m).2) = some m := by
  have opens := n.aead.opens (n.key ip) iv.bytes m
  have tag := n.aead.tagLength (n.key ip) iv.bytes m
  generalize n.aead.encrypt (n.key ip) iv.bytes m = out at opens tag
  have iv12 := iv.length
  have key : (n.key ip).length = 32 := n.sha.length _
  have first : (iv.bytes ++ out.1 ++ out.2).take 12 = iv.bytes := by
    rw [List.append_assoc,List.take_left' iv12]
  have second : field (iv.bytes ++ out.1 ++ out.2) 12 16 = out.1 := by
    rw [field,List.append_assoc,List.drop_left' iv12,List.take_left' tag]
  have third : (iv.bytes ++ out.1 ++ out.2).drop 28 = out.2 :=
    List.drop_left' (by rw [List.length_append]; omega)
  have long : ¬ (iv.bytes ++ out.1 ++ out.2).length < 28 := by
    simp only [List.length_append]; omega
  rw [decrypt,if_neg (not_not.mpr key),if_neg long,first,second,third,opens]

structure Packet (q : Bytes) : Prop where
  header : 20 ≤ q.length
  small : 28 + (1 + q.length) ≤ 1500

theorem encryptedSpec {n : Network} {p : P2P.Peer} {a : Attempt} {data : Bytes} {done : Bool} {sent : List Sealed}
    (ok : sendEncrypted n p a data = some (done,sent)) {m : Sealed} (member : m ∈ sent) :
    p.real.isSome ∧ a.sent = true ∧ ∃ iv, a.iv = some iv ∧ m = ⟨n.key p.addr,iv.bytes ++
      (n.aead.encrypt (n.key p.addr) iv.bytes data).1 ++ (n.aead.encrypt (n.key p.addr) iv.bytes data).2⟩ := by
  simp only [sendEncrypted,bind,Option.bind_eq_some_iff] at ok
  obtain ⟨result,encrypted,ok⟩ := ok
  split at ok
  · cases ok; contradiction
  · split at ok
    · cases ok; contradiction
    · rename_i real
      cases ok
      split at member <;> [skip; contradiction]
      rename_i left
      cases List.mem_singleton.mp member
      unfold encrypt at encrypted
      split at encrypted <;> [cases encrypted; skip]
      rename_i iv whole
      split at encrypted <;> [contradiction; skip]
      cases encrypted
      exact ⟨by rw [real]; rfl,left,iv,whole,rfl⟩

theorem sentCarries {n : Network} {p : P2P.Peer} {a : Attempt} {q : Bytes} {done : Bool} {sent : List Sealed}
    (ok : sendEncrypted n p a (PeerMsg.forward q) = some (done,sent)) : ∀ m ∈ sent, Carries n q (.wire m) := by
  intro m member
  obtain ⟨_,_,iv,_,rfl⟩ := encryptedSpec ok member
  exact ⟨iv,rfl⟩

theorem directCarries {n : Network} {c : P2P.Client} {a : Attempt} {dst : IP4} {q : Bytes} {done : Bool}
    {sent : List Sealed} (ok : sendPacketDirect n c a dst q = some (done,sent)) : ∀ m ∈ sent, Carries n q (.wire m) := by
  unfold sendPacketDirect at ok
  split at ok
  · split at ok
    · exact sentCarries ok
    · cases ok; simp
  · cases ok; simp

theorem relayCarries {n : Network} {c : P2P.Client} {a : Attempt} {dst : IP4} {q : Bytes} {done : Bool}
    {sent : List Sealed} (ok : sendPacketRelay n c a dst q = some (done,sent)) : ∀ m ∈ sent, Carries n q (.wire m) := by
  unfold sendPacketRelay at ok
  split at ok
  · cases ok; simp
  · exact directCarries ok

theorem sendCarries {n : Network} {c : P2P.Client} {relay direct : Attempt} {dst : IP4} {q : Bytes} {done : Bool}
    {sent : List Sealed} (ok : sendPacket n c relay direct dst q = some (done,sent)) :
    ∀ m ∈ sent, Carries n q (.wire m) := by
  simp only [sendPacket,bind,Option.bind_eq_some_iff] at ok
  obtain ⟨⟨relayed,first⟩,viaRelay,ok⟩ := ok
  split at ok
  · cases ok; exact relayCarries viaRelay
  · obtain ⟨⟨directed,more⟩,viaDirect,ok⟩ := Option.bind_eq_some_iff.mp ok
    cases ok
    intro m member
    rcases List.mem_append.mp member with member | member
    · exact relayCarries viaRelay m member
    · exact directCarries viaDirect m member

theorem packetCarries {n : Network} {c : P2P.Client} {relay direct : Attempt} {q : Bytes} {out : List Sealed × Rest}
    (ok : handlePacket n c relay direct q = some out) (node : IP4) :
    ∀ next ∈ out.1.map .wire ++ rest node out.2, Carries n q next := by
  unfold handlePacket at ok
  split at ok <;> [contradiction; skip]
  obtain ⟨⟨done,sent⟩,sending,ok⟩ := Option.bind_eq_some_iff.mp ok
  have wires : ∀ next ∈ sent.map Place.wire, Carries n q next := by
    intro next member
    obtain ⟨m,inside,rfl⟩ := List.mem_map.mp member
    exact sendCarries sending m inside
  have onward : out.1 = sent ∧ ∀ next ∈ rest node out.2, Carries n q next := by
    dsimp only at ok
    split at ok
    · cases ok; exact ⟨rfl,by simp [rest]⟩
    · split at ok
      · cases ok; exact ⟨rfl,by simp [rest]⟩
      · cases ok
        refine ⟨rfl,fun next member => ?_⟩
        cases List.mem_singleton.mp member
        rfl
  intro next member
  rcases List.mem_append.mp member with member | member
  · exact wires next (onward.1 ▸ member)
  · exact onward.2 next member

theorem receiveCarries {n : Network} {c : P2P.Client} {q : Bytes} (packet : Packet q) {m : Sealed}
    (carries : Carries n q (.wire m)) (own : n.key c.manager.tunIp = m.key) :
    ∀ next ∈ queued c.manager.tunIp (receive n c m.datagram), Carries n q next := by
  obtain ⟨iv,content⟩ := carries
  have tag := n.aead.tagLength m.key iv.bytes (PeerMsg.forward q)
  have text := n.aead.textLength m.key iv.bytes (PeerMsg.forward q)
  have whole : m.datagram.take 1500 = m.datagram := by
    apply List.take_of_length_le
    have room := packet.small
    have iv12 := iv.length
    have long : (PeerMsg.forward q).length = q.length + 1 := rfl
    simp only [content,List.length_append]
    omega
  have opened : decrypt n (n.key c.manager.tunIp) (m.datagram.take 1500) = some (PeerMsg.forward q) := by
    rw [whole,content,← own]
    exact decryptEncrypted n c.manager.tunIp iv _
  have taken : receive n c m.datagram = handleForwardMessage c (PeerMsg.forward q) := by
    simp only [receive,opened]
    rfl
  have fits : ¬ (PeerMsg.forward q).length < PeerMsg.forwardSize := by
    have header := packet.header
    simp only [PeerMsg.forward,PeerMsg.forwardSize,List.length_cons]
    omega
  intro next member
  rw [taken,handleForwardMessage,if_neg fits] at member
  dsimp only at member
  split at member
  · cases List.mem_singleton.mp member; rfl
  · cases List.mem_singleton.mp member; rfl

theorem servedCarries {n : Network} {q : Bytes} {env : Server.Env} {s : Server.State} {p : Server.Ptr}
    {now : BitVec 64} {out : Server.State × List Server.Effect}
    (ok : Server.handle env s (.received p (Kind.FORWARD::q) now) = some out) :
    ∀ next ∈ deliveries out.2, Carries n q next := by
  simp only [Server.handle] at ok
  split at ok <;> [skip; contradiction]
  set u := (s.setBuffer p (Kind.FORWARD::q)).enter p (some .looping) with entered
  have buffer : (u.mem p).buffer = Kind.FORWARD::q := by
    simp [entered,Server.State.setBuffer,Server.State.write,Server.State.enter]
  have handled : Server.handleMsg env u p now = some (Server.handleForwardMsg u p) := by
    simp only [Server.handleMsg,buffer]
    rfl
  cases Option.some.inj (handled.symm.trans ok)
  intro next member
  obtain ⟨effect,sent,place⟩ := List.mem_filterMap.mp member
  have content : ∀ target frame, .send target frame ∈ (Server.handleForwardMsg u p).2 → frame = Kind.FORWARD::q := by
    intro target frame inside
    simp only [Server.handleForwardMsg] at inside
    split at inside
    · simp [Server.refuse] at inside
    split at inside
    · simp [Server.refuse] at inside
    split at inside
    · cases List.mem_singleton.mp inside; exact buffer
    split at inside
    · obtain ⟨_,_,same⟩ := List.mem_map.mp inside
      cases same; exact buffer
    · simp at inside
  cases effect with
  | log => contradiction
  | send target frame =>
    cases Option.some.inj place
    exact content target frame sent

theorem frameCarries {n : Network} {q : Bytes} {env : WsClient.Env} {c : WsClient.Client} {now : BitVec 64}
    {out : WsClient.Client × List WsClient.Effect} (node : IP4)
    (ok : WsClient.handleWsMsg env c (Kind.FORWARD::q) now = some out) : ∀ next ∈ packets node out.2, Carries n q next := by
  have handled : WsClient.handleWsMsg env c (Kind.FORWARD::q) now =
      some (c,WsClient.handleForwardMsg c (Kind.FORWARD::q)) := rfl
  cases Option.some.inj (handled.symm.trans ok)
  intro next member
  simp only [WsClient.handleForwardMsg] at member
  split at member
  · contradiction
  · cases p2p : c.p2pOnly with
    | true => rw [p2p] at member; contradiction
    | false =>
      rw [p2p] at member
      cases List.mem_singleton.mp member
      rfl

theorem moveCarries {n : Network} {q : Bytes} (packet : Packet q) {place next : Place} {hop : Hop}
    (carries : Carries n q place) (moved : step n place hop next) : Carries n q next := by
  obtain ⟨places,ok,member⟩ := moved
  cases place with
  | peerQueue node data =>
    cases carries
    cases hop with
    | packet c relay direct =>
      simp only [move] at ok
      split at ok <;> [skip; contradiction]
      obtain ⟨out,handled,rfl⟩ := Option.map_eq_some_iff.mp ok
      exact packetCarries handled node next member
    | _ => contradiction
  | wire m =>
    cases hop with
    | datagram c =>
      simp only [move] at ok
      split at ok
      · rename_i own
        cases ok
        exact receiveCarries packet carries own next member
      · cases ok; contradiction
    | _ => contradiction
  | wsQueue node data =>
    cases carries
    cases hop with
    | flushed env c =>
      cases ok
      cases List.mem_singleton.mp member
      rfl
    | _ => contradiction
  | uplink node frame =>
    cases carries
    cases hop with
    | served env s p now =>
      obtain ⟨out,handled,rfl⟩ := Option.map_eq_some_iff.mp ok
      exact servedCarries handled next member
    | _ => contradiction
  | downlink target frame =>
    cases carries
    cases hop with
    | frame env node c now =>
      simp only [move] at ok
      split at ok <;> [skip; contradiction]
      obtain ⟨out,handled,rfl⟩ := Option.map_eq_some_iff.mp ok
      exact frameCarries node handled next member
    | _ => contradiction
  | tunQueue node data => cases hop <;> contradiction

theorem pathIndependent (n : Network) (q : Bytes) (header : 20 ≤ q.length) (small : 28 + (1 + q.length) ≤ 1500)
    (source target : IP4) (hops : List Hop) (data : Bytes)
    (run : Run (step n) (.peerQueue source q) hops (.tunQueue target data)) : data = q := by
  have carries : Carries n q (.tunQueue target data) :=
    run.invariant (show Carries n q (.peerQueue source q) from rfl)
      fun _ _ _ carries moved => moveCarries ⟨header,small⟩ carries moved
  exact carries

/- A cipher that agrees with AES-256-GCM on one text. -/
def agreeing (key iv m tag text : Bytes) (tag16 : tag.length = 16) (same : text.length = m.length)
    (nonzero : tag ≠ List.replicate 16 0) : Aead where
  encrypt k i t := if k = key ∧ i = iv ∧ t = m then (tag,text) else (List.replicate 16 0,t)
  decrypt k i g t := if k = key ∧ i = iv ∧ g = tag ∧ t = text then some m else some t
  tagLength k i t := by
    split
    · exact tag16
    · exact List.length_replicate
  textLength k i t := by
    split
    · rename_i known; rw [known.2.2]; exact same
    · rfl
  opens k i t := by
    split
    · rename_i known
      simp [known]
    · rw [if_neg]
      rintro ⟨-,-,wrongTag,-⟩
      exact nonzero wrongTag.symm

def host (i : Nat) : IP4 := ⟨10,0,0,BitVec.ofNat 8 i⟩

/- An empty IPv4 packet from host 1 to host 2, and its encryption for host 3. -/
def sample : Bytes := [69,0,0,20,0,0,0,0,64,17,0,0,10,0,0,1,10,0,0,2]

def sampleIv : Iv := ⟨[1,2,3,4,5,6,7,8,9,10,11,12],rfl⟩

def relayKey : BitVec 256 := 0xf9c9ce5d13cf6c2c8a12bdfa2aadcc80379e7efa268f0e57ffbff2bbeee17de4

def relayKeyBytes : Bytes := (List.range 32).map (fun i => relayKey.extractLsb' (8*(31-i)) 8)

def network : Network where
  aead := agreeing relayKeyBytes sampleIv.bytes (PeerMsg.forward sample)
    [221,145,77,189,107,67,189,124,245,210,50,128,162,215,140,217]
    [161,104,242,96,27,211,113,101,111,71,245,206,27,235,29,25,43,53,201,112,225] rfl rfl (by decide)
  sha := ⟨fun data => if data = [3,0,0,10] then relayKeyBytes else List.replicate 32 0,fun data => by
    split
    · simp [relayKeyBytes]
    · exact List.length_replicate⟩
  password := []

def node (i : Nat) : P2P.Client :=
  ⟨⟨⟨fun _ => false,fun _ => false,fun _ => false⟩,host i,true,5,false⟩,host i,false,∅,∅⟩

/- Host 1 reaches host 2 through host 3, which has lost its own way to it. -/
def sender : P2P.Client :=
  let relay : P2P.Peer := {P2P.Peer.fresh (host 3) 0 with state := .CONNECTED,ack := 1,real := some ⟨.v4 ⟨8,8,8,3⟩,4000⟩}
  {node 1 with
    ipPeerMap := (∅ : Table IP4 P2P.Peer).insert (host 3) relay
    rtTableMap := (∅ : Peer.RtTable).insert (host 2) ⟨host 2,host 3,20⟩}

def onServer : Server.State :=
  {Server.initial [] ⟨IP4.zero,IP4.zero⟩ [] with
    ipCtxMap := (∅ : Table IP4 Server.Ptr).insert (host 2) 1
    calls := fun _ => some .receiving
    mem := fun p => {Server.WsCtx.fresh with ip := if p = 1 then host 2 else host 3}}

def wsEnv : WsClient.Env := ⟨network.sha,fun _ => none⟩
def wsClient : WsClient.Client := ⟨[],[],false⟩
def once : Attempt := ⟨some sampleIv,true,true⟩

def halfway : List Hop :=
  [.packet sender once once,.datagram (node 3),.packet (node 3) once once,.flushed wsEnv wsClient,
    .served ⟨network.sha,fun _ => none⟩ onServer 0 0,.frame wsEnv (host 2) wsClient 0]

theorem halfwayArrives : ∃ data, Run (step network) (.peerQueue (host 1) sample) halfway (.tunQueue (host 2) data) ∧
    data = sample := by
  have one {place : Place} {hop : Hop} {next : Place} (moved : move network place hop = some [next]) :
      step network place hop next := ⟨[next],moved,List.mem_singleton_self next⟩
  have wired := one (show move network (.peerQueue (host 1) sample) (.packet sender once once) =
    some [.wire ⟨relayKeyBytes,sampleIv.bytes ++ [221,145,77,189,107,67,189,124,245,210,50,128,162,215,140,217] ++
      [161,104,242,96,27,211,113,101,111,71,245,206,27,235,29,25,43,53,201,112,225]⟩] by decide +kernel)
  have relayed := one (show move network (.wire ⟨relayKeyBytes,sampleIv.bytes ++
      [221,145,77,189,107,67,189,124,245,210,50,128,162,215,140,217] ++
      [161,104,242,96,27,211,113,101,111,71,245,206,27,235,29,25,43,53,201,112,225]⟩) (.datagram (node 3)) =
    some [.peerQueue (host 3) sample] by decide +kernel)
  have fallen := one (show move network (.peerQueue (host 3) sample) (.packet (node 3) once once) =
    some [.wsQueue (host 3) sample] by decide +kernel)
  have flushed := one (show move network (.wsQueue (host 3) sample) (.flushed wsEnv wsClient) =
    some [.uplink (host 3) (Kind.FORWARD::sample)] by decide +kernel)
  have served := one (show move network (.uplink (host 3) (Kind.FORWARD::sample))
    (.served ⟨network.sha,fun _ => none⟩ onServer 0 0) = some [.downlink 1 (Kind.FORWARD::sample)] by decide +kernel)
  have arrived := one (show move network (.downlink 1 (Kind.FORWARD::sample)) (.frame wsEnv (host 2) wsClient 0) =
    some [.tunQueue (host 2) sample] by decide +kernel)
  have run : Run (step network) (.peerQueue (host 1) sample) halfway (.tunQueue (host 2) sample) :=
    .snoc (.snoc (.snoc (.snoc (.snoc (.snoc .nil wired) relayed) fallen) flushed) served) arrived
  exact ⟨sample,run,pathIndependent network sample (by decide) (by decide) (host 1) (host 2) halfway sample run⟩

end Candy.DataPlane
