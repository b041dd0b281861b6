import Candy.DataPlane
import Candy.Tun

/-! How long a packet of the device is once it is framed for another client: twenty
bytes if it is routed, one for the kind, and twelve and sixteen for the encryption.
The MTU is whatever the user sets; all of it fits exactly up to 1451. -/
namespace Candy.DataPlane
open WsMsg

/- LinuxTun::setMTU: what it returns, and the size of the packets read from then on. -/
def setMTU (mtu : Int) : Int × Int := (0,mtu)

/- The array in Peer::encrypt and the buffer in PeerManager::poll. -/
structure Framed (n : Network) (key : Key) (iv : Iv) (packet : Bytes) : Prop where
  inside : encrypt n key (some iv) (PeerMsg.forward packet) ≠ none
  whole : ∀ datagram, encrypt n key (some iv) (PeerMsg.forward packet) = some (some datagram) →
    datagram.take 1500 = datagram

def Fits (n : Network) (key : Key) (iv : Iv) (mtu : Int) : Prop :=
  (setMTU mtu).1 = 0 → ∀ (t : Tun) (m : Moment) (p sent : Bytes), (p.length : Int) ≤ (setMTU mtu).2 →
    .peer sent ∈ (t.handleTunDevice m p).2 → Framed n key iv sent

section
variable {n : Network} {key : Key} {iv : Iv} {p packet : Bytes} {t : Tun} {hop : IP4}

theorem encapsulatedLength : (t.encapsulate hop p).length = 20 + p.length := by
  obtain ⟨inner,_,long⟩ := t.encapsulated hop p
  have lengths := congrArg List.length inner
  rw [List.length_drop] at lengths
  simp only [IP4Header.size] at lengths long
  omega

theorem overruns (long : 1500 ≤ packet.length) : encrypt n key (some iv) (PeerMsg.forward packet) = none :=
  if_pos (Nat.lt_succ_of_le long)

theorem framedExact : Framed n key iv packet ↔ packet.length ≤ 1471 := by
  have tag := n.aead.tagLength key iv.bytes (PeerMsg.forward packet)
  have text := n.aead.textLength key iv.bytes (PeerMsg.forward packet)
  have iv12 := iv.length
  have plain : (PeerMsg.forward packet).length = packet.length + 1 := rfl
  constructor
  · intro framed
    have short : packet.length < 1500 := by
      by_contra long
      exact framed.inside (overruns (by omega))
    have taken := congrArg List.length (framed.whole _ (if_neg (by omega)))
    simp only [List.length_take,List.length_append] at taken
    omega
  · intro short
    have out : encrypt n key (some iv) (PeerMsg.forward packet) = some (some (iv.bytes ++
        (n.aead.encrypt key iv.bytes (PeerMsg.forward packet)).1 ++
        (n.aead.encrypt key iv.bytes (PeerMsg.forward packet)).2)) := if_neg (by omega)
    refine ⟨by rw [out]; nofun,fun datagram ok => ?_⟩
    cases Option.some.inj (Option.some.inj (out.symm.trans ok))
    refine List.take_of_length_le ?_
    simp only [List.length_append]
    omega

/- Any length of packet, to no address in particular; a client with one route
encapsulates it, one without sends it as it is. -/
def plain (length : Nat) : Bytes := 0x45 :: List.replicate (length - 1) 0
def router : Tun := ⟨⟨10,0,0,1⟩,false,[⟨IP4.zero,IP4.zero,⟨10,0,0,2⟩⟩],∅,0⟩

theorem plainLength {length : Nat} (long : 20 ≤ length) : (plain length).length = length := by
  rw [plain,List.length_cons,List.length_replicate]
  omega

theorem zeroAt (m i : Nat) : byteAt (List.replicate m 0) i = 0 := by
  unfold byteAt
  rw [List.getD_eq_getElem?_getD,List.getElem?_replicate]
  split <;> rfl

theorem plainHeader {length : Nat} (long : 20 ≤ length) : ¬ (plain length).length < IP4Header.size ∧
    IP4Header.isIPv4 (plain length) ∧ IP4Header.daddr (plain length) = IP4.zero := by
  have later (i : Nat) : byteAt (plain length) (i+1) = 0 := zeroAt _ i
  refine ⟨by rw [plainLength long]; exact Nat.not_lt.mpr long,?_,?_⟩
  · have first : byteAt (plain length) 0 = 0x45 := rfl
    change byteAt (plain length) 0 >>> 4 = 4
    rw [first]
    decide
  · simp only [IP4Header.daddr,ip4At,later]
    rfl

theorem routedSent {length : Nat} (long : 20 ≤ length) (m : Moment) :
    .peer (router.encapsulate ⟨10,0,0,2⟩ (plain length)) ∈ (router.handleTunDevice m (plain length)).2 := by
  obtain ⟨size,version,target⟩ := plainHeader long
  have hop : router.nextHop IP4.zero = ⟨10,0,0,2⟩ := by decide
  have outer : IP4Header.daddr (router.encapsulate ⟨10,0,0,2⟩ (plain length)) = ⟨10,0,0,2⟩ := rfl
  have known : (⟨10,0,0,2⟩ : IP4).empty = false := by decide
  have other : (⟨10,0,0,2⟩ : IP4) ≠ router.ip := by decide
  simp only [Tun.handleTunDevice,if_neg size,if_neg (not_not.mpr version),target,hop,known,Bool.not_false,if_true,outer,
    if_neg other,List.mem_singleton]

theorem unroutedSent {length : Nat} (long : 20 ≤ length) (m : Moment) :
    .peer (plain length) ∈ ((Tun.host 1).handleTunDevice m (plain length)).2 := by
  obtain ⟨size,version,target⟩ := plainHeader long
  have hop : (Tun.host 1).nextHop IP4.zero = IP4.zero := by decide
  have unknown : IP4.zero.empty = true := by decide
  have other : IP4.zero ≠ (Tun.host 1).ip := by decide
  simp only [Tun.handleTunDevice,if_neg size,if_neg (not_not.mpr version),target,hop,unknown,Bool.not_true,
    Bool.false_eq_true,if_false,if_neg other,List.mem_singleton]

end

theorem fitsExact (n : Network) (key : Key) (iv : Iv) (mtu : Int) : Fits n key iv mtu ↔ mtu ≤ 1451 := by
  constructor
  · intro fits
    by_contra wide
    have length : (plain 1452).length = 1452 := plainLength (by decide)
    have framed := fits rfl router ⟨0,0,.stored⟩ (plain 1452) _ (by rw [length]; change _ ≤ mtu; omega)
      (routedSent (by decide) _)
    have short := framedExact.mp framed
    rw [encapsulatedLength,length] at short
    omega
  · intro small _ t m p sent bounded enqueued
    obtain ⟨_,shape⟩ := Tun.enqueuedPacket enqueued
    have bounded : (p.length : Int) ≤ mtu := bounded
    rw [framedExact,shape]
    split
    · omega
    · rw [encapsulatedLength]
      omega

theorem ethernetUnfit : (setMTU 1500).1 = 0 ∧ (plain 1500).length = 1500 ∧
    .peer (plain 1500) ∈ ((Tun.host 1).handleTunDevice ⟨0,0,.stored⟩ (plain 1500)).2 ∧
    encrypt network relayKeyBytes (some sampleIv) (PeerMsg.forward (plain 1500)) = none ∧
    ¬ Fits network relayKeyBytes sampleIv 1500 := by
  have length : (plain 1500).length = 1500 := plainLength (by decide)
  have sent := @unroutedSent 1500 (by decide) ⟨0,0,.stored⟩
  have overrun : encrypt network relayKeyBytes (some sampleIv) (PeerMsg.forward (plain 1500)) = none :=
    overruns (le_of_eq length.symm)
  refine ⟨rfl,length,sent,overrun,fun fits => ?_⟩
  exact (fits rfl (Tun.host 1) ⟨0,0,.stored⟩ (plain 1500) _ (by rw [length]; decide) sent).inside overrun

end Candy.DataPlane
