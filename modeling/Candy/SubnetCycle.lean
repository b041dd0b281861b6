import Candy.ServerDhcp

/-! The cursor goes round. Next counts the host part up modulo the size of the
subnet, so it meets every address of the subnet once in a lap, and the search of
handleExptTunMsg needs no more passes than the subnet has addresses. -/
namespace Candy.Server

/- The bits below the mask, in network order. -/
def hostPart (a : Address) : Nat := (~~~a.mask &&& a.host).addr.toNat

section
variable {a : Address} {k : Nat}

theorem hostPartNat (mask : a.mask.IsMask k) : hostPart a = a.host.addr.toNat % 2^k := by
  rw [hostPart,IP4.addrAnd,IP4.addrNot,mask.2,Words.andNotHighOnes]

theorem nextHostPart (mask : a.mask.IsMask k) : hostPart a.next = (hostPart a + 1) % 2^k := by
  have mine : a.next.mask.IsMask k := mask
  rw [hostPartNat mine,hostPartNat mask,Address.nextNat mask,Nat.mul_add_mod,Nat.mod_mod,Nat.mod_add_mod]

theorem nextNet (mask : a.mask.IsMask k) : a.next.net = a.net := by
  have inside : InNetwork a a.next.host := walkedInNetwork mask ⟨1,rfl⟩
  exact inside

theorem inNetworkNat (mask : a.mask.IsMask k) {host : IP4} :
    InNetwork a host ↔ host.addr.toNat / 2^k = a.host.addr.toNat / 2^k := by
  have here := Address.netNat mask
  have there := Address.netNat (a := ⟨host,a.mask⟩) mask
  constructor
  · intro inside
    have same : (⟨host,a.mask⟩ : Address).net = a.net := inside
    rw [same,here] at there
    exact Nat.eq_of_mul_eq_mul_left (Nat.two_pow_pos k) there.symm
  · intro quotients
    apply IP4.addrInjective
    apply BitVec.eq_of_toNat_eq
    have block : (host &&& a.mask).addr.toNat = 2^k * (host.addr.toNat / 2^k) := there
    rw [block,here,quotients]

theorem walkMeets (mask : a.mask.IsMask k) {host : IP4} (inside : InNetwork a host) (j : Nat) :
    (Address.next^[j] a).host = host ↔ (a.host.addr.toNat + j) % 2^k = host.addr.toNat % 2^k := by
  have walk := Address.walkNat mask j
  have parts := Nat.div_add_mod host.addr.toNat (2^k)
  rw [(inNetworkNat mask).mp inside] at parts
  constructor
  · intro met
    rw [met] at walk
    omega
  · intro level
    apply IP4.addrInjective
    apply BitVec.eq_of_toNat_eq
    rw [walk,level,parts]

theorem walkVisits (mask : a.mask.IsMask k) {host : IP4} (inside : InNetwork a host) :
    ∃! j, j < 2^k ∧ (Address.next^[j] a).host = host := by
  simp only [walkMeets mask inside]
  exact Words.rotated (Nat.mod_lt _ (Nat.two_pow_pos k))

theorem walkCloses (mask : a.mask.IsMask k) : Address.next^[2^k] a = a := by
  have back := (walkReturns mask (2^k)).mpr (Nat.dvd_refl _)
  have kept := Address.walkMask a (2^k)
  exact congrArg₂ Address.mk back kept

end

/- The do-while loop of handleExptTunMsg cut after some passes. -/
def searchPasses (s : State) (passes : Nat) : Orbit.Search Address :=
  Orbit.search Address.next (fun a => a.host == s.dhcp.host)
    (fun a => !(!a.isValid && (s.ipCtxMap.lookup a.host).isSome)) passes s.dhcp

theorem searchEnds {s : State} {k : Nat} (mask : s.dhcp.mask.IsMask k) :
    searchPasses s (2^k) = nextAddress s ∧ nextAddress s ≠ .unfinished := by
  have positive := Nat.two_pow_pos k
  have bounded : 2^k ≤ 2^32 := Nat.pow_le_pow_right (by decide) mask.1
  have lap : 2^k - 1 + 1 = 2^k := Nat.sub_add_cancel positive
  have returns : ∃ i, i < 2^k ∧ (fun a : Address => a.host == s.dhcp.host) (Address.next^[i+1] s.dhcp) = true :=
    ⟨2^k-1,by omega,by rw [lap,walkCloses mask]; simp⟩
  have first := fun hit => @Orbit.firstDecided _ Address.next (fun a => a.host == s.dhcp.host) hit (2^k) s.dhcp returns
  obtain ⟨m,enough,passed,decided⟩ := first fun a => !(!a.isValid && (s.ipCtxMap.lookup a.host).isSome)
  have short := Orbit.searchDecided enough passed decided
  have long := Orbit.searchDecided (lt_of_lt_of_le enough bounded) passed decided
  refine ⟨short.trans long.symm,?_⟩
  rw [nextAddress,long]
  split <;> simp

theorem nextCycles (a : Address) (p : Nat) (mask : IP4.fromPrefix p = some a.mask) :
    a.next.mask = a.mask ∧ a.next.net = a.net ∧ hostPart a.next = (hostPart a + 1) % 2^(32-p) ∧
    (∀ j, InNetwork a (Address.next^[j] a).host) ∧
    (∀ host, InNetwork a host → ∃! j, j < 2^(32-p) ∧ (Address.next^[j] a).host = host) ∧
    Address.next^[2^(32-p)] a = a ∧
    ∀ s : State, s.dhcp = a → searchPasses s (2^(32-p)) = nextAddress s ∧ nextAddress s ≠ .unfinished := by
  have ones : a.mask.IsMask (32-p) := IP4.fromPrefixMask mask
  refine ⟨rfl,nextNet ones,nextHostPart ones,fun j => walkedInNetwork ones ⟨j,rfl⟩,
    fun host inside => walkVisits ones inside,walkCloses ones,fun s cursor => ?_⟩
  have here : s.dhcp.mask.IsMask (32-p) := by rw [cursor]; exact ones
  exact searchEnds here

theorem lastWraps : (⟨⟨255,255,255,255⟩,⟨255,255,255,252⟩⟩ : Address).next = ⟨⟨255,255,255,252⟩,⟨255,255,255,252⟩⟩ ∧
    Address.next^[4] ⟨⟨255,255,255,255⟩,⟨255,255,255,252⟩⟩ = ⟨⟨255,255,255,255⟩,⟨255,255,255,252⟩⟩ :=
  ⟨by decide,(nextCycles ⟨⟨255,255,255,255⟩,⟨255,255,255,252⟩⟩ 30 (by decide +kernel)).2.2.2.2.2.1⟩

end Candy.Server
