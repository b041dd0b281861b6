import Candy.Net

/-! The text of an address with its prefix length, Address::fromCidr of
src/core/net.cc: which elements of the mask the parsed number makes it write, and
which mask it leaves. Poco's IPAddress either returns an address or throws. -/
namespace Candy

namespace IP4

/- The elements of raw that the loop of fromPrefix writes, in order. -/
def prefixIndexes (pfx : Int) : List Nat := (List.range pfx.toNat).map (· / 8)

def LeadingOnes (m : IP4) (n : Int) : Prop := (m.toPrefix : Int) = n ∧ ∀ i < 32, m.bitSet i = decide ((i : Int) < n)

theorem indexesInside {pfx : Int} : (∀ i ∈ prefixIndexes pfx, i < 4) ↔ pfx ≤ 32 := by
  constructor
  · intro inside
    by_contra long
    have last : 32 / 8 ∈ prefixIndexes pfx := List.mem_map_of_mem (List.mem_range.mpr (by omega))
    exact absurd (inside _ last) (by decide)
  · intro bound i member
    obtain ⟨j,below,rfl⟩ := List.mem_map.mp member
    have := List.mem_range.mp below
    omega

theorem fromPrefixInside {pfx : Int} : (fromPrefix pfx).isSome ↔ ∀ i ∈ prefixIndexes pfx, i < 4 := by
  rw [indexesInside]
  constructor
  · intro made
    obtain ⟨m,ok⟩ := Option.isSome_iff_exists.mp made
    have := fromPrefixBound ok
    omega
  · intro bound
    have mask := fromPrefixAddr ⟨pfx.toNat,by omega⟩
    have nat : fromPrefix (pfx.toNat : Int) = fromPrefix pfx := by simp only [fromPrefix,Int.toNat_natCast]
    rw [← nat]
    obtain ⟨m,ok,_⟩ := Option.map_eq_some_iff.mp mask
    rw [ok]; rfl

theorem prefixLeads : ∀ p : Fin 33, (fromPrefix p.val).all
    (fun m => m.toPrefix = p.val ∧ ∀ i : Fin 32, m.bitSet i.val = decide (i.val < p.val)) := by
  decide +kernel

theorem fromPrefixLeads {pfx : Int} {m : IP4} (ok : fromPrefix pfx = some m) : m.LeadingOnes pfx ↔ 0 ≤ pfx := by
  have bound := fromPrefixBound ok
  have nat : fromPrefix (pfx.toNat : Int) = some m := by
    rw [← ok]; simp only [fromPrefix,Int.toNat_natCast]
  have leads := prefixLeads ⟨pfx.toNat,by omega⟩
  rw [nat] at leads
  obtain ⟨size,bits⟩ : m.toPrefix = pfx.toNat ∧ ∀ i : Fin 32, m.bitSet i.val = decide (i.val < pfx.toNat) :=
    of_decide_eq_true leads
  constructor
  · intro ones
    have := ones.1
    omega
  · intro positive
    refine ⟨by omega,fun i below => ?_⟩
    exact (bits ⟨i,below⟩).trans (decide_eq_decide.mpr (by dsimp only; omega))

end IP4

namespace Address

/- What std::stoi returns, where fromCidr gets to it. -/
def prefixNumber (ipAddress : Bytes → Option IP4) (cidr : Bytes) : Option Int := do
  let _ ← ipAddress (cidr.takeWhile (· != slash))
  stoi (if cidr.contains slash then (cidr.dropWhile (· != slash)).drop 1 else cidr)

variable {ipAddress : Bytes → Option IP4} {a b : Address} {cidr : Bytes}

theorem slashInside (there absent : Bytes) : (if cidr.contains slash then there else absent) = if slash ∈ cidr then there else absent := by
  by_cases inside : slash ∈ cidr <;> simp [inside]

theorem fromCidrNumber {n : Int} {mask : IP4} (number : prefixNumber ipAddress cidr = some n)
    (made : IP4.fromPrefix n = some mask) : ∃ host, fromCidr ipAddress a cidr = .ok ⟨host,mask⟩ := by
  simp only [prefixNumber,bind,Option.bind_eq_some_iff] at number
  obtain ⟨host,parsed,number⟩ := number
  rw [slashInside] at number
  refine ⟨host,?_⟩
  simp only [fromCidr,parsed,number,made]

theorem fromCidrOk (ok : fromCidr ipAddress a cidr = .ok b) :
    ∃ n, prefixNumber ipAddress cidr = some n ∧ IP4.fromPrefix n = some b.mask := by
  unfold fromCidr at ok
  split at ok <;> try contradiction
  rename_i host parsed
  split at ok <;> try contradiction
  rename_i n number
  split at ok <;> try contradiction
  rename_i mask made
  cases ok
  refine ⟨n,?_,made⟩
  simp only [prefixNumber,parsed,bind,Option.bind_some,slashInside]
  exact number

def Bounded (ipAddress : Bytes → Option IP4) (a : Address) (cidr : Bytes) : Prop :=
  (∀ n, prefixNumber ipAddress cidr = some n → ∀ i ∈ IP4.prefixIndexes n, i < 4) ∧
  ∀ b, fromCidr ipAddress a cidr = .ok b → ∃ n, prefixNumber ipAddress cidr = some n ∧ b.mask.LeadingOnes n

theorem cidrBounded (ipAddress : Bytes → Option IP4) (a : Address) (cidr : Bytes) :
    Bounded ipAddress a cidr ↔ ∀ n, prefixNumber ipAddress cidr = some n → 0 ≤ n ∧ n ≤ 32 := by
  constructor
  · rintro ⟨inside,leads⟩ n number
    have bound := inside n number
    obtain ⟨mask,made⟩ := Option.isSome_iff_exists.mp (IP4.fromPrefixInside.mpr bound)
    obtain ⟨host,parsed⟩ := fromCidrNumber (a := a) number made
    obtain ⟨m,same,ones⟩ := leads _ parsed
    cases Option.some.inj (same.symm.trans number)
    exact ⟨(IP4.fromPrefixLeads made).mp ones,IP4.indexesInside.mp bound⟩
  · intro bounds
    refine ⟨fun n number => IP4.indexesInside.mpr (bounds n number).2,fun b ok => ?_⟩
    obtain ⟨n,number,made⟩ := fromCidrOk ok
    exact ⟨n,number,(IP4.fromPrefixLeads made).mpr (bounds n number).1⟩

def parsing (text : String) (ip : IP4) (bytes : Bytes) : Option IP4 := if bytes = ascii text then some ip else none

theorem thirtyThreeOutside : ¬ Bounded (parsing "10.0.0.1" ⟨10,0,0,1⟩) ⟨IP4.zero,IP4.zero⟩ (ascii "10.0.0.1/33") ∧
    fromCidr (parsing "10.0.0.1" ⟨10,0,0,1⟩) ⟨IP4.zero,IP4.zero⟩ (ascii "10.0.0.1/33") = .outOfBounds := by
  have number : prefixNumber (parsing "10.0.0.1" ⟨10,0,0,1⟩) (ascii "10.0.0.1/33") = some 33 := by decide +kernel
  refine ⟨fun bounded => ?_,by decide +kernel⟩
  have inside := bounded.1 33 number (32 / 8) (by decide)
  contradiction

end Address
end Candy
