import Candy.Cidr
import Candy.Pieces
import Candy.Server
import Mathlib.Data.List.TakeWhile

/-! What Address::fromCidr leaves when it rejects a text. The host is written before
the number behind the slash is parsed, and std::stoi takes more than a prefix length,
so the address is exact or untouched only for the texts described here. -/
namespace Candy

namespace IP4

theorem decimalDigits (b : Byte) : ∀ c ∈ decimal b.toNat, isDigit c = true :=
  List.all_eq_true.mp (decimalSpec ⟨b.toNat,b.isLt⟩).1

theorem toStringParts (q : IP4) : q.toString = decimal q.raw0.toNat ++ Address.dot ::
    (decimal q.raw1.toNat ++ Address.dot :: (decimal q.raw2.toNat ++ Address.dot :: decimal q.raw3.toNat)) := by
  have one : ascii "." = [Address.dot] := by decide
  simp only [toString,one,List.append_assoc,List.cons_append,List.nil_append]

theorem toStringSlash (q : IP4) : Address.slash ∉ q.toString := by
  have digits (b : Byte) : Address.slash ∉ decimal b.toNat := fun member =>
    absurd (decimalDigits b _ member) (by decide)
  have other : Address.slash ≠ Address.dot := by decide
  rw [toStringParts]
  simp only [List.mem_append,List.mem_cons,digits,other,or_self,not_false_eq_true]

end IP4

theorem stoiDigits {digits : Bytes} (nonempty : digits ≠ []) (all : digits.all isDigit = true)
    (small : digitsValue digits < 2^31) : stoi digits = some (digitsValue digits : Int) := by
  cases digits with
  | nil => contradiction
  | cons d rest =>
    have head : isDigit d = true := by
      rw [List.all_cons,Bool.and_eq_true] at all
      exact all.1
    have range : 48 ≤ d.toNat ∧ d.toNat ≤ 57 := by simpa [isDigit] using head
    have blank : isSpace d = false := by
      simp only [isSpace,Bool.or_eq_false_iff,beq_eq_false_iff_ne,Bool.and_eq_false_iff,decide_eq_false_iff_not]
      refine ⟨fun same => ?_,by omega⟩
      rw [same] at range
      exact absurd range (by decide)
    have whole : (d::rest).takeWhile isDigit = d::rest := List.takeWhile_eq_self_iff.mpr (List.all_eq_true.mp all)
    have start : (d::rest).dropWhile isSpace = d::rest := List.dropWhile_cons_of_neg (by simp [blank])
    simp only [stoi,start]
    split
    · rename_i minus
      cases minus
      exact absurd range (by decide)
    · rename_i plus
      cases plus
      exact absurd range (by decide)
    · simp only [whole,Bool.false_eq_true,if_false]
      rw [if_neg]
      rintro (none_ | below | above)
      · contradiction
      · omega
      · omega

namespace Address

def addressText (cidr : Bytes) : Bytes := cidr.takeWhile (· != slash)
def numberText (cidr : Bytes) : Bytes := if cidr.contains slash then (cidr.dropWhile (· != slash)).drop 1 else cidr

def Named (cidr : Bytes) (q : IP4) (p : Nat) : Prop := ∃ digits, cidr = q.toString ++ slash::digits ∧
  digits ≠ [] ∧ digits.all isDigit = true ∧ digitsValue digits = p ∧ p ≤ 32

structure Atomic (ipAddress : Bytes → Option IP4) (a : Address) (cidr : Bytes) : Prop where
  defined : fromCidr ipAddress a cidr ≠ .outOfBounds
  accepted : ∀ b, fromCidr ipAddress a cidr = .ok b → ∃ p : Nat, Named cidr b.host p ∧ b.mask.LeadingOnes p
  rejected : ∀ b, fromCidr ipAddress a cidr = .rejected b → b = a

def Numberless (ipAddress : Bytes → Option IP4) (cidr : Bytes) (host : IP4) : Prop :=
  ipAddress (addressText cidr) = some host ∧ stoi (numberText cidr) = none

section
variable {ipAddress : Bytes → Option IP4} {a b : Address} {cidr : Bytes} {q host : IP4} {p : Nat}

theorem numberTextInside : (if slash ∈ cidr then (cidr.dropWhile (· != slash)).drop 1 else cidr) = numberText cidr :=
  (slashInside ..).symm

theorem fromThrown (thrown : ipAddress (addressText cidr) = none) : fromCidr ipAddress a cidr = .rejected a := by
  unfold fromCidr
  rw [show ipAddress (cidr.takeWhile (· != slash)) = none from thrown]

theorem fromNumberless (numberless : Numberless ipAddress cidr host) :
    fromCidr ipAddress a cidr = .rejected {a with host := host} := by
  unfold fromCidr
  rw [show ipAddress (cidr.takeWhile (· != slash)) = some host from numberless.1,numberTextInside]
  simp only [numberless.2]

theorem fromNumber {n : Int} (parsed : ipAddress (addressText cidr) = some host) (number : stoi (numberText cidr) = some n) :
    fromCidr ipAddress a cidr = ((IP4.fromPrefix n).map fun mask => CidrResult.ok ⟨host,mask⟩).getD .outOfBounds := by
  unfold fromCidr
  rw [show ipAddress (cidr.takeWhile (· != slash)) = some host from parsed,numberTextInside]
  simp only [number]
  cases IP4.fromPrefix n <;> rfl

theorem namedParts (named : Named cidr q p) : addressText cidr = q.toString ∧ stoi (numberText cidr) = some (p : Int) := by
  obtain ⟨digits,text,nonempty,all,value,small⟩ := named
  have inside : (q.toString ++ slash::digits).contains slash = true := by simp
  refine ⟨?_,?_⟩
  · rw [addressText,text,Pieces.takeFirst q.toStringSlash]
  · rw [numberText,text,if_pos inside,Pieces.dropFirst q.toStringSlash,← value]
    exact stoiDigits nonempty all (by omega)

theorem fromNamed (dotted : ∀ q : IP4, ipAddress q.toString = some q) (named : Named cidr q p) :
    ∃ mask, fromCidr ipAddress a cidr = .ok ⟨q,mask⟩ ∧ mask.LeadingOnes p := by
  obtain ⟨address,number⟩ := namedParts named
  obtain ⟨_,_,_,_,_,small⟩ := named
  have made : (IP4.fromPrefix p).isSome := IP4.fromPrefixInside.mpr (IP4.indexesInside.mpr (by omega))
  obtain ⟨mask,ok⟩ := Option.isSome_iff_exists.mp made
  have parsed : ipAddress (addressText cidr) = some q := by rw [address]; exact dotted q
  refine ⟨mask,?_,(IP4.fromPrefixLeads ok).mpr (by omega)⟩
  rw [fromNumber parsed number,ok]
  rfl

theorem atomicExact (dotted : ∀ q : IP4, ipAddress q.toString = some q) : Atomic ipAddress a cidr ↔
    ipAddress (addressText cidr) = none ∨ (∃ q p, Named cidr q p) ∨ Numberless ipAddress cidr a.host := by
  constructor
  · intro atomic
    cases parsed : ipAddress (addressText cidr) with
    | none => exact .inl rfl
    | some host =>
      right
      cases number : stoi (numberText cidr) with
      | none =>
        have same := congrArg Address.host (atomic.rejected _ (fromNumberless ⟨parsed,number⟩))
        change host = a.host at same
        rw [same] at parsed
        exact .inr ⟨parsed,number⟩
      | some n =>
        have result := fromNumber (a := a) parsed number
        cases made : IP4.fromPrefix n with
        | none =>
          rw [made] at result
          exact absurd result atomic.defined
        | some mask =>
          rw [made] at result
          obtain ⟨p,named,_⟩ := atomic.accepted _ result
          exact .inl ⟨_,p,named⟩
  · rintro (thrown | ⟨q,p,named⟩ | numberless)
    · have result := fromThrown (a := a) thrown
      refine ⟨by rw [result]; nofun,fun b ok => by rw [result] at ok; contradiction,fun b bad => ?_⟩
      exact (CidrResult.rejected.inj (result.symm.trans bad)).symm
    · obtain ⟨mask,result,ones⟩ := fromNamed (a := a) dotted named
      refine ⟨by rw [result]; nofun,fun b ok => ?_,fun b bad => by rw [result] at bad; contradiction⟩
      cases CidrResult.ok.inj (result.symm.trans ok)
      exact ⟨p,named,ones⟩
    · have result := fromNumberless (a := a) numberless
      refine ⟨by rw [result]; nofun,fun b ok => by rw [result] at ok; contradiction,fun b bad => ?_⟩
      exact (CidrResult.rejected.inj (result.symm.trans bad)).symm

end

def StaysDisabled (env : Server.Env) (cidr : Bytes) : Prop := ∀ dhcp b, Server.setDHCP env cidr = some dhcp →
  fromCidr env.ipAddress ⟨IP4.zero,IP4.zero⟩ cidr = .rejected b → dhcp.empty = true

theorem disabledExact (env : Server.Env) (cidr : Bytes) : StaysDisabled env cidr ↔
    cidr = [] ∨ ∀ host, Numberless env.ipAddress cidr host → host = IP4.zero := by
  by_cases unset : cidr = []
  · refine iff_of_true (fun dhcp b set _ => ?_) (.inl unset)
    cases Option.some.inj ((if_pos unset).symm.trans set)
    rfl
  have setting (b : Address) (bad : fromCidr env.ipAddress ⟨IP4.zero,IP4.zero⟩ cidr = .rejected b) :
      Server.setDHCP env cidr = some b := by
    simp only [Server.setDHCP,if_neg unset,bad]
  rw [or_iff_right unset]
  constructor
  · intro disabled host numberless
    have bad := fromNumberless (a := ⟨IP4.zero,IP4.zero⟩) numberless
    have empty := disabled _ _ (setting _ bad) bad
    simp only [Address.empty,Bool.and_eq_true,IP4.emptyZero] at empty
    exact empty.1
  · intro zero dhcp b set bad
    cases Option.some.inj (set.symm.trans (setting b bad))
    cases parsed : env.ipAddress (addressText cidr) with
    | none =>
      cases CidrResult.rejected.inj (bad.symm.trans (fromThrown parsed))
      rfl
    | some host =>
      cases number : stoi (numberText cidr) with
      | none =>
        cases CidrResult.rejected.inj (bad.symm.trans (fromNumberless ⟨parsed,number⟩))
        cases zero host ⟨parsed,number⟩
        rfl
      | some n =>
        rw [fromNumber parsed number] at bad
        cases made : IP4.fromPrefix n with
        | none => rw [made] at bad; cases bad
        | some mask => rw [made] at bad; cases bad

theorem cidrExact (env : Server.Env) (dotted : ∀ q : IP4, env.ipAddress q.toString = some q) (a : Address) (cidr : Bytes) :
    (Atomic env.ipAddress a cidr ↔ env.ipAddress (addressText cidr) = none ∨ (∃ q p, Named cidr q p) ∨
      Numberless env.ipAddress cidr a.host) ∧
    (StaysDisabled env cidr ↔ cidr = [] ∨ ∀ host, Numberless env.ipAddress cidr host → host = IP4.zero) :=
  ⟨atomicExact dotted,disabledExact env cidr⟩

def octet (text : Bytes) : Option Byte :=
  if digitsValue text < 256 ∧ IP4.decimal (digitsValue text) = text then some (BitVec.ofNat 8 (digitsValue text)) else none

def dottedQuad (text : Bytes) : Option IP4 :=
  match text.splitOn dot with
  | [a,b,c,d] => do
    let a ← octet a
    let b ← octet b
    let c ← octet c
    let d ← octet d
    some ⟨a,b,c,d⟩
  | _ => none

theorem octetDecimal (b : Byte) : octet (IP4.decimal b.toNat) = some b := by
  have value : digitsValue (IP4.decimal b.toNat) = b.toNat := (decimalSpec ⟨b.toNat,b.isLt⟩).2.1
  unfold octet
  rw [value,if_pos ⟨b.isLt,rfl⟩,BitVec.ofNat_toNat,BitVec.setWidth_eq]

theorem quadRead (q : IP4) : dottedQuad q.toString = some q := by
  have undotted (b : Byte) : dot ∉ IP4.decimal b.toNat := fun member =>
    absurd (IP4.decimalDigits b _ member) (by decide)
  unfold dottedQuad
  rw [IP4.toStringParts,List.splitOn_append_cons_self_of_not_mem (undotted _),
    List.splitOn_append_cons_self_of_not_mem (undotted _),List.splitOn_append_cons_self_of_not_mem (undotted _),
    List.splitOn_eq_singleton (undotted _)]
  simp only [octetDecimal,bind,Option.bind_some]

def quads : Server.Env := ⟨⟨fun _ => List.replicate 32 0,fun _ => List.length_replicate⟩,dottedQuad⟩

theorem quadsDotted (q : IP4) : quads.ipAddress q.toString = some q := by
  have parser : quads.ipAddress = dottedQuad := rfl
  rw [parser]
  exact quadRead q

theorem hostLeft : (∀ q : IP4, quads.ipAddress q.toString = some q) ∧
    fromCidr quads.ipAddress ⟨IP4.zero,IP4.zero⟩ (ascii "10.0.0.1/x") = .rejected ⟨⟨10,0,0,1⟩,IP4.zero⟩ ∧
    ¬ Atomic quads.ipAddress ⟨IP4.zero,IP4.zero⟩ (ascii "10.0.0.1/x") ∧ ¬ StaysDisabled quads (ascii "10.0.0.1/x") := by
  have bad : fromCidr quads.ipAddress ⟨IP4.zero,IP4.zero⟩ (ascii "10.0.0.1/x") = .rejected ⟨⟨10,0,0,1⟩,IP4.zero⟩ := by
    decide +kernel
  have set : Server.setDHCP quads (ascii "10.0.0.1/x") = some ⟨⟨10,0,0,1⟩,IP4.zero⟩ := by decide +kernel
  refine ⟨quadsDotted,bad,fun atomic => ?_,fun disabled => ?_⟩
  · exact absurd (atomic.rejected _ bad) (by decide)
  · exact absurd (disabled _ _ set bad) (by decide)

theorem plainTaken : Atomic quads.ipAddress ⟨IP4.zero,IP4.zero⟩ (ascii "10.0.0.1/24") ∧
    StaysDisabled quads (ascii "10.0.0.1/24") := by
  obtain ⟨atomic,disabled⟩ := cidrExact quads quadsDotted ⟨IP4.zero,IP4.zero⟩ (ascii "10.0.0.1/24")
  have number : stoi (numberText (ascii "10.0.0.1/24")) = some 24 := by decide +kernel
  refine ⟨atomic.mpr (.inr (.inl ⟨⟨10,0,0,1⟩,24,ascii "24",by decide +kernel⟩)),disabled.mpr (.inr fun host numberless => ?_)⟩
  cases number.symm.trans numberless.2

end Address
end Candy
