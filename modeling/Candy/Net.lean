import Candy.Words

/-! Addresses as src/core computes them: four raw bytes with byte-wise operators,
a word read in host (little-endian) order and swapped before it is incremented.
`addr` is the address in network order; the lemmas turn every operator into
arithmetic on it. Out-of-bounds writes to `raw` have no result. -/
namespace Candy

abbrev Byte := BitVec 8
abbrev Bytes := List Byte

def ascii (text : String) : Bytes := text.toList.map (fun c => BitVec.ofNat 8 c.toNat)

def byteswap (v : BitVec 32) : BitVec 32 :=
  v.extractLsb' 0 8 ++ v.extractLsb' 8 8 ++ v.extractLsb' 16 8 ++ v.extractLsb' 24 8

def ntoh (v : BitVec 32) : BitVec 32 := byteswap v
def hton (v : BitVec 32) : BitVec 32 := ntoh v

structure IP4 where
  raw0 : Byte
  raw1 : Byte
  raw2 : Byte
  raw3 : Byte
  deriving DecidableEq, Repr

namespace IP4

def zero : IP4 := ⟨0,0,0,0⟩
instance : Inhabited IP4 := ⟨zero⟩

instance : AndOp IP4 := ⟨fun a b => ⟨b.raw0 &&& a.raw0,b.raw1 &&& a.raw1,b.raw2 &&& a.raw2,b.raw3 &&& a.raw3⟩⟩
instance : OrOp IP4 := ⟨fun a b => ⟨b.raw0 ||| a.raw0,b.raw1 ||| a.raw1,b.raw2 ||| a.raw2,b.raw3 ||| a.raw3⟩⟩
instance : XorOp IP4 := ⟨fun a b => ⟨b.raw0 ^^^ a.raw0,b.raw1 ^^^ a.raw1,b.raw2 ^^^ a.raw2,b.raw3 ^^^ a.raw3⟩⟩
instance : Complement IP4 := ⟨fun a => ⟨~~~a.raw0,~~~a.raw1,~~~a.raw2,~~~a.raw3⟩⟩

/- memcpy between raw and a uint32_t: the first byte is the least significant. -/
def toWord (a : IP4) : BitVec 32 := a.raw3 ++ a.raw2 ++ a.raw1 ++ a.raw0
def ofWord (v : BitVec 32) : IP4 :=
  ⟨v.extractLsb' 0 8,v.extractLsb' 8 8,v.extractLsb' 16 8,v.extractLsb' 24 8⟩

def next (a : IP4) : IP4 := ofWord (hton (ntoh a.toWord + 1))

def empty (a : IP4) : Bool := a.raw0 == 0 && a.raw1 == 0 && a.raw2 == 0 && a.raw3 == 0

def raw (a : IP4) : Nat → Option Byte
  | 0 => some a.raw0
  | 1 => some a.raw1
  | 2 => some a.raw2
  | 3 => some a.raw3
  | _ => none

def orRaw (a : IP4) (b : Byte) : Nat → Option IP4
  | 0 => some {a with raw0 := a.raw0 ||| b}
  | 1 => some {a with raw1 := a.raw1 ||| b}
  | 2 => some {a with raw2 := a.raw2 ||| b}
  | 3 => some {a with raw3 := a.raw3 ||| b}
  | _ => none

theorem emptyZero {a : IP4} : a.empty = true ↔ a = zero := by
  simp only [empty,Bool.and_eq_true,beq_iff_eq]
  constructor
  · rintro ⟨⟨⟨h0,h1⟩,h2⟩,h3⟩
    cases a
    cases h0; cases h1; cases h2; cases h3
    rfl
  · rintro rfl
    exact ⟨⟨⟨rfl,rfl⟩,rfl⟩,rfl⟩

def prefixBit (i : Nat) : Byte := 0x80#8 >>> (i % 8)

def fromPrefix (pfx : Int) : Option IP4 :=
  (List.range pfx.toNat).foldlM (fun a i => a.orRaw (prefixBit i) (i / 8)) zero

def bitSet (a : IP4) (i : Nat) : Bool := (a.raw (i / 8)).any (fun b => b &&& prefixBit i != 0)

def toPrefix (a : IP4) : Nat := ((List.range 32).takeWhile a.bitSet).length

def addr (a : IP4) : BitVec 32 := a.raw0 ++ a.raw1 ++ a.raw2 ++ a.raw3

theorem bytesOfWord (a b c d : Byte) :
    (a ++ b ++ c ++ d : BitVec 32).extractLsb' 24 8 = a ∧
    (a ++ b ++ c ++ d : BitVec 32).extractLsb' 16 8 = b ∧
    (a ++ b ++ c ++ d : BitVec 32).extractLsb' 8 8 = c ∧
    (a ++ b ++ c ++ d : BitVec 32).extractLsb' 0 8 = d := by
  refine ⟨?_,?_,?_,?_⟩ <;> ext i hi <;>
    simp only [BitVec.getElem_extractLsb',BitVec.getLsbD_append] <;> grind

theorem wordOfBytes (v : BitVec 32) : (v.extractLsb' 24 8 ++ v.extractLsb' 16 8 ++
    v.extractLsb' 8 8 ++ v.extractLsb' 0 8 : BitVec 32) = v := by
  ext i hi
  simp only [BitVec.getElem_append,BitVec.getElem_extractLsb']
  grind

theorem addrInjective {a b : IP4} (same : a.addr = b.addr) : a = b := by
  have left := bytesOfWord a.raw0 a.raw1 a.raw2 a.raw3
  have right := bytesOfWord b.raw0 b.raw1 b.raw2 b.raw3
  change (a.raw0 ++ a.raw1 ++ a.raw2 ++ a.raw3 : BitVec 32) = _ at same
  rw [same] at left
  cases a; cases b
  simp only [IP4.mk.injEq]
  exact ⟨left.1.symm.trans right.1,left.2.1.symm.trans right.2.1,
    left.2.2.1.symm.trans right.2.2.1,left.2.2.2.symm.trans right.2.2.2⟩

theorem addrAnd (a b : IP4) : (a &&& b).addr = a.addr &&& b.addr := by
  change ((b.raw0 &&& a.raw0) ++ (b.raw1 &&& a.raw1) ++ (b.raw2 &&& a.raw2) ++ (b.raw3 &&& a.raw3) : BitVec 32) = _
  simp only [addr,← BitVec.and_append,BitVec.and_comm]

theorem addrOr (a b : IP4) : (a ||| b).addr = a.addr ||| b.addr := by
  change ((b.raw0 ||| a.raw0) ++ (b.raw1 ||| a.raw1) ++ (b.raw2 ||| a.raw2) ++ (b.raw3 ||| a.raw3) : BitVec 32) = _
  simp only [addr,← BitVec.or_append,BitVec.or_comm]

theorem addrXor (a b : IP4) : (a ^^^ b).addr = a.addr ^^^ b.addr := by
  change ((b.raw0 ^^^ a.raw0) ++ (b.raw1 ^^^ a.raw1) ++ (b.raw2 ^^^ a.raw2) ++ (b.raw3 ^^^ a.raw3) : BitVec 32) = _
  simp only [addr,← BitVec.xor_append,BitVec.xor_comm]

theorem addrNot (a : IP4) : (~~~a).addr = ~~~a.addr := by
  have general (a b c d : Byte) : ~~~a ++ ~~~b ++ ~~~c ++ ~~~d = ~~~(a ++ b ++ c ++ d) := by
    simp only [BitVec.not_append]
  exact general ..

theorem swappedWord (a : IP4) : byteswap a.toWord = a.addr := by
  have bytes := bytesOfWord a.raw3 a.raw2 a.raw1 a.raw0
  simp only [byteswap,toWord,addr,bytes]

theorem addrOfSwapped (v : BitVec 32) : (ofWord (byteswap v)).addr = v := by
  have bytes := bytesOfWord (v.extractLsb' 0 8) (v.extractLsb' 8 8) (v.extractLsb' 16 8) (v.extractLsb' 24 8)
  simp only [ofWord,byteswap,addr,bytes]
  exact wordOfBytes v

theorem addrNext (a : IP4) : a.next.addr = a.addr + 1 := by
  rw [next,hton,ntoh,ntoh,addrOfSwapped,swappedWord]

theorem toWordZero (a : IP4) : a.toWord = 0 ↔ a.addr = 0 := by
  have words := bytesOfWord a.raw3 a.raw2 a.raw1 a.raw0
  have addrs := bytesOfWord a.raw0 a.raw1 a.raw2 a.raw3
  constructor
  · intro zero
    change (a.raw3 ++ a.raw2 ++ a.raw1 ++ a.raw0 : BitVec 32) = 0 at zero
    rw [zero] at words
    obtain ⟨h3,h2,h1,h0⟩ := words
    rw [addr,← h0,← h1,← h2,← h3]
    decide
  · intro zero
    change (a.raw0 ++ a.raw1 ++ a.raw2 ++ a.raw3 : BitVec 32) = 0 at zero
    rw [zero] at addrs
    obtain ⟨h0,h1,h2,h3⟩ := addrs
    rw [toWord,← h0,← h1,← h2,← h3]
    decide

/- The masks fromPrefix can build: all ones above the k host bits. -/
def IsMask (m : IP4) (k : Nat) : Prop := k ≤ 32 ∧ m.addr = Words.highOnes 32 k

theorem fromPrefixAddr : ∀ p : Fin 33,
    (fromPrefix p.val).map addr = some (Words.highOnes 32 (32 - p.val)) := by
  decide +kernel

theorem fromPrefixBound {pfx : Int} {m : IP4} (ok : fromPrefix pfx = some m) : pfx.toNat ≤ 32 := by
  by_contra long
  obtain ⟨n,hn⟩ : ∃ n, pfx.toNat = 33 + n := ⟨pfx.toNat - 33,by omega⟩
  have stuck : (List.range 33).foldlM (fun a i => a.orRaw (prefixBit i) (i / 8)) zero = none := by
    decide +kernel
  rw [fromPrefix,hn,List.range_add,List.foldlM_append,stuck] at ok
  contradiction

theorem fromPrefixMask {pfx : Int} {m : IP4} (ok : fromPrefix pfx = some m) :
    m.IsMask (32 - pfx.toNat) := by
  have bound := fromPrefixBound ok
  have mask := fromPrefixAddr ⟨pfx.toNat,by omega⟩
  have nat : fromPrefix (pfx.toNat : Int) = some m := by
    rw [← ok]; simp only [fromPrefix,Int.toNat_natCast]
  rw [nat] at mask
  exact ⟨by omega,Option.some.inj mask⟩

def decimal (n : Nat) : Bytes := ascii (toString n)

def toString (a : IP4) : Bytes :=
  decimal a.raw0.toNat ++ ascii "." ++ decimal a.raw1.toNat ++ ascii "." ++
    decimal a.raw2.toNat ++ ascii "." ++ decimal a.raw3.toNat

end IP4

def isSpace (b : Byte) : Bool := b == 32 || (9 ≤ b.toNat && b.toNat ≤ 13)
def isDigit (b : Byte) : Bool := 48 ≤ b.toNat && b.toNat ≤ 57

def digitsValue (digits : Bytes) : Nat := digits.foldl (fun n d => n * 10 + (d.toNat - 48)) 0

/- std::stoi: leading blanks, a sign, digits; text after the digits is ignored,
no digits or a value outside int throw. -/
def stoi (text : Bytes) : Option Int :=
  let text := text.dropWhile isSpace
  let (negative,text) := match text with
    | 45::rest => (true,rest)
    | 43::rest => (false,rest)
    | _ => (false,text)
  let digits := text.takeWhile isDigit
  let value : Int := if negative then -digitsValue digits else digitsValue digits
  if digits = [] ∨ value < -2^31 ∨ 2^31 ≤ value then none else some value

structure Address where
  host : IP4
  mask : IP4
  deriving DecidableEq, Repr, Inhabited

/- fromCidr writes host before the prefix is parsed, so a rejected text may have
changed it; a prefix above 32 indexes past the mask. -/
inductive CidrResult where
  | ok (address : Address)
  | rejected (address : Address)
  | outOfBounds
  deriving DecidableEq, Repr

namespace Address

def net (a : Address) : IP4 := a.host &&& a.mask

def next (a : Address) : Address := ⟨a.net ||| (~~~a.mask &&& a.host.next),a.mask⟩

def isValid (a : Address) : Bool :=
  if (~~~a.mask &&& a.host).toWord = 0 then false
  else if (~~~(a.mask ||| a.host)).toWord = 0 then false
  else true

def empty (a : Address) : Bool := a.host.empty && a.mask.empty

def slash : Byte := 47

def fromCidr (ipAddress : Bytes → Option IP4) (a : Address) (cidr : Bytes) : CidrResult :=
  match ipAddress (cidr.takeWhile (· != slash)) with
  | none => .rejected a
  | some host =>
    match stoi (if slash ∈ cidr then (cidr.dropWhile (· != slash)).drop 1 else cidr) with
    | none => .rejected {a with host := host}
    | some pfx => match IP4.fromPrefix pfx with
      | none => .outOfBounds
      | some mask => .ok ⟨host,mask⟩

def toCidr (a : Address) : Bytes := a.host.toString ++ [slash] ++ IP4.decimal a.mask.toPrefix

end Address

theorem decimalSpec : ∀ n : Fin 256, (IP4.decimal n.val).all isDigit = true ∧
    digitsValue (IP4.decimal n.val) = n.val ∧ (IP4.decimal n.val).length ≤ 3 := by
  have digits : ∀ n : Fin 256, ((Nat.toDigits 10 n.val).map (fun c => BitVec.ofNat 8 c.toNat)).all isDigit = true ∧
      digitsValue ((Nat.toDigits 10 n.val).map (fun c => BitVec.ofNat 8 c.toNat)) = n.val ∧
      ((Nat.toDigits 10 n.val).map (fun c => BitVec.ofNat 8 c.toNat)).length ≤ 3 := by decide +kernel
  intro n
  have text : IP4.decimal n.val = (Nat.toDigits 10 n.val).map (fun c => BitVec.ofNat 8 c.toNat) := by
    simp only [IP4.decimal,ascii,Nat.toString_eq_repr,Nat.repr_eq_ofList_toDigits,String.toList_ofList]
  rw [text]
  exact digits n

theorem decimalInjective {a b : Byte} (same : IP4.decimal a.toNat = IP4.decimal b.toNat) : a = b := by
  have left := (decimalSpec ⟨a.toNat,a.isLt⟩).2.1
  have right := (decimalSpec ⟨b.toNat,b.isLt⟩).2.1
  exact BitVec.eq_of_toNat_eq (left.symm.trans ((congrArg digitsValue same).trans right))

theorem splitDigits {a b rest more : Bytes} {x y : Byte} (digits : a.all isDigit = true)
    (others : b.all isDigit = true) (left : isDigit x = false) (right : isDigit y = false)
    (same : a ++ x::rest = b ++ y::more) : a = b ∧ rest = more := by
  induction a generalizing b with
  | nil => cases b with
    | nil => cases same; exact ⟨rfl,rfl⟩
    | cons c b =>
      cases same
      simp [left] at others
  | cons c a ih => cases b with
    | nil =>
      cases same
      simp [right] at digits
    | cons d b =>
      obtain ⟨rfl,tails⟩ := List.cons.inj same
      rw [List.all_cons,Bool.and_eq_true] at digits others
      obtain ⟨rfl,ends⟩ := ih digits.2 others.2 tails
      exact ⟨rfl,ends⟩

namespace Address

def dot : Byte := 46

theorem toCidrParts (a : Address) : a.toCidr = IP4.decimal a.host.raw0.toNat ++ dot ::
    (IP4.decimal a.host.raw1.toNat ++ dot :: (IP4.decimal a.host.raw2.toNat ++ dot ::
    (IP4.decimal a.host.raw3.toNat ++ slash :: IP4.decimal a.mask.toPrefix))) := by
  have one : ascii "." = [dot] := by decide
  simp only [toCidr,IP4.toString,one,List.append_assoc,List.cons_append,List.nil_append]

theorem toCidrHost {a b : Address} (same : a.toCidr = b.toCidr) : a.host = b.host := by
  have digits (x : Byte) : (IP4.decimal x.toNat).all isDigit = true := (decimalSpec ⟨x.toNat,x.isLt⟩).1
  rw [toCidrParts,toCidrParts] at same
  obtain ⟨h0,same⟩ := splitDigits (digits _) (digits _) (by decide) (by decide) same
  obtain ⟨h1,same⟩ := splitDigits (digits _) (digits _) (by decide) (by decide) same
  obtain ⟨h2,same⟩ := splitDigits (digits _) (digits _) (by decide) (by decide) same
  obtain ⟨h3,_⟩ := splitDigits (digits _) (digits _) (by decide) (by decide) same
  have h0 := decimalInjective h0
  have h1 := decimalInjective h1
  have h2 := decimalInjective h2
  have h3 := decimalInjective h3
  cases left : a.host
  cases right : b.host
  simp_all

theorem prefixBound (m : IP4) : m.toPrefix ≤ 32 := by
  have sub := (List.takeWhile_prefix m.bitSet (l := List.range 32)).length_le
  rwa [List.length_range] at sub

theorem toCidrFits (a : Address) : a.toCidr.length ≤ 19 ∧ ∀ c ∈ a.toCidr, c ≠ 0 := by
  have spec (n : Nat) (small : n < 256) : (IP4.decimal n).all isDigit = true ∧ (IP4.decimal n).length ≤ 3 :=
    ⟨(decimalSpec ⟨n,small⟩).1,(decimalSpec ⟨n,small⟩).2.2⟩
  have octet (x : Byte) := spec x.toNat x.isLt
  have last := spec a.mask.toPrefix (lt_of_le_of_lt (prefixBound a.mask) (by decide))
  have nonzero {text : Bytes} (digits : text.all isDigit = true) : ∀ c ∈ text, c ≠ 0 := by
    rintro c member rfl
    exact absurd (List.all_eq_true.mp digits 0 member) (by decide)
  rw [toCidrParts]
  refine ⟨?_,?_⟩
  · have l0 := (octet a.host.raw0).2
    have l1 := (octet a.host.raw1).2
    have l2 := (octet a.host.raw2).2
    have l3 := (octet a.host.raw3).2
    have l4 := last.2
    simp only [List.length_append,List.length_cons]
    omega
  · intro c member
    simp only [List.mem_append,List.mem_cons] at member
    rcases member with h | rfl | h | rfl | h | rfl | h | rfl | h
    · exact nonzero (octet _).1 c h
    · decide
    · exact nonzero (octet _).1 c h
    · decide
    · exact nonzero (octet _).1 c h
    · decide
    · exact nonzero (octet _).1 c h
    · decide
    · exact nonzero last.1 c h

theorem fromCidrMask {ipAddress a cidr b} (ok : fromCidr ipAddress a cidr = .ok b) :
    ∃ k, b.mask.IsMask k := by
  unfold fromCidr at ok
  split at ok <;> try contradiction
  split at ok <;> try contradiction
  split at ok <;> try contradiction
  rename_i parsed
  cases ok
  exact ⟨_,IP4.fromPrefixMask parsed⟩

theorem fromCidrRejected {ipAddress a cidr b} (bad : fromCidr ipAddress a cidr = .rejected b) :
    b.mask = a.mask := by
  unfold fromCidr at bad
  split at bad
  · cases bad; rfl
  split at bad
  · cases bad; rfl
  split at bad <;> contradiction

section
variable {a : Address} {k : Nat}

theorem netNat (mask : a.mask.IsMask k) :
    a.net.addr.toNat = 2^k * (a.host.addr.toNat / 2^k) := by
  rw [net,IP4.addrAnd,mask.2,Words.andHighOnes]

theorem nextNat (mask : a.mask.IsMask k) : a.next.host.addr.toNat =
    2^k * (a.host.addr.toNat / 2^k) + (a.host.addr.toNat + 1) % 2^k := by
  have low : (~~~a.mask &&& a.host.next).addr.toNat = (a.host.addr.toNat + 1) % 2^k := by
    rw [IP4.addrAnd,IP4.addrNot,mask.2,Words.andNotHighOnes,IP4.addrNext,BitVec.toNat_add]
    exact Nat.mod_mod_of_dvd _ (Nat.pow_dvd_pow 2 mask.1)
  change (a.net ||| (~~~a.mask &&& a.host.next)).addr.toNat = _
  rw [IP4.addrOr,BitVec.toNat_or,low,netNat mask]
  exact Words.orHighLow (Nat.mod_lt _ (Nat.two_pow_pos k))

theorem validNat (mask : a.mask.IsMask k) : a.isValid = true ↔
    a.host.addr.toNat % 2^k ≠ 0 ∧ a.host.addr.toNat % 2^k ≠ 2^k - 1 := by
  have low : (~~~a.mask &&& a.host).toWord = 0 ↔ a.host.addr.toNat % 2^k = 0 := by
    rw [IP4.toWordZero,IP4.addrAnd,IP4.addrNot,mask.2,← Words.andNotHighOnes,← BitVec.toNat_inj]
    rfl
  have high : (~~~(a.mask ||| a.host)).toWord = 0 ↔ a.host.addr.toNat % 2^k = 2^k - 1 := by
    rw [IP4.toWordZero,IP4.addrNot,IP4.addrOr,mask.2]
    exact Words.notOrHighOnes _ _ mask.1
  simp only [isValid,low,high]
  split
  · simp_all
  · split <;> simp_all

theorem walkMask (a : Address) (j : Nat) : (next^[j] a).mask = a.mask := by
  induction j with
  | zero => rfl
  | succ j ih => rw [Function.iterate_succ_apply']; exact ih

theorem walkNat (mask : a.mask.IsMask k) (j : Nat) : (next^[j] a).host.addr.toNat =
    2^k * (a.host.addr.toNat / 2^k) + (a.host.addr.toNat + j) % 2^k := by
  induction j with
  | zero => simpa using (Nat.div_add_mod a.host.addr.toNat (2^k)).symm
  | succ j ih =>
    have here : (next^[j] a).mask.IsMask k := by rw [walkMask]; exact mask
    have rest := Nat.mod_lt (a.host.addr.toNat + j) (Nat.two_pow_pos k)
    rw [Function.iterate_succ_apply',nextNat here,ih,Nat.mul_add_div (Nat.two_pow_pos k),
      Nat.div_eq_of_lt rest,Nat.add_zero,Nat.add_assoc,Nat.mul_add_mod,Nat.mod_add_mod,Nat.add_assoc]

end
end Address
end Candy
