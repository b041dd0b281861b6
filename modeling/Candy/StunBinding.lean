import Candy.StunResponse
import Candy.WsMessage

/-! Binding Success Responses as a STUN server sends them, every value padded to
four bytes, and when handleStunResponse finds the address in one. -/
namespace Candy.PeerStun
open Tlv
open WsMsg (ip4Bytes)

def magic : IP4 := ⟨0x21,0x12,0xa4,0x42⟩

/- The address a server saw, in one of its two encodings. -/
structure Reflexive where
  ip : IP4
  port : BitVec 16
  xored : Bool
  reserved : Byte
  ipSet : ip ≠ IP4.zero
  portSet : port ≠ 0

namespace Reflexive

def type (r : Reflexive) : BitVec 16 := if r.xored then XOR_MAPPED_ADDRESS else MAPPED_ADDRESS

def value (r : Reflexive) : Bytes := r.reserved :: 0x01 ::
  if r.xored then word (r.port ^^^ 0x2112) ++ ip4Bytes (r.ip ^^^ magic) else word r.port ++ ip4Bytes r.ip

theorem valueLength (r : Reflexive) : r.value.length = 8 := by
  unfold value
  split <;> rfl

def attr (r : Reflexive) : Attribute := ⟨r.type,r.value,by rw [valueLength]; decide⟩

end Reflexive

def padded (a : Attribute) : Bytes := a.encode ++ List.replicate ((4 - a.value.length % 4) % 4) 0

def body (before : List Attribute) (address : Reflexive) (after : List Attribute) : Bytes :=
  before.flatMap padded ++ (padded address.attr ++ after.flatMap padded)

structure Binding where
  id : Bytes
  before : List Attribute
  address : Reflexive
  after : List Attribute
  idLength : id.length = 12
  first : ∀ a ∈ before, Skipped a.type
  fits : (body before address after).length < 65536

namespace Binding

def body (b : Binding) : Bytes := PeerStun.body b.before b.address b.after

def bytes (b : Binding) : Bytes :=
  word 0x0101 ++ (word (BitVec.ofNat 16 b.body.length) ++ (ip4Bytes magic ++ (b.id ++ b.body)))

end Binding

def Tells (r : Reflexive) (tail : Bytes) (_left : Nat) : Prop :=
  read16 tail 0 = some MAPPED_ADDRESS ∧ readAddress tail 0 = some (r.port,r.ip.toWord) ∨
  read16 tail 0 = some XOR_MAPPED_ADDRESS ∧ readAddress tail 0 = some (r.port ^^^ 0x2112,r.ip.toWord ^^^ hton 0x2112a442)

theorem ofWordToWord (a : IP4) : IP4.ofWord a.toWord = a := by
  have bytes := IP4.bytesOfWord a.raw3 a.raw2 a.raw1 a.raw0
  simp only [IP4.ofWord,IP4.toWord,bytes]

theorem toWordOfWord (v : BitVec 32) : (IP4.ofWord v).toWord = v := IP4.wordOfBytes v

theorem toWordXor (a b : IP4) : (a ^^^ b).toWord = a.toWord ^^^ b.toWord := by
  change ((b.raw3 ^^^ a.raw3) ++ (b.raw2 ^^^ a.raw2) ++ (b.raw1 ^^^ a.raw1) ++ (b.raw0 ^^^ a.raw0) : BitVec 32) = _
  simp only [IP4.toWord,← BitVec.xor_append,BitVec.xor_comm]

theorem magicWord : magic.toWord = hton 0x2112a442 := by decide

theorem swapMask {w : Nat} {a b mask : BitVec w} : a ^^^ mask = b ↔ a = b ^^^ mask := by
  constructor
  · rintro rfl
    rw [BitVec.xor_assoc,BitVec.xor_self,BitVec.xor_zero]
  · rintro rfl
    rw [BitVec.xor_assoc,BitVec.xor_self,BitVec.xor_zero]

theorem mappedEq {found : Option (BitVec 16 × BitVec 32)} {ip : BitVec 32} {port : BitVec 16} :
    mapped found = .parsed ip port ↔ found = some (port,ip) := by
  cases found with
  | none => simp [mapped]
  | some found =>
    simp only [mapped,Walk.parsed.injEq,Option.some.injEq,Prod.ext_iff]
    exact and_comm

theorem xorMappedEq {found : Option (BitVec 16 × BitVec 32)} {ip : BitVec 32} {port : BitVec 16} :
    xorMapped found = .parsed ip port ↔ found = some (port ^^^ 0x2112,ip ^^^ hton 0x2112a442) := by
  cases found with
  | none => simp [xorMapped]
  | some found =>
    simp only [xorMapped,Walk.parsed.injEq,Option.some.injEq,Prod.ext_iff,swapMask]
    exact and_comm

theorem endsTells {r : Reflexive} {tail : Bytes} {left : Nat} :
    Ends (· = .parsed r.ip.toWord r.port) tail left ↔ Tells r tail left := by
  have nonzero : ¬ Walk.parsed 0 0 = .parsed r.ip.toWord r.port := fun same => r.portSet (Walk.parsed.inj same).2.symm
  simp only [Ends,Tells,mappedEq,xorMappedEq,nonzero,false_and,and_false,or_false]

theorem concluded {r : Reflexive} {w : Walk} : conclude w = .stored ⟨r.ip,r.port⟩ ↔ w = .parsed r.ip.toWord r.port := by
  cases w with
  | parsed ip port =>
    simp only [conclude,Walk.parsed.injEq]
    constructor
    · intro ok
      split at ok
      · contradiction
      · obtain ⟨same,ports⟩ := Stun.mk.inj (Handled.stored.inj ok)
        exact ⟨by rw [← same,toWordOfWord],ports⟩
    · rintro ⟨rfl,rfl⟩
      have set : r.ip.toWord ≠ 0 := by
        intro zero
        apply r.ipSet
        rw [← ofWordToWord r.ip,zero]
        decide
      rw [if_neg (not_or.mpr ⟨set,r.portSet⟩),ofWordToWord]
  | outOfBounds => simp [conclude]
  | unfinished => simp [conclude]

theorem writtenTells (r : Reflexive) (more : Bytes) (left : Nat) : Tells r (r.attr.encode ++ more) left := by
  obtain ⟨head,_⟩ := encodeRead r.attr more
  change read16 _ 0 = some r.type at head
  unfold Tells
  rw [head]
  have size : BitVec.ofNat 16 r.attr.value.length = 8 := by
    change BitVec.ofNat 16 r.value.length = BitVec.ofNat 16 8
    rw [r.valueLength]
  cases way : r.xored with
  | false =>
    have bytes : r.attr.encode ++ more = word r.type ++ (word 8 ++ (r.reserved::0x01::(word r.port ++ (ip4Bytes r.ip ++ more)))) := by
      rw [Attribute.encode,size]
      simp [Reflexive.attr,Reflexive.value,way]
    refine .inl ⟨by simp [Reflexive.type,way],?_⟩
    rw [bytes]
    change some (_ ++ _,r.ip.toWord) = _
    rw [bytesWord]
  | true =>
    have bytes : r.attr.encode ++ more =
        word r.type ++ (word 8 ++ (r.reserved::0x01::(word (r.port ^^^ 0x2112) ++ (ip4Bytes (r.ip ^^^ magic) ++ more)))) := by
      rw [Attribute.encode,size]
      simp [Reflexive.attr,Reflexive.value,way]
    refine .inr ⟨by simp [Reflexive.type,way],?_⟩
    rw [bytes]
    change some (_ ++ _,(r.ip ^^^ magic).toWord) = _
    rw [bytesWord,toWordXor,magicWord]

theorem paddedEncode {a : Attribute} (aligned : 4 ∣ a.value.length) : padded a = a.encode := by
  have none : (4 - a.value.length % 4) % 4 = 0 := by omega
  rw [padded,none,List.replicate_zero,List.append_nil]

theorem alignedBehind (b : Binding) (aligned : ∀ a ∈ b.before, 4 ∣ a.value.length) :
    Behind Skipped (Tells b.address) b.body b.body.length := by
  have front : b.before.flatMap padded = encode b.before :=
    List.flatMap_congr fun a member => paddedEncode (aligned a member)
  have whole : padded b.address.attr = b.address.attr.encode := paddedEncode (by
    change 4 ∣ b.address.value.length
    rw [b.address.valueLength]
    decide)
  have shape : b.body = encode b.before ++ (b.address.attr.encode ++ b.after.flatMap padded) := by
    rw [Binding.body,body,front,whole]
  refine ⟨b.before,_,b.first,shape,?_,writtenTells _ _ _⟩
  rw [shape,List.length_append,List.length_append,encodeLength]
  omega

theorem bindingParsed (b : Binding) : handleStunResponse b.bytes = .stored ⟨b.address.ip,b.address.port⟩ ↔
    (∀ a ∈ b.before, 4 ∣ a.value.length) ∨ Behind Skipped (Tells b.address) b.body b.body.length := by
  have long : headerSize ≤ b.bytes.length := by
    simp [Binding.bytes,word,ip4Bytes,headerSize,b.idLength]
  have type : read16 b.bytes 0 = some 0x0101 := readWord _ _
  have field : read16 b.bytes 2 = some (BitVec.ofNat 16 b.body.length) := by
    have shifted := readDrop b.bytes 2 0
    rw [← shifted]
    exact readWord _ _
  have size : (BitVec.ofNat 16 b.body.length).toNat = b.body.length := by
    rw [BitVec.toNat_ofNat]
    exact Nat.mod_eq_of_lt b.fits
  have attr : b.bytes.drop headerSize = b.body := by
    change (b.id ++ b.body).drop 12 = b.body
    exact List.drop_left' b.idLength
  have stops : Ends (· = .parsed b.address.ip.toWord b.address.port) = Tells b.address := by
    funext tail left
    exact propext endsTells
  have nonzero : ¬ Walk.parsed 0 0 = .parsed b.address.ip.toWord b.address.port :=
    fun same => b.address.portSet (Walk.parsed.inj same).2.symm
  rw [handledWalk long type field,attr,concluded,size]
  have bounds : ¬ Walk.outOfBounds = .parsed b.address.ip.toWord b.address.port := by simp
  have enough : (BitVec.ofNat 16 b.body.length).toNat - 0 < b.body.length + 1 := by omega
  have walk := attributesEnds (· = .parsed b.address.ip.toWord b.address.port) bounds b.body enough
  rw [walk,stops,size,List.drop_zero,Nat.sub_zero]
  constructor
  · rintro (⟨_,wrong⟩ | behind)
    · exact absurd wrong nonzero
    · exact .inr behind
  · rintro (aligned | behind)
    · exact .inr (alignedBehind b aligned)
    · exact .inr behind

/- A server that names its software first, in five letters and three zeros. -/
def software : Binding where
  id := [0,0,0,0,0,0,0,0,0,0,0,0]
  before := [⟨0x8022,[99,97,110,100,121],by decide⟩]
  address := ⟨⟨8,8,8,8⟩,4000,true,0,by decide,by decide⟩
  after := []
  idLength := rfl
  first := by simp [Skipped,MAPPED_ADDRESS,XOR_MAPPED_ADDRESS]
  fits := by decide

theorem softwareMissed : handleStunResponse software.bytes ≠ .stored ⟨software.address.ip,software.address.port⟩ := by
  have kept : handleStunResponse software.bytes = .kept := by decide +kernel
  rw [kept]
  simp

end Candy.PeerStun
