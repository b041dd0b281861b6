import Mathlib.Data.BitVec
import Mathlib.Algebra.Order.Group.Nat

/-! Attributes of a type, a length and a value, one behind the other, kept as a
library: nothing here names a component. Numbers of two bytes are in network
order. A reader that skips attributes of some types and stops in front of
something has read whole attributes up to there. -/
namespace Candy.Tlv

abbrev Octets := List (BitVec 8)

def word (v : BitVec 16) : Octets := [v.extractLsb' 8 8,v.extractLsb' 0 8]

def read16 (m : Octets) (offset : Nat) : Option (BitVec 16) :=
  match m.drop offset with
  | high::low::_ => some (high ++ low)
  | _ => none

structure Attribute where
  type : BitVec 16
  value : Octets
  small : value.length < 65536

def Attribute.encode (a : Attribute) : Octets := word a.type ++ word (BitVec.ofNat 16 a.value.length) ++ a.value

def encode (attributes : List Attribute) : Octets := attributes.flatMap Attribute.encode

/- Behind whole attributes that may be skipped, within the given length, the reader
stands in front of something; both the rest and what is left of the length count. -/
def Behind (skip : BitVec 16 → Prop) (stop : Octets → Nat → Prop) (m : Octets) (left : Nat) : Prop :=
  ∃ (skipped : List Attribute) (tail : Octets), (∀ a ∈ skipped, skip a.type) ∧ m = encode skipped ++ tail ∧
    (encode skipped).length < left ∧ stop tail (left - (encode skipped).length)

theorem wordBytes (high low : BitVec 8) : word (high ++ low) = [high,low] := by
  have first : (high ++ low : BitVec 16).extractLsb' 8 8 = high := by
    ext i bound
    simp only [BitVec.getElem_extractLsb',BitVec.getLsbD_append]
    grind
  have second : (high ++ low : BitVec 16).extractLsb' 0 8 = low := by
    ext i bound
    simp only [BitVec.getElem_extractLsb',BitVec.getLsbD_append]
    grind
  rw [word,first,second]

theorem bytesWord (v : BitVec 16) : (v.extractLsb' 8 8 ++ v.extractLsb' 0 8 : BitVec 16) = v := by
  ext i bound
  simp only [BitVec.getElem_append,BitVec.getElem_extractLsb']
  grind

theorem readDrop (m : Octets) (pos offset : Nat) : read16 (m.drop pos) offset = read16 m (pos + offset) := by
  rw [read16,read16,List.drop_drop]

theorem readWord (v : BitVec 16) (m : Octets) : read16 (word v ++ m) 0 = some v := by
  simp only [read16,word,List.drop_zero,List.cons_append,List.nil_append,bytesWord]

theorem readSome {m : Octets} {offset : Nat} {v : BitVec 16} (ok : read16 m offset = some v) :
    m.drop offset = word v ++ m.drop (offset + 2) := by
  unfold read16 at ok
  rw [← List.drop_drop]
  split at ok
  · rename_i high low rest shape
    cases Option.some.inj ok
    rw [wordBytes,shape]
    rfl
  · contradiction

theorem readInside {m : Octets} {offset : Nat} : (read16 m offset).isSome ↔ offset + 2 ≤ m.length := by
  have size := List.length_drop (l := m) (i := offset)
  unfold read16
  split
  · rename_i high low rest shape
    rw [shape] at size
    simp only [List.length_cons] at size
    simp only [Option.isSome_some,true_iff]
    omega
  · rename_i other
    simp only [Option.isSome_none,Bool.false_eq_true,false_iff]
    intro room
    match rest : m.drop offset with
    | [] => rw [rest] at size; simp at size; omega
    | [_] => rw [rest] at size; simp at size; omega
    | high::low::more => exact other high low more rest

theorem lengthField (a : Attribute) : (BitVec.ofNat 16 a.value.length).toNat = a.value.length := by
  rw [BitVec.toNat_ofNat]
  exact Nat.mod_eq_of_lt a.small

theorem encodeLength (a : Attribute) : a.encode.length = 4 + a.value.length := by
  simp [Attribute.encode,word]
  omega

theorem encodeRead (a : Attribute) (more : Octets) : read16 (a.encode ++ more) 0 = some a.type ∧
    read16 (a.encode ++ more) 2 = some (BitVec.ofNat 16 a.value.length) := by
  refine ⟨?_,?_⟩
  · rw [Attribute.encode,List.append_assoc,List.append_assoc]
    exact readWord _ _
  · have behind : (a.encode ++ more).drop 2 = word (BitVec.ofNat 16 a.value.length) ++ (a.value ++ more) := by
      rw [Attribute.encode,List.append_assoc,List.append_assoc]
      rfl
    have shifted := readDrop (a.encode ++ more) 2 0
    rw [behind,readWord] at shifted
    exact shifted.symm

theorem encodeSplit {m : Octets} {type length : BitVec 16} (head : read16 m 0 = some type)
    (field : read16 m 2 = some length) (room : 4 + length.toNat ≤ m.length) :
    ∃ a : Attribute, a.type = type ∧ a.encode.length = 4 + length.toNat ∧ m = a.encode ++ m.drop (4 + length.toNat) := by
  have size : ((m.drop 4).take length.toNat).length = length.toNat := by
    rw [List.length_take,List.length_drop]
    omega
  have small : ((m.drop 4).take length.toNat).length < 65536 := by
    rw [size]; exact length.isLt
  refine ⟨⟨type,(m.drop 4).take length.toNat,small⟩,rfl,by rw [encodeLength,size],?_⟩
  have back : BitVec.ofNat 16 length.toNat = length := by simp
  have first := readSome head
  have second := readSome field
  rw [List.drop_zero] at first
  rw [Attribute.encode,size,back,List.append_assoc,List.append_assoc,← List.drop_drop,List.take_append_drop,← second]
  exact first

theorem fieldLength {a : Attribute} {more : Octets} {length : BitVec 16} (field : read16 (a.encode ++ more) 2 = some length) :
    a.encode.length = 4 + length.toNat := by
  have read := (encodeRead a more).2
  rw [encodeLength,← lengthField a]
  exact congrArg (4 + BitVec.toNat ·) (Option.some.inj (read.symm.trans field))

variable {skip : BitVec 16 → Prop} {stop : Octets → Nat → Prop} {m : Octets} {left : Nat}

theorem behindUnfold : Behind skip stop m left ↔ (0 < left ∧ stop m left) ∨
    ∃ (a : Attribute) (more : Octets), skip a.type ∧ m = a.encode ++ more ∧ a.encode.length < left ∧ Behind skip stop more (left - a.encode.length) := by
  constructor
  · rintro ⟨skipped,tail,types,shape,short,stops⟩
    cases skipped with
    | nil =>
      change m = tail at shape
      exact .inl ⟨short,shape ▸ stops⟩
    | cons a skipped =>
      simp only [encode,List.flatMap_cons,List.append_assoc,List.length_append] at shape short stops
      refine .inr ⟨a,_,types a (List.mem_cons_self ..),shape,by omega,skipped,tail,
        fun b member => types b (List.mem_cons_of_mem _ member),rfl,?_,?_⟩
      · simp only [encode]; omega
      · rw [Nat.sub_sub]; exact stops
  · rintro (⟨positive,stops⟩ | ⟨a,more,type,rfl,_,skipped,tail,types,rfl,short,stops⟩)
    · exact ⟨[],m,by simp,rfl,positive,stops⟩
    · refine ⟨a::skipped,tail,?_,?_,?_,?_⟩
      · intro b member
        rcases List.mem_cons.mp member with same | member
        · rw [same]; exact type
        · exact types b member
      · simp only [encode,List.flatMap_cons,List.append_assoc]
      · simp only [encode,List.flatMap_cons,List.length_append] at short ⊢
        omega
      · simp only [encode,List.flatMap_cons,List.length_append,← Nat.sub_sub] at stops ⊢
        exact stops

theorem behindNone : ¬ Behind skip stop m 0 := by
  rintro ⟨_,_,_,_,short,_⟩
  omega

theorem behindHead {type length : BitVec 16} (head : read16 m 0 = some type) (field : read16 m 2 = some length)
    (skips : skip type) (on : ¬ stop m left) : Behind skip stop m left ↔ 4 + length.toNat ≤ m.length ∧
      4 + length.toNat < left ∧ Behind skip stop (m.drop (4 + length.toNat)) (left - (4 + length.toNat)) := by
  rw [behindUnfold]
  constructor
  · rintro (⟨_,stops⟩ | ⟨a,more,_,rfl,short,rest⟩)
    · exact absurd stops on
    · rw [← fieldLength field,List.drop_left]
      exact ⟨by rw [List.length_append]; omega,short,rest⟩
  · rintro ⟨room,short,rest⟩
    obtain ⟨a,same,size,shape⟩ := encodeSplit head field room
    exact .inr ⟨a,_,same ▸ skips,shape,by omega,by rw [size]; exact rest⟩

theorem behindLast {length : BitVec 16} (field : read16 m 2 = some length) (last : left ≤ 4 + length.toNat) :
    Behind skip stop m left ↔ 0 < left ∧ stop m left := by
  rw [behindUnfold]
  constructor
  · rintro (here | ⟨a,more,_,rfl,short,_⟩)
    · exact here
    · have size := fieldLength field
      omega
  · exact .inl

theorem behindStuck (stuck : ∀ type, read16 m 0 = some type → skip type → read16 m 2 = none) :
    Behind skip stop m left ↔ 0 < left ∧ stop m left := by
  rw [behindUnfold]
  constructor
  · rintro (here | ⟨a,more,skips,rfl,_,_⟩)
    · exact here
    · obtain ⟨head,field⟩ := encodeRead a more
      rw [stuck _ head skips] at field
      contradiction
  · exact .inl

end Candy.Tlv
