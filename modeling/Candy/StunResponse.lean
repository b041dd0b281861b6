import Candy.Net
import Candy.Tlv

/-! What a client makes of a STUN response, handleStunResponse of
src/peer/manager.cc. The attributes are walked by two lengths that came with the
datagram; a read that does not lie in the received bytes has no result. -/
namespace Candy.PeerStun
open Tlv

structure Stun where
  ip : IP4
  port : BitVec 16
  deriving DecidableEq, Repr

/- A uint32_t as it lies in memory. -/
def read32 (m : Bytes) (offset : Nat) : Option (BitVec 32) :=
  match m.drop offset with
  | a::b::c::d::_ => some (IP4.toWord ⟨a,b,c,d⟩)
  | _ => none

inductive Walk where
  | parsed (ip : BitVec 32) (port : BitVec 16)
  | outOfBounds
  | unfinished
  deriving DecidableEq, Repr

def MAPPED_ADDRESS : BitVec 16 := 0x0001
def XOR_MAPPED_ADDRESS : BitVec 16 := 0x0020

/- Behind type, length, a reserved byte and the version of IP. -/
def readAddress (attr : Bytes) (pos : Nat) : Option (BitVec 16 × BitVec 32) := do
  let port ← read16 attr (pos + 6)
  let ip ← read32 attr (pos + 8)
  some (port,ip)

def mapped : Option (BitVec 16 × BitVec 32) → Walk
  | none => .outOfBounds
  | some (port,ip) => .parsed ip port

def xorMapped : Option (BitVec 16 × BitVec 32) → Walk
  | none => .outOfBounds
  | some (port,ip) => .parsed (ip ^^^ hton 0x2112a442) (port ^^^ 0x2112)

/- The next attribute is taken to start where the value of this one ends. -/
def attributes (attr : Bytes) (length : BitVec 16) : Nat → Nat → Walk
  | 0,_ => .unfinished
  | fuel+1,pos =>
    if pos < length.toNat then
      match read16 attr pos with
      | none => .outOfBounds
      | some type =>
        if type = MAPPED_ADDRESS then mapped (readAddress attr pos)
        else if type = XOR_MAPPED_ADDRESS then xorMapped (readAddress attr pos)
        else match read16 attr (pos + 2) with
          | none => .outOfBounds
          | some size => attributes attr length fuel (pos + (4 + size.toNat))
    else .parsed 0 0

inductive Handled where
  | kept
  | stored (stun : Stun)
  | outOfBounds
  | unfinished
  deriving DecidableEq, Repr

def headerSize : Nat := 20

/- An address or a port that is still zero is none. -/
def conclude : Walk → Handled
  | .parsed ip port => if ip = 0 ∨ port = 0 then .kept else .stored ⟨IP4.ofWord ip,port⟩
  | .outOfBounds => .outOfBounds
  | .unfinished => .unfinished

def handleStunResponse (m : Bytes) : Handled :=
  if m.length < headerSize then .kept
  else if read16 m 0 ≠ some 0x0101 then .kept
  else match read16 m 2 with
    | none => .outOfBounds
    | some length => conclude (attributes (m.drop headerSize) length (length.toNat + 1) 0)

def Skipped (type : BitVec 16) : Prop := type ≠ MAPPED_ADDRESS ∧ type ≠ XOR_MAPPED_ADDRESS

/- The last attribute the walk looks at, with a good end. -/
def Ends (good : Walk → Prop) (tail : Bytes) (left : Nat) : Prop :=
  read16 tail 0 = some MAPPED_ADDRESS ∧ good (mapped (readAddress tail 0)) ∨
  read16 tail 0 = some XOR_MAPPED_ADDRESS ∧ good (xorMapped (readAddress tail 0)) ∨
  (∃ type, read16 tail 0 = some type ∧ Skipped type) ∧ good (.parsed 0 0) ∧
    ∃ size, read16 tail 2 = some size ∧ left ≤ 4 + size.toNat

theorem read32Drop (m : Bytes) (pos offset : Nat) : read32 (m.drop pos) offset = read32 m (pos + offset) := by
  rw [read32,read32,List.drop_drop]

theorem readAddressDrop (m : Bytes) (pos : Nat) : readAddress (m.drop pos) 0 = readAddress m pos := by
  rw [readAddress,readAddress,readDrop,read32Drop]

/- Every pass goes on by at least the four bytes of a head. -/
theorem attributesFinish {attr : Bytes} {length : BitVec 16} {fuel pos : Nat} (enough : length.toNat - pos < fuel) :
    attributes attr length fuel pos ≠ .unfinished := by
  induction fuel generalizing pos with
  | zero => omega
  | succ fuel ih =>
    rw [attributes]
    split
    · cases read16 attr pos with
      | none => simp
      | some type =>
        dsimp only
        split
        · cases readAddress attr pos <;> simp [mapped]
        · split
          · cases readAddress attr pos <;> simp [xorMapped]
          · cases read16 attr (pos + 2) with
            | none => simp
            | some size => exact ih (by omega)
    · simp

section
variable {good : Walk → Prop} {tail : Bytes} {left : Nat} {type : BitVec 16}

theorem endsMapped (head : read16 tail 0 = some MAPPED_ADDRESS) : Ends good tail left ↔ good (mapped (readAddress tail 0)) := by
  have other : MAPPED_ADDRESS ≠ XOR_MAPPED_ADDRESS := by decide
  simp [Ends,head,Skipped,other]

theorem endsXorMapped (head : read16 tail 0 = some XOR_MAPPED_ADDRESS) :
    Ends good tail left ↔ good (xorMapped (readAddress tail 0)) := by
  have other : XOR_MAPPED_ADDRESS ≠ MAPPED_ADDRESS := by decide
  simp [Ends,head,Skipped,other]

theorem endsSkipped (head : read16 tail 0 = some type) (plain : Skipped type) : Ends good tail left ↔
    good (.parsed 0 0) ∧ ∃ size, read16 tail 2 = some size ∧ left ≤ 4 + size.toNat := by
  simp [Ends,head,plain,plain.1,plain.2]

theorem endsCut (none : read16 tail 0 = none) : ¬ Ends good tail left := by
  simp [Ends,none]

theorem behindSkipped {size : BitVec 16} (head : read16 tail 0 = some type) (plain : Skipped type)
    (field : read16 tail 2 = some size) (positive : 0 < left) : Behind Skipped (Ends good) tail left ↔
      (left ≤ 4 + size.toNat ∧ good (.parsed 0 0)) ∨
      Behind Skipped (Ends good) (tail.drop (4 + size.toNat)) (left - (4 + size.toNat)) := by
  by_cases last : left ≤ 4 + size.toNat
  · have used : left - (4 + size.toNat) = 0 := by omega
    rw [behindLast field last,endsSkipped head plain,used]
    simp only [behindNone,positive,field,last,true_and,or_false,Option.some.injEq,exists_eq_left',and_true]
  · have on : ¬ Ends good tail left := by
      rw [endsSkipped head plain]
      rintro ⟨_,other,same,short⟩
      cases Option.some.inj (field.symm.trans same)
      omega
    rw [behindHead head field plain on]
    simp only [last,false_and,false_or]
    refine ⟨fun rest => rest.2.2,fun rest => ⟨?_,by omega,rest⟩⟩
    by_contra short
    have nothing : tail.drop (4 + size.toNat) = [] := List.drop_eq_nil_of_le (by omega)
    rw [nothing,behindStuck (by simp [read16])] at rest
    exact endsCut rfl rest.2

end

theorem attributesEnds (good : Walk → Prop) (bounds : ¬ good .outOfBounds) (attr : Bytes) {length : BitVec 16}
    {fuel pos : Nat} (enough : length.toNat - pos < fuel) : good (attributes attr length fuel pos) ↔
      (length.toNat ≤ pos ∧ good (.parsed 0 0)) ∨
      Behind Skipped (Ends good) (attr.drop pos) (length.toNat - pos) := by
  induction fuel generalizing pos with
  | zero => omega
  | succ fuel ih =>
    have first : read16 (attr.drop pos) 0 = read16 attr pos := readDrop attr pos 0
    have second : read16 (attr.drop pos) 2 = read16 attr (pos + 2) := readDrop attr pos 2
    have address := readAddressDrop attr pos
    rw [attributes]
    by_cases inside : pos < length.toNat
    · rw [if_pos inside]
      have more : ¬ length.toNat ≤ pos := by omega
      have positive : 0 < length.toNat - pos := by omega
      simp only [more,false_and,false_or]
      cases head : read16 attr pos with
      | none =>
        rw [head] at first
        rw [behindStuck (by simp [first])]
        simp [endsCut first,bounds]
      | some type =>
        rw [head] at first
        dsimp only
        split
        · rename_i same
          rw [same] at first
          rw [behindStuck (by simp [first,Skipped]),endsMapped first,address]
          simp [positive]
        split
        · rename_i same
          rw [same] at first
          rw [behindStuck (by simp [first,Skipped]),endsXorMapped first,address]
          simp [positive]
        · rename_i not1 not2
          have plain : Skipped type := ⟨not1,not2⟩
          cases field : read16 attr (pos + 2) with
          | none =>
            rw [field] at second
            rw [behindStuck (by simp [second]),endsSkipped first plain]
            simp [second,bounds]
          | some size =>
            rw [field] at second
            dsimp only
            have used : length.toNat - pos ≤ 4 + size.toNat ↔ length.toNat ≤ pos + (4 + size.toNat) := by omega
            rw [ih (by omega),behindSkipped first plain second positive,List.drop_drop,Nat.sub_sub,used]
    · rw [if_neg inside]
      have past : length.toNat ≤ pos := by omega
      have used : length.toNat - pos = 0 := by omega
      simp only [past,used,true_and,behindNone,or_false]

/- The walk comes to an end and reads nothing that was not received. -/
def Safe (m : Bytes) : Prop := handleStunResponse m ≠ .outOfBounds ∧ handleStunResponse m ≠ .unfinished

/- Behind whole attributes stands either an address of which all twelve bytes are
there, or the head of another attribute that uses up the length. -/
def Enclosed (tail : Bytes) (left : Nat) : Prop :=
  ∃ type, read16 tail 0 = some type ∧
    (¬ Skipped type ∧ 12 ≤ tail.length ∨ Skipped type ∧ ∃ size, read16 tail 2 = some size ∧ left ≤ 4 + size.toNat)

theorem read32Inside {m : Bytes} {offset : Nat} : (read32 m offset).isSome ↔ offset + 4 ≤ m.length := by
  have size := List.length_drop (l := m) (i := offset)
  unfold read32
  split
  · rename_i a b c d rest shape
    rw [shape] at size
    simp only [List.length_cons] at size
    simp only [Option.isSome_some,true_iff]
    omega
  · rename_i other
    simp only [Option.isSome_none,Bool.false_eq_true,false_iff]
    intro room
    match rest : m.drop offset with
    | [] => rw [rest] at size; simp at size; omega
    | [_] => rw [rest] at size; simp at size; omega
    | [_,_] => rw [rest] at size; simp at size; omega
    | [_,_,_] => rw [rest] at size; simp at size; omega
    | a::b::c::d::more => exact other a b c d more rest

theorem addressInside {tail : Bytes} : (readAddress tail 0).isSome ↔ 12 ≤ tail.length := by
  have port : (read16 tail 6).isSome ↔ 6 + 2 ≤ tail.length := readInside
  have ip : (read32 tail 8).isSome ↔ 8 + 4 ≤ tail.length := read32Inside
  constructor
  · intro read
    obtain ⟨_,ok⟩ := Option.isSome_iff_exists.mp read
    simp only [readAddress,bind,Option.bind_eq_some_iff] at ok
    obtain ⟨_,_,_,there,_⟩ := ok
    exact ip.mp (Option.isSome_iff_exists.mpr ⟨_,there⟩)
  · intro room
    obtain ⟨p,port⟩ := Option.isSome_iff_exists.mp (port.mpr (by omega))
    obtain ⟨i,ip⟩ := Option.isSome_iff_exists.mp (ip.mpr (by omega))
    simp [readAddress,port,ip]

def Parsed (w : Walk) : Prop := ∃ ip port, w = .parsed ip port

theorem parsedAddress {found : Option (BitVec 16 × BitVec 32)} :
    (Parsed (mapped found) ↔ found.isSome) ∧ (Parsed (xorMapped found) ↔ found.isSome) := by
  cases found with
  | none => simp [Parsed,mapped,xorMapped]
  | some found => simp [Parsed,mapped,xorMapped]

theorem endsEnclosed {tail : Bytes} {left : Nat} : Ends Parsed tail left ↔ Enclosed tail left := by
  have finished : Parsed (.parsed 0 0) := ⟨0,0,rfl⟩
  unfold Enclosed
  cases head : read16 tail 0 with
  | none => simp [endsCut head]
  | some type =>
    by_cases plain : Skipped type
    · rw [endsSkipped head plain]
      simp only [finished,true_and,Option.some.injEq,exists_eq_left',plain,not_true_eq_false,false_and,false_or]
    · have address : type = MAPPED_ADDRESS ∨ type = XOR_MAPPED_ADDRESS := by
        simp only [Skipped] at plain
        grind
      rcases address with rfl | rfl
      · rw [endsMapped head,parsedAddress.1,addressInside]
        simp [plain]
      · rw [endsXorMapped head,parsedAddress.2,addressInside]
        simp [plain]

theorem handledWalk {m : Bytes} {length : BitVec 16} (long : headerSize ≤ m.length) (type : read16 m 0 = some 0x0101)
    (field : read16 m 2 = some length) :
    handleStunResponse m = conclude (attributes (m.drop headerSize) length (length.toNat + 1) 0) := by
  rw [handleStunResponse,if_neg (Nat.not_lt.mpr long),if_neg (not_not.mpr type),field]

theorem safeParsed {m : Bytes} {length : BitVec 16} (long : headerSize ≤ m.length) (type : read16 m 0 = some 0x0101)
    (field : read16 m 2 = some length) : Safe m ↔ Parsed (attributes (m.drop headerSize) length (length.toNat + 1) 0) := by
  have finish : attributes (m.drop headerSize) length (length.toNat + 1) 0 ≠ .unfinished := attributesFinish (by omega)
  rw [Safe,handledWalk long type field]
  cases walk : attributes (m.drop headerSize) length (length.toNat + 1) 0 with
  | parsed ip port =>
    have done : Parsed (.parsed ip port) := ⟨ip,port,rfl⟩
    simp only [conclude,done,iff_true]
    split <;> simp
  | outOfBounds => simp [conclude,Parsed]
  | unfinished => exact absurd walk finish

theorem responseKept {m : Bytes} (other : m.length < headerSize ∨ read16 m 0 ≠ some 0x0101) : handleStunResponse m = .kept := by
  unfold handleStunResponse
  split
  · rfl
  · rename_i long
    rw [if_pos (other.resolve_left long)]

theorem responseSafe (m : Bytes) : Safe m ↔ m.length < headerSize ∨ read16 m 0 ≠ some 0x0101 ∨ read16 m 2 = some 0 ∨
    ∃ length, read16 m 2 = some length ∧ Behind Skipped Enclosed (m.drop headerSize) length.toNat := by
  by_cases other : m.length < headerSize ∨ read16 m 0 ≠ some 0x0101
  · have safe : Safe m := by
      rw [Safe,responseKept other]
      simp
    exact iff_of_true safe (or_assoc.mp (.inl other))
  · obtain ⟨long,type⟩ := not_or.mp other
    rw [Nat.not_lt] at long
    rw [ne_eq,not_not] at type
    obtain ⟨length,field⟩ := Option.isSome_iff_exists.mp (readInside.mpr (show 2 + 2 ≤ m.length by unfold headerSize at long; omega))
    have stops : Ends Parsed = Enclosed := by
      funext tail left
      exact propext endsEnclosed
    have finished : Parsed (.parsed 0 0) := ⟨0,0,rfl⟩
    have bounds : ¬ Parsed .outOfBounds := fun ⟨_,_,wrong⟩ => by contradiction
    have enough : length.toNat - 0 < length.toNat + 1 := by omega
    have walk := attributesEnds Parsed bounds (m.drop headerSize) enough
    have zero : length.toNat ≤ 0 ↔ length = 0 := by
      rw [Nat.le_zero,← BitVec.toNat_inj]
      rfl
    rw [stops,zero] at walk
    rw [safeParsed long type field,walk,type,field]
    simp only [Nat.not_lt.mpr long,ne_eq,not_true_eq_false,false_or,Option.some.injEq,exists_eq_left',finished,and_true,
      List.drop_zero,Nat.sub_zero]

theorem announcedUnsafe : ¬ Safe [1,1,0,8,0x21,0x12,0xa4,0x42,0,0,0,0,0,0,0,0,0,0,0,0] := by
  have outside : handleStunResponse [1,1,0,8,0x21,0x12,0xa4,0x42,0,0,0,0,0,0,0,0,0,0,0,0] = .outOfBounds := by decide
  exact fun safe => safe.1 outside

end Candy.PeerStun
