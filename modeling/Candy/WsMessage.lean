import Candy.Net
import Candy.Pieces

/-! Websocket frames of src/websocket/message.h as packed bytes. A check
recomputes the hash into the frame it checks, so its result includes the frame
as it is afterwards. SHA-256 is a parameter with 32-byte digests. -/
namespace Candy.WsMsg

def field (m : Bytes) (offset size : Nat) : Bytes := (m.drop offset).take size
def setField (m : Bytes) (offset : Nat) (value : Bytes) : Bytes :=
  m.take offset ++ value ++ m.drop (offset + value.length)

def byteAt (m : Bytes) (offset : Nat) : Byte := m.getD offset 0
def ip4At (m : Bytes) (offset : Nat) : IP4 :=
  ⟨byteAt m offset,byteAt m (offset+1),byteAt m (offset+2),byteAt m (offset+3)⟩
def ip4Bytes (a : IP4) : Bytes := [a.raw0,a.raw1,a.raw2,a.raw3]

/- An int64_t after hton, as it lies in the frame. -/
def timestampBytes (t : BitVec 64) : Bytes :=
  [56,48,40,32,24,16,8,0].map (fun shift => t.extractLsb' shift 8)

namespace Kind
def AUTH : Byte := 0
def FORWARD : Byte := 1
def EXPTTUN : Byte := 2
def UDP4CONN : Byte := 3
def VMAC : Byte := 4
def DISCOVERY : Byte := 5
def ROUTE : Byte := 6
def GENERAL : Byte := 255
end Kind

structure Digest where
  sha256 : Bytes → Bytes
  length : ∀ data, (sha256 data).length = 32

/- The three authenticated frames differ in their size, in the fields the hash
covers after the password, and in where the hash lies. -/
structure Signed where
  size : Nat
  covered : List (Nat × Nat)
  hash : Nat

def Signed.updateHash (l : Signed) (sha : Digest) (password m : Bytes) : Bytes :=
  setField m l.hash (sha.sha256 (password ++ l.covered.flatMap (fun f => field m f.1 f.2)))

def Signed.check (l : Signed) (sha : Digest) (password m : Bytes) : Bool × Bytes :=
  let updated := l.updateHash sha password m
  (field m l.hash 32 == field updated l.hash 32,updated)

def Auth : Signed := ⟨45,[(1,4),(5,8)],13⟩
def ExptTun : Signed := ⟨73,[(1,8)],41⟩
def VMac : Signed := ⟨57,[(1,16),(17,8)],25⟩

def Auth.ip (m : Bytes) : IP4 := ip4At m 1
def VMac.vmac (m : Bytes) : Bytes := field m 1 16

/- header->cidr is read as a C string: up to a zero byte, or to the end of the
buffer when the field has none. -/
def ExptTun.cidr (m : Bytes) : Bytes := (m.drop 9).takeWhile (· != 0)

namespace Forward
def size : Nat := 21
def daddr (m : Bytes) : IP4 := ip4At m 17
end Forward

namespace Conn
def size : Nat := 15
def src (m : Bytes) : IP4 := ip4At m 1
def dst (m : Bytes) : IP4 := ip4At m 5
end Conn

namespace Discovery
def size : Nat := 9
def src (m : Bytes) : IP4 := ip4At m 1
def dst (m : Bytes) : IP4 := ip4At m 5
end Discovery

namespace General
def size : Nat := 12
def src (m : Bytes) : IP4 := ip4At m 4
def dst (m : Bytes) : IP4 := ip4At m 8
end General

structure SysRouteEntry where
  dst : IP4
  mask : IP4
  nexthop : IP4
  deriving DecidableEq, Repr

def SysRouteEntry.bytes (e : SysRouteEntry) : Bytes := ip4Bytes e.dst ++ ip4Bytes e.mask ++ ip4Bytes e.nexthop

/- type, size, reserved, then the entries appended so far. -/
def sysRoute (size : Nat) (entries : Bytes) : Bytes := [Kind.ROUTE,BitVec.ofNat 8 size,0,0] ++ entries

theorem setFieldLength {m value : Bytes} {offset : Nat} (fits : offset + value.length ≤ m.length) :
    (setField m offset value).length = m.length := by
  simp only [setField,List.length_append,List.length_take,List.length_drop]
  omega

theorem fieldSet {m value : Bytes} {offset : Nat} (inside : offset ≤ m.length) :
    field (setField m offset value) offset value.length = value := by
  have start : (m.take offset).length = offset := by rw [List.length_take]; omega
  rw [field,setField,List.append_assoc,List.drop_left' start,List.take_left' rfl]

theorem setOwnField (m : Bytes) (offset size : Nat) (fits : offset + size ≤ m.length) :
    setField m offset (field m offset size) = m := by
  have long : (field m offset size).length = size := by
    rw [field,List.length_take,List.length_drop]; omega
  rw [setField,long,field,List.append_assoc,← List.drop_drop,List.take_append_drop,List.take_append_drop]

/- The recomputed hash overwrites itself when the check passes. -/
theorem Signed.checkPassed {l : Signed} {sha : Digest} {password m : Bytes} (fits : l.hash + 32 ≤ m.length)
    (good : (l.check sha password m).1 = true) : (l.check sha password m).2 = m := by
  have long := sha.length (password ++ l.covered.flatMap (fun f => field m f.1 f.2))
  have written := @fieldSet m (sha.sha256 (password ++ l.covered.flatMap (fun f => field m f.1 f.2))) l.hash (by omega)
  simp only [Signed.check,Signed.updateHash,beq_iff_eq] at good ⊢
  rw [long] at written
  rw [written] at good
  rw [← good]
  exact setOwnField m l.hash 32 fits

theorem ExptTun.cidrWritten {m text hash : Bytes} (long : 41 ≤ m.length) (short : text.length ≤ 31)
    (nonzero : ∀ c ∈ text, c ≠ 0) : ExptTun.cidr (setField (setField m 9 (text ++ [0])) 41 hash) = text := by
  have head : (m.take 9).length = 9 := by rw [List.length_take]; omega
  obtain ⟨rest,tail⟩ : ∃ rest, (setField m 9 (text ++ [0])).drop 9 = text ++ 0::rest :=
    ⟨_,by rw [setField,List.append_assoc,List.drop_left' head,List.append_assoc]; rfl⟩
  have size : 41 ≤ (setField m 9 (text ++ [0])).length := by
    rw [setFieldLength (by simp only [List.length_append,List.length_singleton]; omega)]
    exact long
  generalize setField m 9 (text ++ [0]) = written at tail size
  have start : (written.take 41).length = 41 := by rw [List.length_take]; omega
  have kept : (setField written 41 hash).drop 9 =
      (text ++ 0::rest).take 32 ++ (hash ++ written.drop (41 + hash.length)) := by
    rw [setField,List.append_assoc,List.drop_append_of_le_length (by omega),List.drop_take,tail]
  obtain ⟨more,room⟩ : ∃ more, (text ++ 0::rest).take 32 = text ++ 0::more := by
    obtain ⟨n,same⟩ : ∃ n, 32 = text.length + (n+1) := ⟨31 - text.length,by omega⟩
    exact ⟨rest.take n,by rw [same,List.take_length_add_append,List.take_succ_cons]⟩
  rw [ExptTun.cidr,kept,room,List.append_assoc,List.cons_append]
  exact Pieces.takeFirst (fun there => nonzero 0 there rfl) _

end Candy.WsMsg
