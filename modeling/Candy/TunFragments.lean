import Candy.Tun

/-! The fragments of one TCP or UDP datagram before isReturnByFlow of
src/tun/tun.cc: the first is looked up by its five-tuple, the others have no ports
and are judged by the routes. -/
namespace Candy.Tun
open WsMsg

/- What lies behind the IPv4 header is the payload, ports first. -/
structure Datagram where
  proto : Byte
  saddr : IP4
  daddr : IP4
  payload : Bytes
  l4 : proto = 0x06 ∨ proto = 0x11

def Datagram.key (d : Datagram) : FlowKey := ⟨d.proto,d.saddr.toWord,portRaw d.payload 0,d.daddr.toWord,portRaw d.payload 2⟩

/- An IPv4 packet with a piece of the datagram. Its options are its own. -/
structure Carries (d : Datagram) (start : Nat) (more : Bool) (piece p : Bytes) : Prop where
  version : IP4Header.version p = 4
  header : IP4Header.size ≤ IP4Header.ihl p
  whole : IP4Header.ihl p ≤ p.length
  proto : IP4Header.protocol p = d.proto
  saddr : IP4Header.saddr p = d.saddr
  daddr : IP4Header.daddr p = d.daddr
  offset : (IP4Header.fragOff p &&& 0x1fff).toNat * 8 = start
  flag : IP4Header.fragOff p &&& 0x2000 ≠ 0 ↔ more = true
  payload : p.drop (IP4Header.ihl p) = piece

/- The packets that carry the datagram from a position on: all but the last carry
units of eight bytes. -/
inductive Fragments (d : Datagram) : Nat → List Bytes → Prop where
  | last {start p} (carries : Carries d start false (d.payload.drop start) p) : Fragments d start [p]
  | more {start size p rest} (units : 8 ∣ size) (some : 0 < size) (inside : start + size < d.payload.length)
      (carries : Carries d start true ((d.payload.drop start).take size) p)
      (next : Fragments d (start + size) rest) : Fragments d start (p::rest)

/- In the same state, in whatever outer headers and whenever they come. -/
def Alike (t : Tun) (p q : Bytes) : Prop := ∀ outer outer' now now', outer.length = IP4Header.size → outer'.length = IP4Header.size →
  (t.isReturnByFlow now (outer ++ p)).2 = (t.isReturnByFlow now' (outer' ++ q)).2

variable {t : Tun} {d : Datagram} {start : Nat} {p : Bytes}

theorem wrappedDecides {outer : Bytes} (now : Int) (wrapped : outer.length = IP4Header.size) (long : IP4Header.size ≤ p.length) :
    (t.isReturnByFlow now (outer ++ p)).2 = match parseInnerL4 p with
      | none => (t.matching (IP4Header.saddr p)).isSome
      | some fwd => (t.initiatedFlows.lookup fwd.reverse).isSome := by
  have inner : (outer ++ p).drop IP4Header.size = p := List.drop_left' wrapped
  have room : ¬ (outer ++ p).length < IP4Header.size * 2 := by rw [List.length_append]; omega
  unfold isReturnByFlow isReturnTraffic
  rw [if_neg room,if_neg room,inner]
  cases parseInnerL4 p with
  | none => rfl
  | some fwd => cases found : t.initiatedFlows.lookup fwd.reverse <;> simp only [found] <;> rfl

/- The first fragment has at least eight bytes, so its ports can be read. -/
theorem firstParsed {more : Bool} {size : Nat} (ports : 4 ≤ size) (inside : size ≤ d.payload.length)
    (carries : Carries d 0 more (d.payload.take size) p) : parseInnerL4 p = some d.key := by
  have rest := congrArg List.length carries.payload
  rw [List.length_drop,List.length_take] at rest
  have header := carries.header
  have whole := carries.whole
  have start : IP4Header.fragOff p &&& 0x1fff = 0 := by
    have offset := carries.offset
    have zero : (IP4Header.fragOff p &&& 0x1fff).toNat = 0 := by omega
    exact BitVec.eq_of_toNat_eq zero
  have port (i : Nat) (small : i < 4) : byteAt p (IP4Header.ihl p + i) = byteAt d.payload i := by
    have same := congrArg (fun m => byteAt m i) carries.payload
    simpa [byteAt,List.getElem?_take,List.getElem?_drop,show i < size by omega] using same
  have src : portRaw p (IP4Header.ihl p) = portRaw d.payload 0 := by
    unfold portRaw
    rw [port 1 (by omega)]
    exact congrArg _ (port 0 (by omega))
  have dst : portRaw p (IP4Header.ihl p + 2) = portRaw d.payload 2 := by
    unfold portRaw
    rw [port 2 (by omega),show IP4Header.ihl p + 2 + 1 = IP4Header.ihl p + 3 from rfl,port 3 (by omega)]
  have l4 := d.l4
  unfold parseInnerL4
  rw [if_neg (by omega),if_neg (not_not.mpr carries.version),carries.proto,if_neg (by tauto),if_neg (not_not.mpr start),
    if_neg (by omega),if_neg (by omega),carries.saddr,carries.daddr,src,dst]
  rfl

theorem laterUnparsed {more : Bool} {piece : Bytes} (later : 0 < start) (carries : Carries d start more piece p) :
    parseInnerL4 p = none := by
  have offset : IP4Header.fragOff p &&& 0x1fff ≠ 0 := by
    intro zero
    have start := carries.offset
    rw [zero] at start
    simp at start
    omega
  unfold parseInnerL4
  simp only [if_pos offset,ite_self]

theorem laterRouted {fragments : List Bytes} (split : Fragments d start fragments) (later : 0 < start) :
    ∀ p ∈ fragments, parseInnerL4 p = none ∧ IP4Header.saddr p = d.saddr ∧ IP4Header.size ≤ p.length := by
  induction split with
  | last carries =>
    intro p member
    cases List.mem_singleton.mp member
    exact ⟨laterUnparsed later carries,carries.saddr,carries.header.trans carries.whole⟩
  | more units positive inside carries next ih =>
    intro p member
    rcases List.mem_cons.mp member with rfl | member
    · exact ⟨laterUnparsed later carries,carries.saddr,carries.header.trans carries.whole⟩
    · exact ih (by omega) p member

theorem fragmentsJudged {first : Bytes} {later : List Bytes} (split : Fragments d 0 (first::later)) :
    (∀ p ∈ later, Alike t first p) ↔ later = [] ∨ ((t.initiatedFlows.lookup d.key.reverse).isSome ↔ (t.matching d.saddr).isSome) := by
  cases split with
  | last carries => simp
  | more units positive inside carries next =>
    rename_i size
    rw [Nat.zero_add] at next inside
    have parsed := firstParsed (Nat.le_trans (by omega) (Nat.le_of_dvd positive units)) inside.le carries
    have long := carries.header.trans carries.whole
    have routed := laterRouted next positive
    have agree (p : Bytes) (member : p ∈ later) :
        Alike t first p ↔ ((t.initiatedFlows.lookup d.key.reverse).isSome ↔ (t.matching d.saddr).isSome) := by
      obtain ⟨unparsed,source,room⟩ := routed p member
      have decided (now : Int) {outer : Bytes} (wrapped : outer.length = IP4Header.size) :
          (t.isReturnByFlow now (outer ++ first)).2 = (t.initiatedFlows.lookup d.key.reverse).isSome := by
        rw [wrappedDecides now wrapped long,parsed]
      have guessed (now : Int) {outer : Bytes} (wrapped : outer.length = IP4Header.size) :
          (t.isReturnByFlow now (outer ++ p)).2 = (t.matching d.saddr).isSome := by
        rw [wrappedDecides now wrapped room,unparsed,source]
      rw [← Bool.eq_iff_iff]
      constructor
      · intro alike
        have plain : (List.replicate IP4Header.size 0 : Bytes).length = IP4Header.size := List.length_replicate
        rw [← decided 0 plain,← guessed 0 plain]
        exact alike _ _ 0 0 plain plain
      · intro same outer outer' now now' wrapped wrapped'
        rw [decided now wrapped,guessed now' wrapped',same]
    constructor
    · intro alike
      obtain ⟨p,member⟩ : ∃ p, p ∈ later := by
        cases next with
        | last => exact ⟨_,List.mem_singleton.mpr rfl⟩
        | more => exact ⟨_,List.mem_cons_self ..⟩
      exact .inr ((agree p member).mp (alike p member))
    · rintro (none | same) p member
      · rw [none] at member; contradiction
      · exact (agree p member).mpr same

/- A datagram that a client behind a routed gateway sends here on its own. -/
def inquiry : Datagram := ⟨0x11,⟨192,168,2,3⟩,⟨192,168,1,2⟩,[0x9c,0x40,0,53,0,12,0,0,1,2,3,4],.inr rfl⟩
def inquiryFirst : Bytes := [0x45,0,0,28,0,7,0x20,0,64,17,0,0,192,168,2,3,192,168,1,2] ++ [0x9c,0x40,0,53,0,12,0,0]
def inquiryLast : Bytes := [0x45,0,0,24,0,7,0,1,64,17,0,0,192,168,2,3,192,168,1,2] ++ [1,2,3,4]

def gateway : Tun := ⟨⟨10,0,0,1⟩,true,[⟨⟨192,168,2,0⟩,⟨255,255,255,0⟩,⟨10,0,0,2⟩⟩],∅,0⟩

theorem inquirySplit : Fragments inquiry 0 [inquiryFirst,inquiryLast] := by
  refine @Fragments.more _ 0 8 _ _ (by decide) (by decide) (by decide) ?_ (.last ?_)
  · constructor <;> decide
  · constructor <;> decide

theorem inquiryJudged : (∀ p ∈ [inquiryLast], Alike gateway inquiryFirst p) ↔ [inquiryLast] = [] ∨
    ((gateway.initiatedFlows.lookup inquiry.key.reverse).isSome ↔ (gateway.matching inquiry.saddr).isSome) :=
  fragmentsJudged inquirySplit

theorem inquiryTorn : Fragments inquiry 0 [inquiryFirst,inquiryLast] ∧ ¬ Alike gateway inquiryFirst inquiryLast := by
  refine ⟨inquirySplit,fun alike => ?_⟩
  have same := alike (List.replicate 20 0) (List.replicate 20 0) 0 0 rfl rfl
  revert same
  decide

end Candy.Tun
