import Mathlib.Data.BitVec
import Mathlib.Algebra.Order.Group.Nat
import Mathlib.Tactic.Ring

/-! Words cut in two by a mask of leading ones, as Nat arithmetic. With k low
bits, masking keeps the multiple of 2^k and the complement keeps the remainder.
Independent of what the words stand for. -/
namespace Candy.Words

variable {w : Nat}

def highOnes (w k : Nat) : BitVec w := BitVec.allOnes w <<< k

theorem andNotHighOnes (x : BitVec w) (k : Nat) : (~~~highOnes w k &&& x).toNat = x.toNat % 2^k := by
  have same : ~~~highOnes w k &&& x = BitVec.ofNat w (x.toNat % 2^k) := by
    apply BitVec.eq_of_getLsbD_eq
    intro i bound
    simp only [highOnes,BitVec.getLsbD_and,BitVec.getLsbD_not,BitVec.getLsbD_shiftLeft,
      BitVec.getLsbD_allOnes,BitVec.getLsbD_ofNat,Nat.testBit_mod_two_pow,BitVec.testBit_toNat]
    grind
  rw [same,BitVec.toNat_ofNat]
  exact Nat.mod_eq_of_lt (lt_of_le_of_lt (Nat.mod_le _ _) x.isLt)

theorem andHighOnes (x : BitVec w) (k : Nat) : (x &&& highOnes w k).toNat = 2^k * (x.toNat / 2^k) := by
  have small : 2^k * (x.toNat / 2^k) < 2^w := lt_of_le_of_lt (Nat.mul_div_le _ _) x.isLt
  have same : x &&& highOnes w k = BitVec.ofNat w (2^k * (x.toNat / 2^k)) := by
    apply BitVec.eq_of_getLsbD_eq
    intro i bound
    simp only [highOnes,BitVec.getLsbD_and,BitVec.getLsbD_shiftLeft,BitVec.getLsbD_allOnes,
      BitVec.getLsbD_ofNat,Nat.testBit_two_pow_mul,Nat.testBit_div_two_pow,BitVec.testBit_toNat]
    grind
  rw [same,BitVec.toNat_ofNat,Nat.mod_eq_of_lt small]

theorem complementMod {x k : Nat} (fits : k ≤ w) (bound : x < 2^w) :
    (2^w - 1 - x) % 2^k = 2^k - 1 - x % 2^k := by
  obtain ⟨m,hm⟩ := Nat.pow_dvd_pow 2 fits
  have rest := Nat.mod_lt x (Nat.two_pow_pos k)
  have parts := Nat.div_add_mod x (2^k)
  have quotient : x / 2^k < m := Nat.div_lt_of_lt_mul (by rwa [← hm])
  obtain ⟨d,hd⟩ : ∃ d, m = x / 2^k + 1 + d := ⟨m - 1 - x / 2^k,by omega⟩
  have wide : 2^k * m = 2^k * (x / 2^k) + 2^k + 2^k * d := by
    conv_lhs => rw [hd]
    ring
  have shape : 2^w - 1 - x = (2^k - 1 - x % 2^k) + 2^k * d := by omega
  rw [shape,Nat.add_mul_mod_self_left,Nat.mod_eq_of_lt (by omega)]

theorem notOrHighOnes (x : BitVec w) (k : Nat) (fits : k ≤ w) :
    ~~~(highOnes w k ||| x) = 0 ↔ x.toNat % 2^k = 2^k - 1 := by
  have low : (~~~(highOnes w k ||| x)).toNat = 2^k - 1 - x.toNat % 2^k := by
    rw [BitVec.not_or,andNotHighOnes,BitVec.toNat_not,complementMod fits x.isLt]
  have rest := Nat.mod_lt x.toNat (Nat.two_pow_pos k)
  constructor
  · intro zero
    rw [zero,BitVec.ofNat_eq_ofNat,BitVec.toNat_ofNat,Nat.zero_mod] at low
    omega
  · intro last
    apply BitVec.eq_of_toNat_eq
    rw [low,BitVec.ofNat_eq_ofNat,BitVec.toNat_ofNat,Nat.zero_mod]
    omega

theorem outsideFilled (x m : BitVec w) : ~~~((x &&& ~~~m) ^^^ m) = 0 ↔ ~~~m &&& x = ~~~m := by
  constructor
  · intro zero
    ext i below
    have bit := congrArg (fun v => v.getLsbD i) zero
    simp [below] at bit
    grind
  · intro filled
    ext i below
    have bit := congrArg (fun v => v.getLsbD i) filled
    simp [below] at bit
    grind

theorem rotated {n c x : Nat} (below : x < n) : ∃! j, j < n ∧ (c + j) % n = x := by
  have positive : 0 < n := by omega
  have rest := Nat.mod_lt c positive
  refine ⟨(x + (n - c % n)) % n,⟨Nat.mod_lt _ positive,?_⟩,fun j meets => ?_⟩
  · have sum : c % n + (x + (n - c % n)) = x + n := by omega
    rw [Nat.add_mod_mod,← Nat.mod_add_mod,sum,Nat.add_mod_right,Nat.mod_eq_of_lt below]
  · obtain ⟨small,lands⟩ := meets
    have level : (c + j) % n = (c + (x + (n - c % n))) % n := by
      have sum : c % n + (x + (n - c % n)) = x + n := by omega
      rw [lands,← Nat.mod_add_mod,sum,Nat.add_mod_right,Nat.mod_eq_of_lt below]
    have same : j % n = (x + (n - c % n)) % n := Nat.ModEq.add_left_cancel' c level
    rwa [Nat.mod_eq_of_lt small] at same

theorem orHighLow {a b k : Nat} (small : b < 2^k) : (2^k * a) ||| b = 2^k * a + b :=
  (Nat.two_pow_add_eq_or_of_lt small a).symm

end Candy.Words
