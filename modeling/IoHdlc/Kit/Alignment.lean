import Mathlib.Tactic.Common
import Mathlib.Tactic.Ring
import Mathlib.Algebra.Order.Ring.Nat

/-!
Alignment of machine addresses. The least multiple of an alignment that is not
below a value, and its computation with a mask on words of a fixed width: the
two agree for a power of two when the sum before the mask does not wrap.
-/

namespace IoHdlc.Kit

/-- The least multiple of `align` from `value` on. -/
def alignUp (value align : Nat) : Nat := (value + align - 1) / align * align

section AlignUp

variable {value align : Nat}

theorem dvd_alignUp (value align : Nat) : align ∣ alignUp value align := Nat.dvd_mul_left ..

theorem le_alignUp (h : 0 < align) : value ≤ alignUp value align := by
  have hdiv := Nat.div_add_mod (value + align - 1) align
  have hmod := Nat.mod_lt (value + align - 1) h
  rw [Nat.mul_comm] at hdiv
  simp only [alignUp]
  omega

end AlignUp

/-! ### With a mask -/

variable {w : Nat}

/-- A word that is a power of two. -/
def IsPow (a : BitVec w) : Prop := ∃ k, a.toNat = 2 ^ k

namespace IsPow

variable {a b : BitVec w}

theorem pos (h : IsPow a) : 0 < a.toNat := by
  obtain ⟨k, hk⟩ := h
  rw [hk]
  exact Nat.two_pow_pos k

theorem dvd (ha : IsPow a) (hb : IsPow b) (hle : a ≤ b) : a.toNat ∣ b.toNat := by
  obtain ⟨i, hi⟩ := ha
  obtain ⟨j, hj⟩ := hb
  rw [BitVec.le_def, hi, hj] at hle
  rw [hi, hj]
  exact Nat.pow_dvd_pow 2 ((Nat.pow_le_pow_iff_right Nat.one_lt_two).mp hle)

/-- The larger of two powers of two is a multiple of both. -/
theorem max (ha : IsPow a) (hb : IsPow b) :
    IsPow (if a < b then b else a) ∧ a.toNat ∣ (if a < b then b else a).toNat ∧
      b.toNat ∣ (if a < b then b else a).toNat := by
  split
  · next h => exact ⟨hb, ha.dvd hb (BitVec.le_of_lt h), dvd_rfl⟩
  · next h => exact ⟨ha, dvd_rfl, hb.dvd ha (BitVec.not_lt.mp h)⟩

end IsPow

/-- `(value + align - 1) & ~(align - 1)`. -/
def maskUp (value align : BitVec w) : BitVec w := (value + align - 1) &&& ~~~(align - 1)

namespace IsPow

variable {a : BitVec w} {k : Nat}

theorem exp_lt (hk : a.toNat = 2 ^ k) : k < w :=
  (Nat.pow_lt_pow_iff_right Nat.one_lt_two).mp (hk ▸ a.isLt)

theorem toNat_one (hk : a.toNat = 2 ^ k) : (1 : BitVec w).toNat = 1 := by
  have hkw := exp_lt hk
  exact Nat.mod_eq_of_lt (Nat.one_lt_two_pow (by omega))

theorem toNat_pred (hk : a.toNat = 2 ^ k) : (a - 1).toNat = 2 ^ k - 1 := by
  have hle : (1 : BitVec w) ≤ a := by
    rw [BitVec.le_def, toNat_one hk, hk]
    exact Nat.one_le_two_pow
  rw [BitVec.toNat_sub_of_le hle, toNat_one hk, hk]

/-- Masking the low bits away rounds down. -/
theorem toNat_and_not_pred (hk : a.toNat = 2 ^ k) (v : BitVec w) :
    (v &&& ~~~(a - 1)).toNat = v.toNat / 2 ^ k * 2 ^ k := by
  rw [← Nat.shiftRight_eq_div_pow, ← Nat.shiftLeft_eq]
  apply Nat.eq_of_testBit_eq
  intro i
  rw [BitVec.testBit_toNat, BitVec.getLsbD_and, BitVec.getLsbD_not, ← BitVec.testBit_toNat (a - 1),
    toNat_pred hk, Nat.testBit_two_pow_sub_one, Nat.testBit_shiftLeft, Nat.testBit_shiftRight,
    BitVec.testBit_toNat]
  by_cases hi : i < k
  · have hki : ¬k ≤ i := by omega
    simp [hi, hki]
  · have hki : k ≤ i := by omega
    have hlt : v.getLsbD i = true → i < w := BitVec.lt_of_getLsbD
    rw [Nat.add_sub_cancel' hki]
    cases hv : v.getLsbD i with
    | false => simp
    | true => simp [hi, hki, hlt hv]

end IsPow

/-- The mask computes the next multiple when the sum before it does not wrap. -/
theorem toNat_maskUp {value align : BitVec w} (ha : IsPow align)
    (hfit : value.toNat + align.toNat - 1 < 2 ^ w) :
    (maskUp value align).toNat = alignUp value.toNat align.toNat := by
  obtain ⟨k, hk⟩ := ha
  have hpow : 1 ≤ 2 ^ k := Nat.one_le_two_pow
  have hsum : (value + align - 1).toNat = value.toNat + align.toNat - 1 := by
    have hassoc : value + align - 1 = value + (align - 1) := by
      rw [BitVec.sub_eq_add_neg, BitVec.sub_eq_add_neg, BitVec.add_assoc]
    rw [hassoc, BitVec.toNat_add, IsPow.toNat_pred hk, hk, Nat.add_sub_assoc hpow]
    exact Nat.mod_eq_of_lt (by omega)
  rw [maskUp, IsPow.toNat_and_not_pred hk, hsum, alignUp, hk]

end IoHdlc.Kit
