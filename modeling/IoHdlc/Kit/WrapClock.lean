import Mathlib.Algebra.Group.Nat.Defs
import Mathlib.Tactic.Common

/-!
A clock of 32 bits that wraps, read at instants that do not.

A deadline is compared with the clock by the sign of the wrapped difference.
That is right as long as the deadline is at most half a turn ahead when it is
set.
-/

namespace IoHdlc.Kit

/-- What the clock shows at the instant `t`. -/
def clock (t : ℕ) : UInt32 := UInt32.ofNat t

/-- `(int32_t)(a - b)`. -/
def signedDiff (a b : UInt32) : Int := (a - b).toBitVec.toInt

theorem toNat_clock (t : ℕ) : (clock t).toNat = t % 2 ^ 32 := UInt32.toNat_ofNat'

theorem signedDiff_neg_iff (a b : UInt32) : signedDiff a b < 0 ↔ 2 ^ 31 ≤ (a - b).toNat := by
  rw [signedDiff, BitVec.toInt_neg_iff, UInt32.toNat_toBitVec]
  omega

/-- How far the clock at `t` is ahead of a deadline set at `s`. -/
theorem toNat_clock_sub (t s : ℕ) (d : UInt32) :
    (clock t - (clock s + d)).toNat = (2 ^ 32 - (s % 2 ^ 32 + d.toNat) % 2 ^ 32 + t % 2 ^ 32) % 2 ^ 32 := by
  rw [UInt32.toNat_sub, UInt32.toNat_add, toNat_clock, toNat_clock]

/-- The time from one reading to another one less than a turn later. -/
theorem toNat_clock_sub_clock {t s : ℕ} (hst : s ≤ t) (ht : t < s + 2 ^ 32) :
    (clock t - clock s).toNat = t - s := by
  rw [UInt32.toNat_sub, toNat_clock, toNat_clock]
  omega

/-- A deadline at most half a turn ahead is not taken for past before it comes. -/
theorem signedDiff_neg_of_lt {t s : ℕ} {d : UInt32} (hd : d.toNat ≤ 2 ^ 31) (hst : s ≤ t)
    (ht : t < s + d.toNat) : signedDiff (clock t) (clock s + d) < 0 := by
  rw [signedDiff_neg_iff, toNat_clock_sub]
  obtain ⟨k, rfl⟩ := Nat.exists_eq_add_of_le hst
  omega

/-- One further ahead is taken for past when it is set. -/
theorem signedDiff_nonneg_of_lt {d : UInt32} (hd : 2 ^ 31 < d.toNat) (s : ℕ) :
    ¬signedDiff (clock s) (clock s + d) < 0 := by
  have hlt := d.toNat_lt
  rw [signedDiff_neg_iff, toNat_clock_sub]
  omega

end IoHdlc.Kit
