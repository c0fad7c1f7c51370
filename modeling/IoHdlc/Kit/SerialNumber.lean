import Mathlib.Data.Nat.ModEq
import Mathlib.Tactic.Common

/-!
Sequence numbers modulo a power of two, kept in 32-bit words. A counter that
never wraps is compared with the word that stands for it: masked addition and
masked subtraction of words are addition and subtraction of the counters as
long as these are less than one modulus apart.
-/

namespace IoHdlc.Kit

/-- The words `0, …, 2 ^ bits - 1` and the mask that selects them. -/
structure SerialSpace where
  mask : UInt32
  bits : Nat
  mask_eq : mask.toNat = 2 ^ bits - 1
  bits_le : bits ≤ 31

namespace SerialSpace

variable (sp : SerialSpace)

def modulus : Nat := 2 ^ sp.bits

theorem modulus_pos : 0 < sp.modulus := Nat.two_pow_pos _

theorem modulus_dvd : sp.modulus ∣ 2 ^ 32 :=
  Nat.pow_dvd_pow 2 (sp.bits_le.trans (by decide))

/-- The word of a counter. -/
def word (n : Nat) : UInt32 := UInt32.ofNat n &&& sp.mask

theorem toNat_and_mask (x : UInt32) : (x &&& sp.mask).toNat = x.toNat % sp.modulus := by
  rw [UInt32.toNat_and, sp.mask_eq, Nat.and_two_pow_sub_one_eq_mod, modulus]

theorem toNat_word (n : Nat) : (sp.word n).toNat = n % sp.modulus := by
  rw [word, toNat_and_mask, UInt32.toNat_ofNat']
  exact Nat.mod_mod_of_dvd _ sp.modulus_dvd

theorem toNat_word_lt (n : Nat) : (sp.word n).toNat < sp.modulus := by
  rw [toNat_word]
  exact Nat.mod_lt _ sp.modulus_pos

theorem word_zero : sp.word 0 = 0 := by
  apply UInt32.toNat_inj.mp
  rw [toNat_word, Nat.zero_mod]
  rfl

theorem word_eq_iff (a b : Nat) : sp.word a = sp.word b ↔ a ≡ b [MOD sp.modulus] := by
  rw [← UInt32.toNat_inj, toNat_word, toNat_word]
  rfl

@[simp] theorem word_and_mask (n : Nat) : sp.word n &&& sp.mask = sp.word n := by
  apply UInt32.toNat_inj.mp
  rw [toNat_and_mask, toNat_word, Nat.mod_mod]

/-- The next word. -/
theorem word_add_one (n : Nat) : (sp.word n + 1) &&& sp.mask = sp.word (n + 1) := by
  apply UInt32.toNat_inj.mp
  rw [toNat_and_mask, toNat_word, UInt32.toNat_add, toNat_word, UInt32.toNat_one,
    Nat.mod_mod_of_dvd _ sp.modulus_dvd, Nat.mod_add_mod]

/-- A word is never the largest one of 32 bits. -/
theorem word_add_one_ne_zero (n : Nat) : sp.word n + 1 ≠ 0 := by
  have hlt := sp.toNat_word_lt n
  have hle : sp.modulus ≤ 2 ^ 31 := Nat.pow_le_pow_right (by decide) sp.bits_le
  intro hzero
  have hnat := congrArg UInt32.toNat hzero
  rw [UInt32.toNat_add, UInt32.toNat_one, Nat.mod_eq_of_lt (by omega)] at hnat
  cases hnat

/-- The word `k` places on. -/
theorem word_add (n k : Nat) : (sp.word n + UInt32.ofNat k) &&& sp.mask = sp.word (n + k) := by
  apply UInt32.toNat_inj.mp
  rw [toNat_and_mask, toNat_word, UInt32.toNat_add, toNat_word, UInt32.toNat_ofNat',
    Nat.mod_mod_of_dvd _ sp.modulus_dvd, Nat.mod_add_mod, Nat.add_mod,
    Nat.mod_mod_of_dvd k sp.modulus_dvd, ← Nat.add_mod]

/-- Counters that are less than one modulus apart and have one word are equal. -/
theorem eq_of_word_eq {a b : Nat} (h : sp.word a = sp.word b) (hab : a < b + sp.modulus)
    (hba : b < a + sp.modulus) : a = b := by
  have hmod := (sp.word_eq_iff a b).mp h
  rcases Nat.le_total a b with hle | hle
  · have hdvd := (Nat.modEq_iff_dvd' hle).mp hmod
    have := Nat.eq_zero_of_dvd_of_lt hdvd (by omega)
    omega
  · have hdvd := (Nat.modEq_iff_dvd' hle).mp hmod.symm
    have := Nat.eq_zero_of_dvd_of_lt hdvd (by omega)
    omega

theorem word_eq_iff_of_near {a b : Nat} (hab : a < b + sp.modulus) (hba : b < a + sp.modulus) :
    sp.word a = sp.word b ↔ a = b :=
  ⟨fun h => sp.eq_of_word_eq h hab hba, fun h => h ▸ rfl⟩

/-- The masked difference of two words is the distance of their counters. -/
theorem toNat_word_sub {a b : Nat} (h : b ≤ a) (hlt : a - b < sp.modulus) :
    ((sp.word a - sp.word b) &&& sp.mask).toNat = a - b := by
  obtain ⟨k, rfl⟩ := Nat.exists_eq_add_of_le h
  have hk : b + k - b = k := Nat.add_sub_cancel_left b k
  rw [hk] at hlt ⊢
  rw [toNat_and_mask, UInt32.toNat_sub, toNat_word, toNat_word,
    Nat.mod_mod_of_dvd _ sp.modulus_dvd]
  obtain ⟨c, hc⟩ := sp.modulus_dvd
  have hb : b % sp.modulus < sp.modulus := Nat.mod_lt _ sp.modulus_pos
  have hle : sp.modulus ≤ 2 ^ 32 := Nat.le_of_dvd (by decide) sp.modulus_dvd
  -- Modulo the modulus the borrow `2 ^ 32` vanishes.
  have hsum : 2 ^ 32 - b % sp.modulus + (b + k) % sp.modulus + b ≡ b + k [MOD sp.modulus] := by
    have h1 : b ≡ b % sp.modulus [MOD sp.modulus] := (Nat.mod_modEq b sp.modulus).symm
    calc 2 ^ 32 - b % sp.modulus + (b + k) % sp.modulus + b
        ≡ 2 ^ 32 - b % sp.modulus + (b + k) % sp.modulus + b % sp.modulus [MOD sp.modulus] :=
          Nat.ModEq.add_left _ h1
      _ = (b + k) % sp.modulus + sp.modulus * c := by omega
      _ ≡ (b + k) % sp.modulus [MOD sp.modulus] := by
          rw [Nat.ModEq, Nat.add_mul_mod_self_left]
      _ ≡ b + k [MOD sp.modulus] := Nat.mod_modEq _ _
  have hmod : 2 ^ 32 - b % sp.modulus + (b + k) % sp.modulus ≡ k [MOD sp.modulus] :=
    Nat.ModEq.add_right_cancel' b (by rwa [Nat.add_comm k b])
  rw [hmod, Nat.mod_eq_of_lt hlt]

/-- A word that is its own masked value is the word of a counter at its masked
distance from any other word. -/
theorem word_add_sub {x : UInt32} (hx : x &&& sp.mask = x) (b : Nat) :
    sp.word (b + ((x - sp.word b) &&& sp.mask).toNat) = x := by
  obtain ⟨c, hc⟩ := sp.modulus_dvd
  have hb : b % sp.modulus < sp.modulus := Nat.mod_lt _ sp.modulus_pos
  have hle : sp.modulus ≤ 2 ^ 32 := Nat.le_of_dvd (by decide) sp.modulus_dvd
  have hxlt := x.toNat_lt
  apply UInt32.toNat_inj.mp
  rw [toNat_word, toNat_and_mask, UInt32.toNat_sub, toNat_word,
    Nat.mod_mod_of_dvd _ sp.modulus_dvd, Nat.add_mod_mod]
  have hmod : b + (2 ^ 32 - b % sp.modulus + x.toNat) ≡ x.toNat [MOD sp.modulus] := by
    calc b + (2 ^ 32 - b % sp.modulus + x.toNat)
        ≡ b % sp.modulus + (2 ^ 32 - b % sp.modulus + x.toNat) [MOD sp.modulus] :=
          Nat.ModEq.add_right _ (Nat.mod_modEq b sp.modulus).symm
      _ = x.toNat + sp.modulus * c := by omega
      _ ≡ x.toNat [MOD sp.modulus] := by rw [Nat.ModEq, Nat.add_mul_mod_self_left]
  calc (b + (2 ^ 32 - b % sp.modulus + x.toNat)) % sp.modulus
      = x.toNat % sp.modulus := hmod
    _ = (x &&& sp.mask).toNat := (sp.toNat_and_mask x).symm
    _ = x.toNat := by rw [hx]

end SerialSpace

end IoHdlc.Kit
