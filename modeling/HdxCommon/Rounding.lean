/-
Rounding up, and 32-bit arithmetic that notices an overflow.

* `roundUp` — the next multiple, with its order and divisibility lemmas;
* `maskUp` — rounding up to a power of two with a mask, as C programs do it on
  32 bits; `maskUp_two_pow` says that it is `roundUp`;
* `int32`, `uint32` — a result, if it fits the type; `padUp` is the checked mask.
-/
import Mathlib.Tactic

namespace Rounding

/-! ### Multiples -/

/-- The least multiple of `a` that is at least `x`. -/
def roundUp (x a : ℕ) : ℕ := (x + a - 1) / a * a

variable {x y a : ℕ}

theorem le_roundUp (ha : 0 < a) : x ≤ roundUp x a := by
  have hdiv := Nat.div_add_mod (x + a - 1) a
  have hmod := Nat.mod_lt (x + a - 1) ha
  have hcomm : (x + a - 1) / a * a = a * ((x + a - 1) / a) := Nat.mul_comm _ _
  unfold roundUp
  omega

theorem roundUp_lt (ha : 0 < a) : roundUp x a < x + a := by
  have hle := Nat.div_mul_le_self (x + a - 1) a
  unfold roundUp
  omega

theorem dvd_roundUp : a ∣ roundUp x a := Dvd.intro_left _ rfl

theorem roundUp_mono (h : x ≤ y) : roundUp x a ≤ roundUp y a :=
  Nat.mul_le_mul_right a (Nat.div_le_div_right (by omega))

/-! ### Masks -/

/-- `(size + padding - 1) & ~(padding - 1)` on 32 bits. -/
def maskUp (size padding : ℕ) : ℕ :=
  ((size.toUInt32 + padding.toUInt32 - 1) &&& ~~~(padding.toUInt32 - 1)).toNat

/-- Clearing the lower bits. -/
theorem and_not_two_pow_sub_one {n k : ℕ} (hn : n < 2 ^ 32) (hk : k < 32) :
    n &&& (2 ^ 32 - 1 - (2 ^ k - 1)) = n / 2 ^ k * 2 ^ k := by
  refine Nat.eq_of_testBit_eq fun i => ?_
  have hmask : 2 ^ 32 - 1 - (2 ^ k - 1) = (2 ^ (32 - k) - 1) * 2 ^ k := by
    have hpow : 2 ^ (32 - k) * 2 ^ k = 2 ^ 32 := by
      rw [← pow_add]
      congr 1
      omega
    have hpos : 0 < 2 ^ k := Nat.two_pow_pos k
    rw [Nat.sub_mul, hpow]
    omega
  rw [Nat.testBit_and, hmask, Nat.testBit_mul_two_pow, Nat.testBit_mul_two_pow,
    Nat.testBit_two_pow_sub_one, Nat.testBit_div_two_pow]
  by_cases hik : k ≤ i
  · have hsum : i - k + k = i := by omega
    rw [hsum]
    by_cases hi : i < 32
    · have hlt : i - k < 32 - k := by omega
      simp [hik, hlt]
    · have hzero : n.testBit i = false :=
        Nat.testBit_lt_two_pow (hn.trans_le (Nat.pow_le_pow_right (by decide) (by omega)))
      simp [hzero]
  · simp [hik]

/-- With a power of two, the mask rounds up. -/
theorem maskUp_two_pow {size k : ℕ} (hk : k < 32) (hsize : size + 2 ^ k ≤ 2 ^ 32) :
    maskUp size (2 ^ k) = roundUp size (2 ^ k) := by
  have hpos : 0 < 2 ^ k := Nat.two_pow_pos k
  have hmask : ((2 ^ k).toUInt32 - 1).toNat = 2 ^ k - 1 := by
    rw [UInt32.toNat_sub]
    show (2 ^ 32 - 1 + 2 ^ k % 2 ^ 32) % 2 ^ 32 = _
    omega
  have hsum : (size.toUInt32 + (2 ^ k).toUInt32 - 1).toNat = size + 2 ^ k - 1 := by
    rw [UInt32.toNat_sub, UInt32.toNat_add]
    show (2 ^ 32 - 1 + (size % 2 ^ 32 + 2 ^ k % 2 ^ 32) % 2 ^ 32) % 2 ^ 32 = _
    omega
  rw [maskUp, UInt32.toNat_and, UInt32.toNat_not, hmask, hsum, roundUp]
  exact and_not_two_pow_sub_one (by omega) hk

/-! ### Checked arithmetic -/

/-- A result, if it fits into `w` bits. -/
def fits (w n : ℕ) : Option ℕ := if n < 2 ^ w then some n else none

/-- A result of type `int` that is not negative. -/
abbrev int32 (n : ℕ) : Option ℕ := fits 31 n

/-- A result of type `uint32_t`. -/
abbrev uint32 (n : ℕ) : Option ℕ := fits 32 n

theorem fits_eq_some {w n m : ℕ} : fits w n = some m ↔ n = m ∧ m < 2 ^ w := by
  unfold fits
  split_ifs with h
  · constructor
    · intro heq
      cases heq
      exact ⟨rfl, h⟩
    · rintro ⟨rfl, -⟩
      rfl
  · constructor
    · intro heq
      cases heq
    · rintro ⟨rfl, hlt⟩
      exact absurd hlt h

/-- Rounding up with a mask, if the sum fits into `w` bits. -/
def padUp (w size padding : ℕ) : Option ℕ := do
  let _ ← fits w (size + padding)
  return maskUp size padding

theorem padUp_eq_some {w size padding r : ℕ} (h : padUp w size padding = some r) :
    size + padding < 2 ^ w ∧ r = maskUp size padding := by
  obtain ⟨s, hs, h⟩ := Option.bind_eq_some_iff.mp h
  obtain ⟨rfl, hlt⟩ := fits_eq_some.mp hs
  exact ⟨hlt, (Option.some.inj h).symm⟩

theorem padUp_two_pow {w size k r : ℕ} (hw : w ≤ 32) (h : padUp w size (2 ^ k) = some r) :
    r = roundUp size (2 ^ k) := by
  obtain ⟨hlt, rfl⟩ := padUp_eq_some h
  have hbound : 2 ^ w ≤ 2 ^ 32 := Nat.pow_le_pow_right (by decide) hw
  have hk : 2 ^ k < 2 ^ 32 := by omega
  exact maskUp_two_pow ((Nat.pow_lt_pow_iff_right (by decide)).mp hk) (by omega)

end Rounding
