/-
Numbers in decimal, as the characters that `%d` prints.

* `decimal`, `decimalInt` — the digits of a number, behind a minus if it is negative;
* `decimal_value` — the digits, read one after another, give the number back.
-/
import Mathlib.Data.Nat.Digits.Lemmas
import Mathlib.Data.UInt

namespace Decimal

/-- The digits of a number, the highest first. -/
def digits (n : ℕ) : List ℕ := if n = 0 then [0] else (Nat.digits 10 n).reverse

def digitChar (d : ℕ) : UInt8 := UInt8.ofNat (d + 0x30)

/-- The text of a number. -/
def decimal (n : ℕ) : List UInt8 := (digits n).map digitChar

/-- The text of an integer. -/
def decimalInt (z : ℤ) : List UInt8 :=
  if z < 0 then 0x2D :: decimal z.natAbs else decimal z.natAbs

variable {n k : ℕ}

theorem digits_ne_nil (n : ℕ) : digits n ≠ [] := by
  unfold digits
  split_ifs with hn
  · exact List.cons_ne_nil 0 []
  · rw [Ne, List.reverse_eq_nil_iff]
    exact Nat.digits_ne_nil_iff_ne_zero.mpr hn

theorem lt_of_mem_digits {d : ℕ} (hd : d ∈ digits n) : d < 10 := by
  unfold digits at hd
  split_ifs at hd with hn
  · rw [List.mem_singleton.mp hd]
    decide
  · exact Nat.digits_lt_base (by decide) (List.mem_reverse.mp hd)

theorem length_digits_le (hk : 0 < k) (hn : n < 10 ^ k) : (digits n).length ≤ k := by
  unfold digits
  split_ifs
  · exact hk
  · rw [List.length_reverse]
    exact (Nat.digits_length_le_iff (by decide) n).mpr hn

theorem foldl_digits (n : ℕ) : (digits n).foldl (fun m d => 10 * m + d) 0 = n := by
  unfold digits
  split_ifs with hn
  · exact hn.symm
  · rw [List.foldl_reverse]
    conv_rhs => rw [← Nat.ofDigits_digits 10 n, Nat.ofDigits_eq_foldr]
    simp only [Nat.cast_id, Nat.add_comm]

theorem toNat_digitChar {d : ℕ} (hd : d < 10) : (digitChar d).toNat = d + 0x30 :=
  UInt8.toNat_ofNat_of_lt (by rw [UInt8.size]; omega)

theorem decimal_ne_nil (n : ℕ) : decimal n ≠ [] := by
  rw [decimal, Ne, List.map_eq_nil_iff]
  exact digits_ne_nil n

theorem toNat_of_mem_decimal {c : UInt8} (hc : c ∈ decimal n) :
    0x30 ≤ c.toNat ∧ c.toNat ≤ 0x39 := by
  obtain ⟨d, hd, rfl⟩ := List.mem_map.mp hc
  have hlt := lt_of_mem_digits hd
  rw [toNat_digitChar hlt]
  omega

/-- The value of the digits that are printed. -/
theorem decimal_value (n : ℕ) :
    (decimal n).foldl (fun m c => 10 * m + ((c.toNat : ℤ) - 0x30)) 0 = n := by
  -- the digits are read back one by one, so the two folds run side by side
  have hfold : ∀ (ds : List ℕ) (m : ℕ), (∀ d ∈ ds, d < 10) →
      (ds.map digitChar).foldl (fun m c => 10 * m + ((c.toNat : ℤ) - 0x30)) (m : ℤ) =
        (ds.foldl (fun m d => 10 * m + d) m : ℕ) := by
    intro ds
    induction ds with
    | nil => exact fun _ _ => rfl
    | cons d ds ih =>
      intro m hds
      have hd : (10 * (m : ℤ) + (((digitChar d).toNat : ℤ) - 0x30)) = (10 * m + d : ℕ) := by
        rw [toNat_digitChar (hds d List.mem_cons_self)]
        push_cast
        omega
      rw [List.map_cons, List.foldl_cons, List.foldl_cons, hd]
      exact ih _ fun e he => hds e (List.mem_cons_of_mem d he)
  have := hfold (digits n) 0 fun d hd => lt_of_mem_digits hd
  rwa [foldl_digits] at this

/-- A number of 32 bits takes 11 characters at most. -/
theorem length_decimalInt_le {z : ℤ} (hlo : -2 ^ 31 ≤ z) (hhi : z < 2 ^ 31) :
    (decimalInt z).length ≤ 11 := by
  have hlen : (decimal z.natAbs).length ≤ 10 := by
    rw [decimal, List.length_map]
    exact length_digits_le (by decide) (by omega)
  unfold decimalInt
  split_ifs
  · rw [List.length_cons]
    omega
  · omega

end Decimal
