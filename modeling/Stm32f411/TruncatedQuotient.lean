import Mathlib.Data.Nat.Cast.Order.Ring
import Mathlib.Data.Rat.Cast.Order
import Mathlib.Algebra.Order.Field.Basic
import Mathlib.Tactic.Ring

/-!
Quotients of natural numbers that are truncated too early: a period rounded down, and a
division before a multiplication.
-/

namespace Stm32f411.TruncatedQuotient

variable {a b k m n p : ℕ}

/-- A period of `k * (a / (k * b))` keeps to the rate `b` only if nothing is rounded off. -/
theorem rate_le_iff (hpos : 0 < a / (k * b)) :
    (a : ℚ) / (k * (a / (k * b) : ℕ) : ℕ) ≤ b ↔ k * b ∣ a := by
  have hk : 0 < k := by
    refine Nat.pos_of_ne_zero fun hzero => ?_
    rw [hzero, Nat.zero_mul, Nat.div_zero] at hpos
    exact absurd hpos (Nat.lt_irrefl 0)
  have hperiod : (0 : ℚ) < (k * (a / (k * b)) : ℕ) := by
    exact_mod_cast Nat.mul_pos hk hpos
  rw [div_le_iff₀ hperiod, Nat.dvd_iff_le_div_mul]
  norm_cast
  rw [show b * (k * (a / (k * b))) = a / (k * b) * (k * b) by ring]

/-- A quotient does not see a summand that the remainder covers. -/
theorem div_eq_div_add_iff {u c d : ℕ} (hd : 0 < d) : u / d = (u + c) / d ↔ c ≤ (u + c) % d := by
  have hlow := Nat.div_add_mod u d
  have hhigh := Nat.div_add_mod (u + c) d
  constructor
  · intro h
    rw [h] at hlow
    omega
  · intro h
    have hmod := Nat.mod_lt (u + c) hd
    refine Nat.div_eq_of_lt_le ?_ ?_
    · rw [Nat.mul_comm]
      omega
    · rw [Nat.succ_mul, Nat.mul_comm]
      omega

/-- What an early truncation cuts off has to be in the remainder of the exact quotient. -/
theorem div_mul_div_eq_iff (hm : 0 < m) (hp : 0 < p) :
    a / m * n / p = a * n / (m * p) ↔ a % m * n ≤ a * n % (m * p) := by
  have hsplit : a * n = m * (a / m * n) + a % m * n := by
    calc a * n = (m * (a / m) + a % m) * n := by rw [Nat.div_add_mod]
      _ = m * (a / m * n) + a % m * n := by ring
  have hearly : a / m * n / p = m * (a / m * n) / (m * p) := (Nat.mul_div_mul_left _ _ hm).symm
  rw [hearly, hsplit]
  exact div_eq_div_add_iff (Nat.mul_pos hm hp)

end Stm32f411.TruncatedQuotient
