import Mathlib.Algebra.Order.Round
import Mathlib.Data.Rat.Floor
import Mathlib.Tactic.Linarith
import Mathlib.Tactic.Ring

/-!
Integers nearest to a quotient of natural numbers: rounding the quotient gives one, and so
does rounding it at twice the scale and halving, unless the fraction lies between a half and
three quarters.
-/

namespace Stm32f411.NearestInteger

/-- No integer is closer to `x` than `n`. -/
def IsNearest (x : ℚ) (n : ℤ) : Prop :=
  ∀ m : ℤ, |x - n| ≤ |x - m|

theorem isNearest_iff_abs {x : ℚ} {n : ℤ} : IsNearest x n ↔ |x - n| ≤ 1 / 2 := by
  constructor
  · intro h
    exact (h (round x)).trans (abs_sub_round x)
  · intro h m
    rcases eq_or_ne m n with rfl | hne
    · exact le_rfl
    · have hapart : (1 : ℚ) ≤ |(n : ℚ) - m| := by
        exact_mod_cast Int.one_le_abs (sub_ne_zero.mpr hne.symm)
      have htriangle : |(n : ℚ) - m| ≤ |x - m| + |x - n| := by
        have hsplit : (n : ℚ) - m = (x - m) - (x - n) := by ring
        rw [hsplit]
        exact abs_sub _ _
      linarith

section Quotients

variable {a b q : ℕ}

theorem isNearest_div (hb : 0 < b) :
    IsNearest (a / b) q ↔ 2 * a ≤ 2 * (q * b) + b ∧ 2 * (q * b) ≤ 2 * a + b := by
  have hpos : (0 : ℚ) < b := by exact_mod_cast hb
  have hhigh : (a / b : ℚ) - q ≤ 1 / 2 ↔ 2 * a ≤ 2 * (q * b) + b := by
    rw [sub_le_iff_le_add, div_le_iff₀ hpos, ← @Nat.cast_le ℚ]
    push_cast
    constructor <;> intro h <;> linarith
  have hlow : -(1 / 2) ≤ (a / b : ℚ) - q ↔ 2 * (q * b) ≤ 2 * a + b := by
    rw [le_sub_iff_add_le, le_div_iff₀ hpos, ← @Nat.cast_le ℚ]
    push_cast
    constructor <;> intro h <;> linarith
  rw [isNearest_iff_abs, Int.cast_natCast, abs_le, hhigh, hlow]
  exact and_comm

theorem isNearest_floor (hb : 0 < b) :
    IsNearest (a / b) (a / b : ℕ) ↔ 2 * (a % b) ≤ b := by
  have hdiv := Nat.div_add_mod' a b
  rw [isNearest_div hb]
  omega

theorem isNearest_ceil (hb : 0 < b) :
    IsNearest (a / b) (a / b + 1 : ℕ) ↔ b ≤ 2 * (a % b) := by
  have hdiv := Nat.div_add_mod' a b
  have hmod := Nat.mod_lt a hb
  have hsucc := Nat.add_one_mul (a / b) b
  rw [isNearest_div hb]
  omega

/-- Only the two integers around the quotient can be nearest. -/
theorem IsNearest.around (hb : 0 < b) (h : IsNearest (a / b) q) : a / b ≤ q ∧ q ≤ a / b + 1 := by
  obtain ⟨hhigh, hlow⟩ := (isNearest_div hb).mp h
  have hdiv := Nat.div_add_mod' a b
  have hmod := Nat.mod_lt a hb
  constructor
  · by_contra hlt
    have hmul : (q + 1) * b ≤ a / b * b := Nat.mul_le_mul_right b (Nat.not_le.mp hlt)
    have hsucc := Nat.add_one_mul q b
    omega
  · by_contra hlt
    have hmul : (a / b + 1 + 1) * b ≤ q * b := Nat.mul_le_mul_right b (Nat.not_le.mp hlt)
    have hsucc := Nat.add_one_mul (a / b) b
    have hsucc' := Nat.add_one_mul (a / b + 1) b
    omega

theorem rounded_eq (hb : 0 < b) :
    (a + b / 2) / b = a / b + if b ≤ a % b + b / 2 then 1 else 0 := by
  have hdiv := Nat.div_add_mod' a b
  have hmod := Nat.mod_lt a hb
  have hsplit : a + b / 2 = a % b + b / 2 + b * (a / b) := by
    rw [Nat.mul_comm]
    omega
  rw [hsplit, Nat.add_mul_div_left _ _ hb, Nat.add_comm]
  congr 1
  split
  · next h => exact Nat.div_eq_of_lt_le (by omega) (by omega)
  · next h => exact Nat.div_eq_of_lt (by omega)

theorem isNearest_rounded (hb : 0 < b) : IsNearest (a / b) ((a + b / 2) / b : ℕ) := by
  rw [rounded_eq hb]
  split
  · exact (isNearest_ceil hb).mpr (by omega)
  · exact (isNearest_floor hb).mpr (by omega)

/-- Rounding at twice the scale and halving raises the quotient only from three quarters on. -/
theorem halved_eq (hb : 0 < b) :
    (2 * a + b / 2) / b / 2 = a / b + if 2 * b ≤ 2 * (a % b) + b / 2 then 1 else 0 := by
  have hdiv := Nat.div_add_mod' a b
  have hmod := Nat.mod_lt a hb
  have hsplit : 2 * a + b / 2 = 2 * (a % b) + b / 2 + b * 2 * (a / b) := by
    have hmul : b * 2 * (a / b) = 2 * (a / b * b) := by ring
    omega
  rw [Nat.div_div_eq_div_mul, hsplit, Nat.add_mul_div_left _ _ (by omega), Nat.add_comm]
  congr 1
  split
  · next h => exact Nat.div_eq_of_lt_le (by omega) (by omega)
  · next h => exact Nat.div_eq_of_lt (by omega)

theorem isNearest_halved (hb : 0 < b) : IsNearest (a / b) ((2 * a + b / 2) / b / 2 : ℕ) ↔
    2 * (a % b) ≤ b ∨ 2 * b ≤ 2 * (a % b) + b / 2 := by
  rw [halved_eq hb]
  split
  · next h =>
      rw [isNearest_ceil hb]
      omega
  · next h =>
      rw [Nat.add_zero, isNearest_floor hb]
      omega

end Quotients

end Stm32f411.NearestInteger
