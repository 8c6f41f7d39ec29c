import Mathlib.Data.BitVec

/-!
Deadlines on a clock that counts modulo a power of two. Comparing by the sign of the
difference is exact as long as the distance stays below half the range, wherever the
clock stood when the deadline was set. The clock's own source counts down from a reload
value, one count a cycle.
-/

namespace Stm32f411.WrappingClock

variable {w : Nat}

/-- The deadline lies in the past or is now, as far as the sign of the difference tells. -/
def Passed (now deadline : BitVec w) : Prop :=
  0 ≤ (now - deadline).toInt

/-- The clock after `n` ticks from `start`. -/
def after (start : BitVec w) (n : Nat) : BitVec w :=
  start + BitVec.ofNat w n

theorem after_zero (start : BitVec w) : after start 0 = start := by
  simp [after]

theorem after_succ (start : BitVec w) (n : Nat) : after start (n + 1) = after start n + 1 := by
  rw [after, after, BitVec.ofNat_add, ← BitVec.add_assoc]
  rfl

/-- Two counts below half the range differ by their signed difference on the clock. -/
theorem toInt_ofNat_sub {m n : Nat} (hm : 2 * m < 2 ^ w) (hn : 2 * n < 2 ^ w) :
    (BitVec.ofNat w m - BitVec.ofNat w n).toInt = (m : Int) - n := by
  have hcount : ∀ {i : Nat}, 2 * i < 2 ^ w → (BitVec.ofNat w i).toInt = i := by
    intro i hi
    have hnat : (BitVec.ofNat w i).toNat = i := Nat.mod_eq_of_lt (by omega)
    rw [BitVec.toInt_eq_toNat_of_lt (by omega), hnat]
  rw [BitVec.toInt_sub, hcount hm, hcount hn]
  apply Int.bmod_eq_of_le_mul_two
  · omega
  · omega

/-- The signed distance to a deadline that is not yet passed is the exact one. -/
theorem toInt_sub_deadline (start delay : BitVec w) (hhalf : 2 * delay.toNat < 2 ^ w)
    {n : Nat} (hn : n ≤ delay.toNat) :
    (after start n - (start + delay)).toInt = (n : Int) - delay.toNat := by
  have hcancel : after start n - (start + delay) = BitVec.ofNat w n - delay :=
    add_sub_add_left_eq_sub _ _ _
  have hdelay : delay = BitVec.ofNat w delay.toNat := by simp
  rw [hcancel, hdelay, toInt_ofNat_sub (by omega) (by simpa using hhalf)]
  simp

/-- Until the delay is over the deadline has not passed; then it has. -/
theorem passed_iff (start delay : BitVec w) (hhalf : 2 * delay.toNat < 2 ^ w) {n : Nat}
    (hn : n ≤ delay.toNat) : Passed (after start n) (start + delay) ↔ n = delay.toNat := by
  rw [Passed, toInt_sub_deadline start delay hhalf hn]
  omega

section Reload

/-- The next count. -/
def countDown (reload : Nat) : Nat → Nat
  | 0 => reload
  | count + 1 => count

/-- How far a count is into its period of `reload + 1` cycles. -/
def phase (reload count : Nat) : Nat :=
  if count = 0 then 0 else reload + 1 - count

theorem phase_le {reload count : Nat} (h : count ≤ reload) : phase reload count ≤ reload := by
  unfold phase
  split
  · omega
  · omega

/-- A cycle is one step into the period, whose last one is that from 1 to 0. -/
theorem phase_countDown {reload count : Nat} (hreload : reload ≠ 0) (h : count ≤ reload) :
    phase reload (countDown reload count) + (if count = 1 then reload + 1 else 0) =
      phase reload count + 1 := by
  unfold phase
  cases count with
  | zero =>
      rw [countDown]
      simp [hreload]
  | succ count =>
      rw [countDown, if_neg (Nat.succ_ne_zero count)]
      split
      · next hzero =>
          rw [if_pos (by omega)]
          omega
      · next hpos =>
          rw [if_neg (by omega)]
          omega

theorem countDown_le {reload count : Nat} (h : count ≤ reload) :
    countDown reload count ≤ reload := by
  cases count with
  | zero => exact Nat.le_refl reload
  | succ count => exact Nat.le_of_succ_le h

end Reload

end Stm32f411.WrappingClock
