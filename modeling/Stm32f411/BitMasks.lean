import Mathlib.Data.Nat.Bitwise

/-!
Masks of machine words: setting and clearing the bits of one mask leaves the bits of a
disjoint one alone.
-/

namespace Stm32f411.BitMasks

variable {w : Nat} {a m v : BitVec w}

theorem and_eq_zero_iff :
    v &&& m = 0 ↔ ∀ i (hi : i < w), v[i] = true → m[i] = false := by
  constructor
  · intro h i hi hv
    have hbit := congrArg (·.getLsbD i) h
    simpa [hi, hv] using hbit
  · intro h
    ext i hi
    cases hv : v[i] with
    | false => simp [hv]
    | true => simp [hv, h i hi hv]

/-- Clearing other bits. -/
theorem clear_and (h : v &&& m = 0) : a &&& ~~~v &&& m = a &&& m := by
  ext i hi
  cases hv : v[i] with
  | false => simp [hv]
  | true => simp [and_eq_zero_iff.mp h i hi hv]

/-- Setting other bits. -/
theorem set_and (h : v &&& m = 0) : (a ||| v) &&& m = a &&& m := by
  ext i hi
  cases hv : v[i] with
  | false => simp [hv]
  | true => simp [and_eq_zero_iff.mp h i hi hv]

theorem or_and (x y m : BitVec w) : (x ||| y) &&& m = (x &&& m) ||| (y &&& m) := by
  ext i hi
  cases hm : m[i] <;> simp [hm]

@[simp] theorem clear_and_self : a &&& ~~~v &&& v = 0 := by
  ext i hi
  cases hv : v[i] <;> simp [hv]

@[simp] theorem clear_clear : a &&& ~~~v &&& ~~~v = a &&& ~~~v := by
  rw [BitVec.and_assoc, BitVec.and_self]

@[simp] theorem set_clear : (a ||| v) &&& ~~~v = a &&& ~~~v := by
  ext i hi
  cases hv : v[i] <;> simp [hv]

@[simp] theorem clear_or_and : a &&& ~~~v ||| (a &&& v) = a := by
  ext i hi
  cases hv : v[i] <;> simp [hv]

theorem clear_of_disjoint (h : a &&& v = 0) : a &&& ~~~v = a := by
  ext i hi
  cases ha : a[i] with
  | false => simp [ha]
  | true => simp [ha, and_eq_zero_iff.mp h i hi ha]

/-- A value within `v` does not meet a mask that `v` does not meet. -/
theorem and_of_within (hv : a &&& ~~~v = 0) (h : v &&& m = 0) : a &&& m = 0 := by
  rw [and_eq_zero_iff] at hv h ⊢
  intro i hi ha
  exact h i hi (by simpa using hv i hi ha)

theorem shift_within (h : a &&& ~~~v = 0) (n : Nat) : a <<< n &&& ~~~(v <<< n) = 0 := by
  rw [and_eq_zero_iff] at h ⊢
  intro i hi ha
  obtain ⟨hn, hbit⟩ : n ≤ i ∧ a[i - n] = true := by simpa using ha
  have hv : (~~~v)[i - n] = false := h (i - n) (by omega) hbit
  rw [BitVec.getElem_not, Bool.not_eq_false'] at hv
  simp [hv, hn]

theorem toNat_one_shiftLeft {n : Nat} (hn : n < w) : ((1 : BitVec w) <<< n).toNat = 2 ^ n := by
  have hpow : 2 ^ n < 2 ^ w := Nat.pow_lt_pow_right Nat.one_lt_two hn
  have hone : (1 : BitVec w).toNat = 1 := Nat.mod_eq_of_lt (Nat.one_lt_two_pow (by omega))
  rw [BitVec.toNat_shiftLeft, hone, Nat.one_shiftLeft, Nat.mod_eq_of_lt hpow]

/-- The mask of the bits below `n`. -/
theorem toNat_and_low {n : Nat} (hn : n < w) :
    (a &&& ((1 : BitVec w) <<< n - 1)).toNat = a.toNat % 2 ^ n := by
  have hpow : 2 ^ n < 2 ^ w := Nat.pow_lt_pow_right Nat.one_lt_two hn
  have hpos : 0 < 2 ^ n := Nat.two_pow_pos n
  have hone : (1 : BitVec w).toNat = 1 := Nat.mod_eq_of_lt (Nat.one_lt_two_pow (by omega))
  have hmask : ((1 : BitVec w) <<< n - 1).toNat = 2 ^ n - 1 := by
    rw [BitVec.toNat_sub, toNat_one_shiftLeft hn, hone,
      show 2 ^ w - 1 + 2 ^ n = 2 ^ n - 1 + 2 ^ w by omega, Nat.add_mod_right,
      Nat.mod_eq_of_lt (by omega)]
  rw [BitVec.toNat_and, hmask, Nat.and_two_pow_sub_one_eq_mod]

theorem aligned_iff {n : Nat} (hn : n < w) :
    a &&& ((1 : BitVec w) <<< n - 1) = 0 ↔ a.toNat % 2 ^ n = 0 := by
  rw [← BitVec.toNat_inj, toNat_and_low hn]
  simp

theorem within_low {n : Nat} (hn : n < w) (h : a.toNat < 2 ^ n) :
    a &&& ~~~((1 : BitVec w) <<< n - 1) = 0 := by
  have hlow : a &&& ((1 : BitVec w) <<< n - 1) = a :=
    BitVec.eq_of_toNat_eq ((toNat_and_low hn).trans (Nat.mod_eq_of_lt h))
  ext i hi
  have hbit := congrArg (·.getLsbD i) hlow
  cases ha : a[i] with
  | false => simp [ha]
  | true => simpa [hi, ha] using hbit

/-- A value within `m` is all of what `m` shows of it. -/
theorem and_eq_of_within (h : a &&& ~~~m = 0) : a &&& m = a := by
  have hsplit : a &&& ~~~m ||| (a &&& m) = a := clear_or_and
  rw [h] at hsplit
  exact BitVec.zero_or.symm.trans hsplit

theorem set_and_self : (a ||| v) &&& v = v := by
  ext i hi
  cases hv : v[i] <;> simp [hv]

theorem shift_back {n : Nat} (hn : n ≤ w) (h : a.toNat < 2 ^ (w - n)) : a <<< n >>> n = a := by
  apply BitVec.eq_of_toNat_eq
  have hlt : a.toNat * 2 ^ n < 2 ^ w := by
    calc a.toNat * 2 ^ n < 2 ^ (w - n) * 2 ^ n := Nat.mul_lt_mul_of_pos_right h (Nat.two_pow_pos n)
      _ = 2 ^ w := by rw [← Nat.pow_add, Nat.sub_add_cancel hn]
  rw [BitVec.toNat_ushiftRight, BitVec.toNat_shiftLeft, Nat.shiftLeft_eq, Nat.mod_eq_of_lt hlt,
    Nat.shiftRight_eq_div_pow, Nat.mul_div_cancel _ (Nat.two_pow_pos n)]

end Stm32f411.BitMasks
