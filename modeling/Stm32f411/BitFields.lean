import Mathlib.Data.Nat.Bitwise

/-!
Fields of equal width packed in a word: what a read-modify-write of one field does to it and
to the others, and that a word is determined by its fields.
-/

namespace Stm32f411.BitFields

variable {w : Nat}

/-- The mask of the lowest `n` bits. -/
def lowMask (w n : Nat) : BitVec w :=
  BitVec.ofNat w (2 ^ n - 1)

/-- The field of `n` bits at `pos`, shifted down. -/
def getField (x : BitVec w) (n pos : Nat) : BitVec w :=
  x >>> pos &&& lowMask w n

/-- `x &= ~(mask << pos); x |= v << pos`. -/
def setField (x : BitVec w) (n pos : Nat) (v : BitVec w) : BitVec w :=
  x &&& ~~~(lowMask w n <<< pos) ||| v <<< pos

section Bits

variable {x y v : BitVec w} {n pos i j : Nat}

theorem getLsbD_getField (i : Nat) : (getField x n pos).getLsbD i =
    (decide (i < w) && decide (i < n) && x.getLsbD (pos + i)) := by
  rw [getField, lowMask, BitVec.getLsbD_and, BitVec.getLsbD_ushiftRight, BitVec.getLsbD_ofNat,
    Nat.testBit_two_pow_sub_one, Bool.and_comm]

theorem getLsbD_setField_outside (hv : v.toNat < 2 ^ n) (h : i < pos ∨ pos + n ≤ i) :
    (setField x n pos v).getLsbD i = x.getLsbD i := by
  have hhigh (h : pos + n ≤ i) : v.getLsbD (i - pos) = false :=
    Nat.testBit_lt_two_pow (Nat.lt_of_lt_of_le hv (Nat.pow_le_pow_right (by decide) (by omega)))
  simp only [setField, lowMask, BitVec.getLsbD_or, BitVec.getLsbD_and, BitVec.getLsbD_not,
    BitVec.getLsbD_shiftLeft, BitVec.getLsbD_ofNat, Nat.testBit_two_pow_sub_one]
  rcases h with h | h
  · by_cases hi : i < w
    · simp [hi, h]
    · simp [BitVec.getLsbD_of_ge x i (Nat.not_lt.mp hi), hi]
  · by_cases hi : i < w
    · simp [hi, hhigh h, show ¬i - pos < n by omega]
    · simp [BitVec.getLsbD_of_ge x i (Nat.not_lt.mp hi), hi]

theorem getLsbD_setField_inside (hi : i < n) (hw : pos + n ≤ w) :
    (setField x n pos v).getLsbD (pos + i) = v.getLsbD i := by
  have hlt : pos + i < w := by omega
  have hiw : i < w := by omega
  have hpos : ¬pos + i < pos := by omega
  simp only [setField, lowMask, BitVec.getLsbD_or, BitVec.getLsbD_and, BitVec.getLsbD_not,
    BitVec.getLsbD_shiftLeft, BitVec.getLsbD_ofNat, Nat.testBit_two_pow_sub_one,
    Nat.add_sub_cancel_left]
  simp [hlt, hpos, hi, hiw]

/-- A field reads back what was written to it. -/
theorem getField_setField_self (hv : v.toNat < 2 ^ n) (hw : pos + n ≤ w) :
    getField (setField x n pos v) n pos = v := by
  apply BitVec.eq_of_getLsbD_eq
  intro i hi
  rw [getLsbD_getField]
  by_cases hin : i < n
  · rw [getLsbD_setField_inside hin hw]
    simp [hi, hin]
  · have hhigh : v.getLsbD i = false := Nat.testBit_lt_two_pow
      (Nat.lt_of_lt_of_le hv (Nat.pow_le_pow_right (by decide) (Nat.not_lt.mp hin)))
    simp [hin, hhigh]

/-- A write leaves the bits outside its field alone. -/
theorem getField_setField_disjoint {m q : Nat} (hv : v.toNat < 2 ^ n)
    (h : q + m ≤ pos ∨ pos + n ≤ q) :
    getField (setField x n pos v) m q = getField x m q := by
  apply BitVec.eq_of_getLsbD_eq
  intro i hi
  rw [getLsbD_getField, getLsbD_getField]
  by_cases hin : i < m
  · rw [getLsbD_setField_outside hv (by omega)]
  · simp [hin]

theorem ushiftRight_setField (hv : v.toNat < 2 ^ n) {k : Nat} (hk : pos + n ≤ k) :
    setField x n pos v >>> k = x >>> k := by
  apply BitVec.eq_of_getLsbD_eq
  intro i hi
  rw [BitVec.getLsbD_ushiftRight, BitVec.getLsbD_ushiftRight,
    getLsbD_setField_outside hv (by omega)]

end Bits

section Lanes

variable {x y v : BitVec w} {n i j k : Nat}

/-- The `i`th of the fields of `n` bits. -/
def lane (x : BitVec w) (n i : Nat) : BitVec w :=
  getField x n (n * i)

def setLane (x : BitVec w) (n i : Nat) (v : BitVec w) : BitVec w :=
  setField x n (n * i) v

theorem lane_setLane (hv : v.toNat < 2 ^ n) (hi : n * (i + 1) ≤ w) :
    lane (setLane x n i v) n j = if j = i then v else lane x n j := by
  split
  · next h =>
      subst h
      exact getField_setField_self hv hi
  · next h =>
      refine getField_setField_disjoint hv ?_
      rcases Nat.lt_or_gt_of_ne h with hlt | hlt
      · exact Or.inl (Nat.mul_le_mul_left n hlt)
      · exact Or.inr (Nat.mul_le_mul_left n hlt)

/-- Two words agree below bit `n * k` if their lanes do. -/
theorem getLsbD_of_lanes (hn : 0 < n) (hw : n * k ≤ w)
    (h : ∀ i < k, lane x n i = lane y n i) {b : Nat} (hb : b < n * k) :
    x.getLsbD b = y.getLsbD b := by
  have hmod := Nat.mod_lt b hn
  have hlane := congrArg (·.getLsbD (b % n)) (h (b / n) (Nat.div_lt_of_lt_mul hb))
  have hlt : b % n < w := by
    have hle := Nat.mod_le b n
    omega
  simp only [lane, getLsbD_getField, Nat.div_add_mod] at hlane
  simpa [hlt, hmod] using hlane

/-- The lanes and the bits above them determine the word. -/
theorem eq_of_lanes (hn : 0 < n) (hw : n * k ≤ w) (h : ∀ i < k, lane x n i = lane y n i)
    (hrest : x >>> (n * k) = y >>> (n * k)) : x = y := by
  apply BitVec.eq_of_getLsbD_eq
  intro b hb
  by_cases hlow : b < n * k
  · exact getLsbD_of_lanes hn hw h hlow
  · have hbit := congrArg (·.getLsbD (b - n * k)) hrest
    simpa [BitVec.getLsbD_ushiftRight, Nat.add_sub_cancel' (Nat.not_lt.mp hlow)] using hbit

end Lanes

end Stm32f411.BitFields
