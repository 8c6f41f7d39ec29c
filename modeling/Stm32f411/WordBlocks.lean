import Mathlib.Algebra.Group.Nat.Defs
import Mathlib.Logic.Function.Basic

/-!
Blocks of four-byte words in a memory with wrapping addresses: storing several words upwards
from a base, pushing them downwards from a stack pointer, and which addresses stay as they
were.
-/

namespace Stm32f411.WordBlocks

variable {w : Nat} {β : Type}

/-- The address of the `i`th word of the block at `base`. -/
def slot (base : BitVec w) (i : Nat) : BitVec w :=
  base + BitVec.ofNat w (4 * i)

/-- `f 0`, ..., `f (n - 1)` are stored in this order, the first at `base`. -/
def storeBlock (m : BitVec w → β) (base : BitVec w) (f : Nat → β) : Nat → BitVec w → β
  | 0 => m
  | n + 1 => Function.update (storeBlock m base f n) (slot base n) (f n)

/-- `*(--sp) = value`. -/
def pushWord (s : (BitVec w → β) × BitVec w) (value : β) : (BitVec w → β) × BitVec w :=
  (Function.update s.1 (s.2 - 4) value, s.2 - 4)

def pushWords (s : (BitVec w → β) × BitVec w) (values : List β) : (BitVec w → β) × BitVec w :=
  values.foldl pushWord s

/-- `a` lies outside the addresses from `low` up to, not including, `high`. -/
def Outside (low high : Nat) (a : BitVec w) : Prop :=
  a.toNat < low ∨ high ≤ a.toNat

section Blocks

variable {m : BitVec w → β} {base a : BitVec w} {f : Nat → β} {n i : Nat}

theorem slot_slot (base : BitVec w) (i j : Nat) : slot (slot base i) j = slot base (i + j) := by
  rw [slot, slot, slot, BitVec.add_assoc, ← BitVec.ofNat_add, Nat.mul_add]

theorem toNat_slot (h : base.toNat + 4 * i < 2 ^ w) :
    (slot base i).toNat = base.toNat + 4 * i := by
  rw [slot, BitVec.toNat_add, BitVec.toNat_ofNat, Nat.mod_eq_of_lt (a := 4 * i) (by omega),
    Nat.mod_eq_of_lt h]

theorem Outside.mono {low high low' high' : Nat} (h : Outside low high a) (hlow : low ≤ low')
    (hhigh : high' ≤ high) : Outside low' high' a :=
  Or.imp (fun ha => Nat.lt_of_lt_of_le ha hlow) (Nat.le_trans hhigh) h

theorem storeBlock_outside (hfit : base.toNat + 4 * n ≤ 2 ^ w)
    (ha : Outside base.toNat (base.toNat + 4 * n) a) : storeBlock m base f n a = m a := by
  induction n with
  | zero => rfl
  | succ n ih =>
      have hslot : (slot base n).toNat = base.toNat + 4 * n := toNat_slot (by omega)
      have hne : a ≠ slot base n := by
        rintro rfl
        rcases ha with hlow | hhigh
        · omega
        · omega
      rw [storeBlock, Function.update_of_ne hne]
      exact ih (by omega) (ha.mono (Nat.le_refl _) (by omega))

theorem storeBlock_slot (hfit : base.toNat + 4 * n ≤ 2 ^ w) (hi : i < n) :
    storeBlock m base f n (slot base i) = f i := by
  induction n with
  | zero => exact absurd hi (Nat.not_lt_zero i)
  | succ n ih =>
      rw [storeBlock]
      rcases Nat.lt_succ_iff_lt_or_eq.mp hi with hlt | rfl
      · have hslot : (slot base n).toNat = base.toNat + 4 * n := toNat_slot (by omega)
        have hne : slot base i ≠ slot base n := by
          intro h
          have hi' : (slot base i).toNat = base.toNat + 4 * i := toNat_slot (by omega)
          rw [h, hslot] at hi'
          omega
        rw [Function.update_of_ne hne]
        exact ih (by omega) hlt
      · exact Function.update_self ..

end Blocks

section Pushes

variable {m : BitVec w → β} {sp a : BitVec w} {values : List β} {i : Nat}

theorem toNat_sub_word (hw : 3 ≤ w) (h : 4 ≤ sp.toNat) : (sp - 4).toNat = sp.toNat - 4 := by
  have hpow : 2 ^ 3 ≤ 2 ^ w := Nat.pow_le_pow_right (by decide) hw
  have hlt : 4 < 2 ^ w := by omega
  have hfour : (4 : BitVec w).toNat = 4 := Nat.mod_eq_of_lt hlt
  have hle : (4 : BitVec w) ≤ sp := BitVec.le_def.mpr (by rw [hfour]; exact h)
  rw [BitVec.toNat_sub_of_le hle, hfour]

theorem pushWords_cons (s : (BitVec w → β) × BitVec w) (value : β) (values : List β) :
    pushWords s (value :: values) = pushWords (pushWord s value) values := rfl

theorem pushWords_pointer (hw : 3 ≤ w) (h : 4 * values.length ≤ sp.toNat) :
    (pushWords (m, sp) values).2.toNat = sp.toNat - 4 * values.length := by
  induction values generalizing m sp with
  | nil => rfl
  | cons value values ih =>
      rw [List.length_cons] at h
      have hsub : (sp - 4).toNat = sp.toNat - 4 := toNat_sub_word hw (by omega)
      rw [pushWords_cons, pushWord, ih (by rw [hsub]; omega), hsub, List.length_cons]
      omega

theorem pushWords_outside (hw : 3 ≤ w) (h : 4 * values.length ≤ sp.toNat)
    (ha : Outside (sp.toNat - 4 * values.length) sp.toNat a) :
    (pushWords (m, sp) values).1 a = m a := by
  induction values generalizing m sp with
  | nil => rfl
  | cons value values ih =>
      rw [List.length_cons] at h ha
      have hsub : (sp - 4).toNat = sp.toNat - 4 := toNat_sub_word hw (by omega)
      have hne : a ≠ sp - 4 := by
        rintro rfl
        rcases ha with hlow | hhigh
        · omega
        · omega
      rw [pushWords_cons, pushWord, ih (by rw [hsub]; omega)]
      · exact Function.update_of_ne hne ..
      · rw [hsub]
        exact ha.mono (by omega) (by omega)

/-- The last word pushed lies at the stack pointer. -/
theorem pushWords_slot (hw : 3 ≤ w) (h : 4 * values.length ≤ sp.toNat)
    (hi : i < values.length) :
    values.reverse[i]? =
      some ((pushWords (m, sp) values).1 (slot (pushWords (m, sp) values).2 i)) := by
  induction values generalizing m sp i with
  | nil => exact absurd hi (Nat.not_lt_zero i)
  | cons value values ih =>
      rw [List.length_cons] at h hi
      have hsub : (sp - 4).toNat = sp.toNat - 4 := toNat_sub_word hw (by omega)
      have hroom : 4 * values.length ≤ (sp - 4).toNat := by rw [hsub]; omega
      have hsp := sp.isLt
      rw [pushWords_cons, pushWord, List.reverse_cons]
      rcases Nat.lt_succ_iff_lt_or_eq.mp hi with hlt | rfl
      · rw [List.getElem?_append_left (by simpa using hlt)]
        exact ih hroom hlt
      · -- the word pushed first, at the top
        have hpointer := pushWords_pointer hw (m := Function.update m (sp - 4) value) hroom
        have hslot : slot (pushWords (Function.update m (sp - 4) value, sp - 4) values).2
            values.length = sp - 4 := by
          apply BitVec.eq_of_toNat_eq
          rw [toNat_slot (by rw [hpointer]; omega), hpointer]
          omega
        rw [hslot, pushWords_outside hw hroom (Or.inr (Nat.le_refl _)), Function.update_self]
        simp

end Pushes

end Stm32f411.WordBlocks
