import Mathlib.Data.List.Nodup
import Mathlib.Data.List.TakeWhile
import Stm32f411.LabelledRuns

/-!
A table scanned in cyclic order from the slot after a cursor, where the slot served moves
the cursor. The distance to a waiting slot decreases with every service, and that of the
slot just served is the largest.
-/

namespace Stm32f411.CyclicScan

open Stm32f411.LabelledRuns

/-- How many slots the scan passes before it comes to slot `i`. -/
def distance (n cursor i : Nat) : Nat :=
  if (cursor + 1) % n ≤ i then i - (cursor + 1) % n else i + n - (cursor + 1) % n

section Distance

variable {n cursor i j : Nat}

theorem mod_lt_of_slot (hi : i < n) : (cursor + 1) % n < n :=
  Nat.mod_lt _ (Nat.zero_lt_of_lt hi)

theorem distance_lt (hi : i < n) : distance n cursor i < n := by
  have hstart : (cursor + 1) % n < n := mod_lt_of_slot hi
  unfold distance
  split <;> omega

/-- The slot that the scan visits after `d` others. -/
theorem slot_eq (d : Nat) (hd : d < n) : (cursor + (d + 1)) % n =
    if (cursor + 1) % n + d < n then (cursor + 1) % n + d else (cursor + 1) % n + d - n := by
  have hstart : (cursor + 1) % n < n := mod_lt_of_slot hd
  have hsplit : (cursor + (d + 1)) % n = ((cursor + 1) % n + d) % n := by
    rw [Nat.mod_add_mod]
    congr 1
    omega
  rw [hsplit]
  split
  · next h => exact Nat.mod_eq_of_lt h
  · next h => rw [Nat.mod_eq_sub_mod (by omega), Nat.mod_eq_of_lt (by omega)]

theorem slot_distance (hi : i < n) : (cursor + (distance n cursor i + 1)) % n = i := by
  have hstart : (cursor + 1) % n < n := mod_lt_of_slot hi
  rw [slot_eq _ (distance_lt hi)]
  unfold distance
  split <;> split <;> omega

theorem distance_slot {d : Nat} (hd : d < n) :
    distance n cursor ((cursor + (d + 1)) % n) = d := by
  have hstart : (cursor + 1) % n < n := mod_lt_of_slot hd
  rw [slot_eq _ hd]
  unfold distance
  split <;> split <;> omega

theorem distance_inj (hi : i < n) (hj : j < n)
    (h : distance n cursor i = distance n cursor j) : i = j := by
  calc
    i = (cursor + (distance n cursor i + 1)) % n := (slot_distance hi).symm
    _ = (cursor + (distance n cursor j + 1)) % n := by rw [h]
    _ = j := slot_distance hj

theorem next_slot (hj : j < n) : (j + 1) % n = if j + 1 < n then j + 1 else 0 := by
  split
  · next h => exact Nat.mod_eq_of_lt h
  · next h =>
      obtain rfl : n = j + 1 := by omega
      exact Nat.mod_self _

/-- The slot just served is the last that the next scan comes to. -/
theorem distance_served (hj : j < n) : distance n j j = n - 1 := by
  rw [distance, next_slot hj]
  split_ifs <;> omega

/-- Serving a nearer slot brings a waiting one nearer. -/
theorem distance_passed (hi : i < n) (hj : j < n)
    (h : distance n cursor j < distance n cursor i) :
    distance n j i = distance n cursor i - distance n cursor j - 1 := by
  have hstart : (cursor + 1) % n < n := mod_lt_of_slot hi
  unfold distance at h ⊢
  rw [next_slot hj]
  split_ifs at h ⊢ <;> omega

end Distance

section Service

variable {n waiting : Nat}

/-- One scan of a table in which slot `waiting` can be served: it serves that slot or one
that comes before it. -/
def Serves (n waiting cursor served cursor' : Nat) : Prop :=
  served < n ∧ cursor' = served ∧ distance n cursor served ≤ distance n cursor waiting

/-- The slots served while another one waits all lie behind it. -/
theorem served_behind {cursor cursor' : Nat} {served : List Nat} (hwaiting : waiting < n)
    (hrun : Run (Serves n waiting) cursor served cursor') (hwaits : waiting ∉ served) :
    served.Nodup ∧ ∀ j ∈ served,
      j < n ∧ distance n cursor' waiting < distance n cursor' j := by
  induction hrun with
  | nil => simp
  | @snoc served cursor' j _ hrest hlast ih =>
      obtain ⟨hj, rfl, hnear⟩ := hlast
      simp only [List.mem_append, List.mem_singleton, not_or] at hwaits
      obtain ⟨hnodup, hbehind⟩ := ih hwaits.1
      have hcloser : distance n cursor' j < distance n cursor' waiting :=
        Nat.lt_of_le_of_ne hnear fun heq => hwaits.2 (distance_inj hj hwaiting heq).symm
      have hnew : j ∉ served := fun hmem =>
        absurd (hbehind j hmem).2 (Nat.not_lt.mpr hnear)
      have hpassed := distance_passed hwaiting hj hcloser
      have hrange : distance n cursor' waiting < n := distance_lt hwaiting
      constructor
      · rw [← List.concat_eq_append, List.nodup_concat]
        exact ⟨hnew, hnodup⟩
      · intro i hi
        rcases List.mem_append.mp hi with hi | hi
        · obtain ⟨hslot, hbefore⟩ := hbehind i hi
          have hlater := distance_passed hslot hj (Nat.lt_trans hcloser hbefore)
          exact ⟨hslot, by omega⟩
        · obtain rfl := List.mem_singleton.mp hi
          exact ⟨hj, by rw [distance_served hj]; omega⟩

/-- Until slot `waiting` is served no slot is served twice. -/
theorem served_once {cursor cursor' : Nat} {served : List Nat} (hwaiting : waiting < n)
    (hrun : Run (Serves n waiting) cursor served cursor') :
    (served.takeWhile (· ≠ waiting)).Nodup := by
  induction hrun with
  | nil => simp
  | @snoc served cursor' cursor'' j hrest hlast ih =>
      by_cases hmem : waiting ∈ served
      · have hstop : ¬(served.takeWhile (· ≠ waiting)).length = served.length := by
          intro hlength
          have hself := (List.takeWhile_prefix _).eq_of_length hlength
          simpa using List.takeWhile_eq_self_iff.mp hself waiting hmem
        rw [List.takeWhile_append, if_neg hstop]
        exact ih
      · have hpass : ∀ i ∈ served, decide (i ≠ waiting) = true := by
          intro i hi
          simpa using ne_of_mem_of_not_mem hi hmem
        rw [List.takeWhile_append_of_pos hpass]
        rcases eq_or_ne j waiting with rfl | hne
        · simpa using (served_behind hwaiting hrest hmem).1
        · have hone : [j].takeWhile (· ≠ waiting) = [j] := by simp [hne]
          have hnone : waiting ∉ served ++ [j] := by simpa [hmem] using hne.symm
          rw [hone]
          exact (served_behind hwaiting (.snoc hrest hlast) hnone).1

end Service

end Stm32f411.CyclicScan
