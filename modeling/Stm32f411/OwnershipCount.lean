import Mathlib.Data.Set.Card

/-!
Counting what each owner holds under a partial ownership map, as one entry of the map
changes at a time.
-/

namespace Stm32f411.OwnershipCount

variable {ι τ : Type*}

/-- What `t` owns. -/
def held (owner : ι → Option τ) (t : τ) : Set ι :=
  {p | owner p = some t}

/-- Everything that has an owner. -/
def taken (owner : ι → Option τ) : Set ι :=
  {p | owner p ≠ none}

variable {owner : ι → Option τ} {p : ι} {t : τ}

theorem held_subset_taken : held owner t ⊆ taken owner := by
  intro p (hp : owner p = some t)
  simp [taken, hp]

theorem finite_held (h : (taken owner).Finite) (t : τ) : (held owner t).Finite :=
  h.subset held_subset_taken

variable [DecidableEq ι]

theorem finite_taken_update (h : (taken owner).Finite) (p : ι) (o : Option τ) :
    (taken (Function.update owner p o)).Finite := by
  apply (h.insert p).subset
  intro q (hq : Function.update owner p o q ≠ none)
  rcases eq_or_ne q p with rfl | hne
  · exact Set.mem_insert _ _
  · rw [Function.update_of_ne hne] at hq
    exact Set.mem_insert_of_mem _ hq

/-- An entry that neither was nor becomes `t`'s does not count for `t`. -/
theorem held_update_other {o : Option τ} (hbefore : owner p ≠ some t) (hafter : o ≠ some t) :
    held (Function.update owner p o) t = held owner t := by
  ext q
  rcases eq_or_ne q p with rfl | hne
  · simp [held, hbefore, hafter]
  · simp [held, hne]

theorem held_update_self (owner : ι → Option τ) (p : ι) (t : τ) :
    held (Function.update owner p (some t)) t = insert p (held owner t) := by
  ext q
  rcases eq_or_ne q p with rfl | hne
  · simp [held]
  · simp [held, hne]

theorem ncard_held_gain (h : (taken owner).Finite) (hbefore : owner p ≠ some t) :
    (held (Function.update owner p (some t)) t).ncard = (held owner t).ncard + 1 := by
  rw [held_update_self]
  exact Set.ncard_insert_of_notMem hbefore (finite_held h t)

theorem ncard_held_lose (h : (taken owner).Finite) (hbefore : owner p = some t)
    {o : Option τ} (hafter : o ≠ some t) :
    (held (Function.update owner p o) t).ncard + 1 = (held owner t).ncard := by
  have hback : Function.update (Function.update owner p o) p (some t) = owner := by
    rw [Function.update_idem, ← hbefore, Function.update_eq_self]
  have hgain := ncard_held_gain (p := p) (t := t) (finite_taken_update h p o)
    (by simpa using hafter)
  rw [hback] at hgain
  exact hgain.symm

theorem ncard_held_drop (h : (taken owner).Finite) (p : ι) (t : τ) :
    (held (Function.update owner p none) t).ncard ≤ (held owner t).ncard := by
  apply Set.ncard_le_ncard _ (finite_held h t)
  intro q (hq : Function.update owner p none q = some t)
  rcases eq_or_ne q p with rfl | hne
  · simp at hq
  · rwa [Function.update_of_ne hne] at hq

end Stm32f411.OwnershipCount
