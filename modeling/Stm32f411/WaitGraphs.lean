import Mathlib.Data.Finite.Defs
import Mathlib.Data.Set.Finite.Basic
import Mathlib.Logic.Relation
import Mathlib.Order.WellFounded

/-!
Who waits for whom, when everybody waits for resources that others own. If everything a
waiter owns ranks below what it waits for, the graph has no cycle, and each path through
finitely many waiters comes to somebody who does not wait.
-/

namespace Stm32f411.WaitGraphs

open Relation

variable {τ ι α : Type}

section Model

/-- `u` waits for a resource that `v` owns. -/
def WaitsFor (waits owns : τ → ι → Prop) (u v : τ) : Prop :=
  ∃ p, waits u p ∧ owns v p

/-- Whatever a waiter owns ranks below what it waits for. -/
def Ranked [LT α] (rank : ι → α) (waits owns : τ → ι → Prop) : Prop :=
  ∀ u p q, waits u p → owns u q → rank q < rank p

/-- Everybody in `s` waits for somebody in `s`. -/
def Stuck (waits owns : τ → ι → Prop) (s : Set τ) : Prop :=
  ∀ u ∈ s, ∃ v ∈ s, WaitsFor waits owns u v

end Model

section Rules

variable [Preorder α] {rank : ι → α} {waits waits' owns owns' : τ → ι → Prop} {u v : τ}

/-- A waiter comes to own nothing more, and a new one owns only what ranks lower. -/
theorem Ranked.change (h : Ranked rank waits owns)
    (howns : ∀ u p q, waits' u p → owns' u q → owns u q)
    (hwaits : ∀ u p, waits' u p → waits u p ∨ ∀ q, owns u q → rank q < rank p) :
    Ranked rank waits' owns' := by
  intro u p q hu hq
  have hold := howns u p q hu hq
  rcases hwaits u p hu with hsame | hnew
  · exact h u p q hsame hold
  · exact hnew q hold

theorem Ranked.of_idle (h : ∀ u p, ¬waits u p) : Ranked rank waits owns :=
  fun u p _ hu => absurd hu (h u p)

/-- Ranks rise along a path. -/
theorem Ranked.path (h : Ranked rank waits owns) (hpath : TransGen (WaitsFor waits owns) u v) :
    ∃ p q, waits u p ∧ owns v q ∧ rank p ≤ rank q := by
  induction hpath with
  | single hedge =>
      obtain ⟨p, hu, hv⟩ := hedge
      exact ⟨p, p, hu, hv, le_refl _⟩
  | tail _ hedge ih =>
      obtain ⟨p, q, hu, hx, hle⟩ := ih
      obtain ⟨r, hxr, hv⟩ := hedge
      exact ⟨p, r, hu, hv, hle.trans (h _ r q hxr hx).le⟩

theorem Ranked.acyclic (h : Ranked rank waits owns) (u : τ) :
    ¬TransGen (WaitsFor waits owns) u u := by
  intro hcycle
  obtain ⟨p, q, hp, hq, hle⟩ := h.path hcycle
  exact absurd (h u p q hp hq) (not_lt_of_ge hle)

end Rules

section Ends

variable {R : τ → τ → Prop} {s : Set τ} {u : τ}

/-- Following an acyclic relation through a finite set ends. -/
theorem exists_end (hfinite : s.Finite) (hclosed : ∀ u ∈ s, ∀ v, R u v → v ∈ s)
    (hacyclic : ∀ u, ¬TransGen R u u) (hu : u ∈ s) :
    ∃ v ∈ s, ReflTransGen R u v ∧ ∀ x, ¬R v x := by
  let below : s → s → Prop := fun x y => TransGen R y.1 x.1
  have hfin : Finite s := hfinite
  have htrans : IsTrans s below := ⟨fun x y z hxy hyz => hyz.trans hxy⟩
  have hirrefl : Std.Irrefl below := ⟨fun x => hacyclic x.1⟩
  have hwf : WellFounded below := Finite.wellFounded_of_trans_of_irrefl below
  induction h : (⟨u, hu⟩ : s) using hwf.induction generalizing u with
  | _ x ih =>
      subst h
      by_cases hend : ∀ v, ¬R u v
      · exact ⟨u, hu, .refl, hend⟩
      · obtain ⟨v, hedge⟩ := not_forall_not.mp hend
        have hv := hclosed u hu v hedge
        obtain ⟨x, hx, hpath, hstop⟩ := ih ⟨v, hv⟩ (.single hedge) hv rfl
        exact ⟨x, hx, .head hedge hpath, hstop⟩

/-- A finite set in which everybody has a successor contains a cycle. -/
theorem exists_cycle (hfinite : s.Finite) (hnext : ∀ u ∈ s, ∃ v ∈ s, R u v) (hu : u ∈ s) :
    ∃ v ∈ s, TransGen R v v := by
  by_contra hnone
  have hacyclic : ∀ v, ¬TransGen (fun x y => x ∈ s ∧ y ∈ s ∧ R x y) v v := by
    intro v hcycle
    obtain ⟨x, hfirst, _⟩ := TransGen.head'_iff.mp hcycle
    exact hnone ⟨v, hfirst.1, TransGen.lift id (fun _ _ hedge => hedge.2.2) v v hcycle⟩
  obtain ⟨v, hv, _, hstop⟩ := exists_end hfinite (fun _ _ _ hedge => hedge.2.1) hacyclic hu
  obtain ⟨x, hx, hedge⟩ := hnext v hv
  exact hstop x ⟨hv, hx, hedge⟩

theorem Ranked.not_stuck [Preorder α] {rank : ι → α} {waits owns : τ → ι → Prop}
    (h : Ranked rank waits owns) (hfinite : s.Finite) (hstuck : Stuck waits owns s) :
    s = ∅ := by
  by_contra hne
  obtain ⟨u, hu⟩ := Set.nonempty_iff_ne_empty.mpr hne
  obtain ⟨v, _, hcycle⟩ := exists_cycle hfinite hstuck hu
  exact h.acyclic v hcycle

end Ends

end Stm32f411.WaitGraphs
