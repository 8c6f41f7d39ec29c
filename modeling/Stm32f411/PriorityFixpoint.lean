import Stm32f411.PriorityInheritance

/-!
`rtos_kernel_recompute_priorities` for any table: whatever the order of the tasks and the old
priorities are, its passes end in the least solution of the inheritance equation.
-/

namespace Stm32f411.PriorityFixpoint

open Stm32f411.InheritanceRelaxation
open Stm32f411.RtosTypes
open Stm32f411.RtosKernel
open Stm32f411.RtosSystem
open Stm32f411.RtosKernelSpec
open Stm32f411.PriorityInheritance

variable {τ ι : Type}

section Equation

/-- Every registered task has the greatest of its base priority and the priorities of the tasks
that are BLOCKED on a mutex it owns. -/
def InheritsPriorities (k : Kernel τ ι) (priority : τ → Nat) : Prop :=
  ∀ t ∈ k.tasks, IsGreatest
    (insert (k.tcb t).basePriority {p | ∃ w, WaitsForOwner k w t ∧ priority w = p}) (priority t)

structure IsLeastInheritance (k : Kernel τ ι) (priority : τ → Nat) : Prop where
  inherits : InheritsPriorities k priority
  least : ∀ other, InheritsPriorities k other → ∀ t ∈ k.tasks, priority t ≤ other t

/-- The same tasks in any order, in the same wait states, with any effective priorities. -/
structure SameInput (k k' : Kernel τ ι) : Prop where
  tasks : k'.tasks.Perm k.tasks
  objects : k'.objects = k.objects
  state : ∀ t ∈ k.tasks, (k'.tcb t).state = (k.tcb t).state
  waitType : ∀ t ∈ k.tasks, (k'.tcb t).waitType = (k.tcb t).waitType
  waitObject : ∀ t ∈ k.tasks, (k'.tcb t).waitObject = (k.tcb t).waitObject
  basePriority : ∀ t ∈ k.tasks, (k'.tcb t).basePriority = (k.tcb t).basePriority

/-- Owners of mutexes that tasks wait for are registered. -/
def OwnersRegistered (k : Kernel τ ι) : Prop :=
  ∀ w t, WaitsForOwner k w t → t ∈ k.tasks

end Equation

section Recompute

variable {k k' : Kernel τ ι}

theorem inheritsPriorities_iff {priority : τ → Nat} : InheritsPriorities k priority ↔
    Solves (blockingOwner k) k.tasks (fun t => (k.tcb t).basePriority) priority := by
  rw [InheritsPriorities, Solves, edge_blockingOwner]

theorem OwnersRegistered.closed (h : OwnersRegistered k) : Closed (blockingOwner k) k.tasks := by
  intro w t hedge
  rw [edge_blockingOwner] at hedge
  exact h w t hedge

theorem OwnersRegistered.exact [DecidableEq τ] (h : OwnersRegistered k) :
    Exact (blockingOwner k) k.tasks (fun t => (k.tcb t).basePriority) (recomputedPriority k) :=
  recomputedPriority_exact fun t ht owner howner => h.closed t owner ⟨ht, howner⟩

theorem SameInput.blockingOwner (h : SameInput k k') {t : τ} (ht : t ∈ k.tasks) :
    blockingOwner k' t = blockingOwner k t :=
  blockingOwner_congr (h.state t ht) (h.waitType t ht) (h.waitObject t ht) fun p _ => by
    rw [h.objects]

variable [DecidableEq τ]

/-- The order of the table and the old priorities do not matter. -/
theorem SameInput.recomputed (h : SameInput k k') (howners : OwnersRegistered k) {t : τ}
    (ht : t ∈ k.tasks) : recomputedPriority k' t = recomputedPriority k t := by
  have hmem : ∀ u, u ∈ k'.tasks ↔ u ∈ k.tasks := fun u => h.tasks.mem_iff
  have howners' : OwnersRegistered k' := by
    intro w u hedge
    rw [← edge_blockingOwner] at hedge
    have hw := (hmem w).mp hedge.1
    exact (hmem u).mpr (howners.closed w u ⟨hw, h.blockingOwner hw ▸ hedge.2⟩)
  have hexact := howners'.exact.of_mem_iff hmem
  have hsame := hexact.congr (fun u hu => h.blockingOwner hu) h.basePriority fun _ _ => rfl
  exact hsame.unique howners.exact ht

/-- The recomputation ends in the least solution, for every table. -/
theorem recompute_least_fixpoint (k : Kernel τ ι) (howners : OwnersRegistered k) :
    IsLeastInheritance k
        (fun t => ((rtosKernelRecomputePriorities k).tcb t).effectivePriority) ∧
      ∀ k', SameInput k k' → ∀ t ∈ k.tasks,
        ((rtosKernelRecomputePriorities k').tcb t).effectivePriority =
          ((rtosKernelRecomputePriorities k).tcb t).effectivePriority := by
  refine ⟨⟨?_, fun other hother t ht => ?_⟩, fun k' h t ht => h.recomputed howners ht⟩
  · exact inheritsPriorities_iff.mpr howners.exact.solves
  · have hbounds := (inheritsPriorities_iff.mp hother).bounds howners.closed
    exact howners.exact.le_of_bounds hbounds ht

/-- A chain in the worst order: task 2 of priority 7 waits for task 1, and task 1 for task 0. -/
def demoChain : Kernel Nat Nat :=
  { demoReset.toKernel with
    tasks := [0, 1, 2]
    tcb := fun t =>
      { demoReset.tcb t with
        state := if t = 0 then .ready else .blocked
        waitType := if t = 0 then .none else .mutex
        waitObject := if t = 0 then none else some t
        basePriority := if t = 2 then 7 else t
        effectivePriority := 9 }
    objects := fun p => .mutex ⟨some (p - 1)⟩ }

theorem recompute_least_fixpoint_demo :
    IsLeastInheritance demoChain
        (fun t => ((rtosKernelRecomputePriorities demoChain).tcb t).effectivePriority) ∧
      ((rtosKernelRecomputePriorities demoChain).tcb 0).effectivePriority = 7 := by
  have howners : OwnersRegistered demoChain := by
    rintro w t ⟨hw, p, m, hstate, -, hobject, hm, howner⟩
    have hchain : ∀ w ∈ demoChain.tasks, ∀ p ∈ (demoChain.tcb w).waitObject,
        ∀ owner ∈ (demoChain.objects p).owner?, owner ∈ demoChain.tasks := by decide
    refine hchain w hw p hobject t ?_
    rw [hm]
    exact howner
  exact ⟨(recompute_least_fixpoint demoChain howners).1, by decide⟩

end Recompute

end Stm32f411.PriorityFixpoint
