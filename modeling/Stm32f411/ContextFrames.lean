import Stm32f411.ContextSaves

/-!
The operations of the kernel leave the contexts in the TCBs alone, and `rtos_start` dispatches
the task that `rtos_select_next` chooses.
-/

namespace Stm32f411.ContextFrames

open Stm32f411.RtosTypes
open Stm32f411.RtosKernel
open Stm32f411.RtosSystem
open Stm32f411.RtosKernelSpec
open Stm32f411.RtosBootSpec
open Stm32f411.RtosCallSpec
open Stm32f411.RtosStepSpec
open Stm32f411.ContextSwitch
open Stm32f411.ContextSaves

variable {τ ι : Type}

variable {P : Platform τ} {k k' : Kernel τ ι} {t u v : RtosTask ι} {task : τ}

theorem sameContext_kept (h : Kept t u) : SameContext t u := by
  obtain ⟨_, _, rfl⟩ := h
  exact ⟨rfl, rfl, rfl, rfl⟩

theorem sameContext_tick (now : Word) (t : RtosTask ι) : SameContext t (tickTask now t) := by
  unfold tickTask
  split
  · exact ⟨rfl, rfl, rfl, rfl⟩
  · exact ⟨rfl, rfl, rfl, rfl⟩
  · exact ⟨rfl, rfl, rfl, rfl⟩

/-- The tasks, who runs, and all contexts are as before. -/
structure SameContexts (k k' : Kernel τ ι) : Prop where
  tasks : k'.tasks = k.tasks
  running : k'.running = k.running
  currentTask : k'.currentTask = k.currentTask
  context : ∀ task, SameContext (k.tcb task) (k'.tcb task)

theorem sameContexts_refl (k : Kernel τ ι) : SameContexts k k :=
  ⟨rfl, rfl, rfl, fun _ => .refl _⟩

variable [DecidableEq τ]

theorem sameContexts_call [DecidableEq ι] {mode : Mode} {call : Call ι} {outcome : Outcome}
    (h : CallEffect k mode call k' outcome) : SameContexts k k' := by
  have hframe := h.frame
  refine ⟨hframe.tasks, hframe.running, hframe.currentTask, fun task => ?_⟩
  have htask := h.task task
  generalize k'.tcb task = u at htask
  cases htask with
  | kept hkept => exact sameContext_kept hkept
  | woken _ _ hkept =>
      obtain ⟨_, _, rfl⟩ := hkept
      exact ⟨rfl, rfl, rfl, rfl⟩
  | delayed _ _ _ _ => exact ⟨rfl, rfl, rfl, rfl⟩
  | slept _ _ _ _ hkept =>
      obtain ⟨_, _, rfl⟩ := hkept
      exact ⟨rfl, rfl, rfl, rfl⟩

theorem foldl_tickVisit_context (now : Word) (l : List τ) (acc : Kernel τ ι × Bool) (task : τ) :
    SameContext (acc.1.tcb task) ((l.foldl (tickVisit now) acc).1.tcb task) := by
  induction l generalizing acc with
  | nil => exact .refl _
  | cons u l ih =>
      refine SameContext.trans ?_ (ih (tickVisit now acc u))
      rw [show acc = (acc.1, acc.2) from rfl, tickVisit_eq]
      dsimp only
      rcases eq_or_ne task u with rfl | hne
      · rw [Function.update_self]
        exact sameContext_tick now _
      · rw [Function.update_of_ne hne]
        exact .refl _

theorem sameContexts_sysTick (k : Kernel τ ι) : SameContexts k (sysTickHandler k) := by
  obtain ⟨tcb, pended, hframe⟩ := sysTickHandler_frame k
  refine ⟨by rw [hframe], by rw [hframe], by rw [hframe], fun task => ?_⟩
  have hfold := foldl_tickVisit_context (k.tick + 1) k.tasks
    ({ k with tick := k.tick + 1 }, false) task
  unfold sysTickHandler rtosTickIsr
  split
  · exact .refl _
  · unfold tickFinish
    split
    · exact hfold.trans (sameContext_kept (kept_recompute _ task))
    · exact hfold

omit [DecidableEq τ] in
theorem sameContexts_placed [DecidableEq ι] (h : ObjectPlaced k k') : SameContexts k k' := by
  rcases h with rfl | ⟨_, _, _, _, _, _, rfl⟩
  · exact sameContexts_refl _
  · exact ⟨rfl, rfl, rfl, fun _ => .refl _⟩

/-- The plain operations leave all contexts alone. -/
theorem sameContexts_plain [DecidableEq ι] {w w' : World τ ι} {op : Op τ ι} (hop : IsPlain op)
    (hstep : step P w op = some w') : SameContexts w.toKernel w'.toKernel := by
  cases op with
  | init _ => exact hop.elim
  | taskCreate _ _ _ _ _ _ => exact hop.elim
  | start _ _ => exact hop.elim
  | pendSV _ => exact hop.elim
  | semaphoreInit semaphore initialCount maximumCount =>
      obtain rfl := Option.some.inj hstep
      exact sameContexts_placed (semaphoreInit_cases _ _ _ _)
  | mutexInit mutex =>
      obtain rfl := Option.some.inj hstep
      exact sameContexts_placed (mutexInit_cases _ _)
  | queueInit queue storage capacity itemSize =>
      obtain rfl := Option.some.inj hstep
      exact sameContexts_placed (queueInit_cases _ _ _ _ _)
  | call mode call =>
      cases step_system hstep with
      | quiet hquiet _ => exact hquiet.elim
      | returned _ _ heffect =>
          have hcalled := sameContexts_call heffect
          exact ⟨hcalled.tasks, hcalled.running, hcalled.currentTask, hcalled.context⟩
      | suspended _ _ _ heffect =>
          have hcalled := sameContexts_call heffect
          exact ⟨hcalled.tasks, hcalled.running, hcalled.currentTask, hcalled.context⟩
  | resume =>
      cases step_system hstep with
      | quiet hquiet _ => exact hquiet.elim
      | resumed _ _ _ => exact ⟨rfl, rfl, rfl, fun _ => .refl _⟩
  | taskReturn =>
      obtain ⟨self, _, _, _, rfl⟩ := taskReturn_step hstep
      refine ⟨rfl, rfl, rfl, fun task => ?_⟩
      rcases eq_or_ne task self with rfl | hne
      · constructor <;> simp
      · simpa [hne] using SameContext.refl (w.tcb task)
  | tick =>
      obtain rfl := Option.some.inj hstep
      exact sameContexts_sysTick _
  | write buffer bytes =>
      obtain rfl := Option.some.inj hstep
      exact ⟨rfl, rfl, rfl, fun _ => .refl _⟩

omit [DecidableEq τ] in
theorem selectNext_frame (k : Kernel τ ι) :
    ∃ cursor, (rtosSelectNext k).1 = { k with rrCursor := cursor } := by
  unfold rtosSelectNext
  split
  · exact ⟨k.rrCursor, rfl⟩
  · exact ⟨_, rfl⟩

theorem start_status (k : Kernel τ ι) (hookRegistered tickConfigured : Bool) :
    ((rtosStart k hookRegistered tickConfigured).2 ≠ .ok ∧
      (rtosStart k hookRegistered tickConfigured).1.running = k.running) ∨
    (rtosStart k hookRegistered tickConfigured).2 = .ok ∧ k.running = false ∧
      (rtosStart k hookRegistered tickConfigured).1.running = true := by
  unfold rtosStart
  split
  · exact Or.inl ⟨by simp, rfl⟩
  · next hstate =>
      split
      · exact Or.inl ⟨by simp, rfl⟩
      · split
        · exact Or.inl ⟨by simp, rfl⟩
        · split
          · next k' hnone =>
              obtain ⟨cursor, hframe⟩ := selectNext_frame { k with tick := 0 }
              rw [hnone] at hframe
              refine Or.inl ⟨by simp, ?_⟩
              rw [show k' = _ from hframe]
          · exact Or.inr ⟨rfl, by simpa using fun h => hstate (Or.inr (Or.inl h)), rfl⟩

theorem start_selects {hookRegistered tickConfigured : Bool} {first : τ}
    (h : rtosStart k hookRegistered tickConfigured = (k', .ok))
    (hfirst : k'.currentTask = some first) :
    (rtosSelectNext { k with tick := 0 }).2 = some first ∧
      (k'.tcb first).state = .running := by
  unfold rtosStart at h
  split at h
  · simp at h
  · split at h
    · simp at h
    · split at h
      · simp at h
      · split at h
        · simp at h
        · next k₁ next hselect =>
            obtain ⟨rfl, -⟩ := Prod.mk.inj h
            obtain rfl : next = first := Option.some.inj hfirst
            rw [hselect]
            exact ⟨rfl, by simp⟩

/-- `rtos_start` dispatches a registered task, or changes no TCB. -/
theorem start_effect (k : Kernel τ ι) (hookRegistered tickConfigured : Bool) :
    ((rtosStart k hookRegistered tickConfigured).2 ≠ .ok ∧
      SameContexts k (rtosStart k hookRegistered tickConfigured).1) ∨
    (rtosStart k hookRegistered tickConfigured).2 = .ok ∧
      Started k (rtosStart k hookRegistered tickConfigured).1 := by
  have hcases := start_cases k hookRegistered tickConfigured
  rcases start_status k hookRegistered tickConfigured with
    ⟨hfail, hsame⟩ | ⟨hok, hstopped, hrunning⟩
  · refine Or.inl ⟨hfail, ?_⟩
    rcases hcases with hk' | ⟨_, cursor, hk'⟩ | hstart
    · rw [hk']
      exact sameContexts_refl k
    · rw [hk']
      exact ⟨rfl, rfl, rfl, fun _ => .refl _⟩
    · obtain ⟨_, _, _, _, _, hk'⟩ := hstart.rest
      rw [hk', hstart.stopped] at hsame
      cases hsame
  · refine Or.inr ⟨hok, ?_⟩
    rcases hcases with hk' | ⟨_, cursor, hk'⟩ | hstart
    · rw [hk', hstopped] at hrunning
      cases hrunning
    · rw [hk'] at hrunning
      exact absurd (hstopped.symm.trans hrunning) (by decide)
    · exact hstart

end Stm32f411.ContextFrames
