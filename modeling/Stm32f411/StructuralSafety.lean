import Stm32f411.PriorityInheritance

/-!
What the invariants rule out: a selection that finds no task, a switch that reports a
broken kernel, and a terminated task that comes back.
-/

namespace Stm32f411.StructuralSafety

open Stm32f411.LabelledRuns
open Stm32f411.RtosTypes
open Stm32f411.RtosKernel
open Stm32f411.RtosIpc
open Stm32f411.RtosSystem
open Stm32f411.RtosKernelSpec
open Stm32f411.RtosBootSpec
open Stm32f411.RtosCallSpec
open Stm32f411.RtosStepSpec
open Stm32f411.KernelSoundness
open Stm32f411.WaiterService
open Stm32f411.PriorityInheritance

variable {τ ι : Type} [DecidableEq ι]

variable {P : Platform τ} {k k' : Kernel τ ι}

/-- The idle task owns nothing, so nothing can raise it. -/
theorem idle_effectivePriority (h : KernelInvariant P k) (hinit : k.initialized = true) :
    (k.tcb P.idle).effectivePriority = rtosIdlePriority := by
  obtain ⟨u, _, hreach, hbase⟩ := (h.inherited P.idle (h.sound.idle_mem hinit)).1
  rcases Relation.ReflTransGen.cases_tail hreach with hu | ⟨v, _, _, hedge⟩
  · have heq : (k.tcb u).basePriority = (k.tcb P.idle).effectivePriority := hbase
    rw [← heq, ← hu]
    exact h.sound.idle_base hinit
  · obtain ⟨p, m, _, _, _, hobj, howner⟩ := blockingOwner_eq_some.mp hedge
    exact absurd rfl (h.sound.owner_task p P.idle (by simp [hobj, howner])).2

/-- The idle task can always be selected, also after the running task was switched out. -/
theorem select_switchedOut [DecidableEq τ]
    (h : KernelInvariant P k) (hinit : k.initialized = true) :
    (rtosSelectNext (switchedOut k)).2 ≠ none := by
  intro hnone
  have hselect : rtosSelectNext (switchedOut k) = ((rtosSelectNext (switchedOut k)).1, none) :=
    Prod.ext rfl hnone
  have hlt := selectNext_eq_none hselect (h.sound.idle_mem hinit)
    (runnable_switchedOut.mpr (h.sound.idle_runs hinit))
  rw [switchedOut_effectivePriority, idle_effectivePriority h hinit] at hlt
  exact absurd hlt (by decide)

theorem select_next (h : KernelInvariant P k) (hinit : k.initialized = true) :
    (rtosSelectNext k).2 ≠ none := by
  intro hnone
  have hselect : rtosSelectNext k = ((rtosSelectNext k).1, none) := Prod.ext rfl hnone
  have hlt := selectNext_eq_none hselect (h.sound.idle_mem hinit) (h.sound.idle_runs hinit)
  rw [idle_effectivePriority h hinit] at hlt
  exact absurd hlt (by decide)

variable [DecidableEq τ]

theorem schedule_fault (h : KernelInvariant P k) (hinit : k.initialized = true)
    {stackValid : Bool} {fault : Fault τ}
    (hfault : rtosScheduleFromPendsv k stackValid = .error fault) :
    stackValid = false ∧ fault.reason = .stack := by
  rw [schedule_eq] at hfault
  split at hfault
  · next hstack =>
      simp only [Except.error.injEq] at hfault
      rw [← hfault]
      simp only [Bool.and_eq_true, Bool.not_eq_true'] at hstack
      exact ⟨hstack.2, rfl⟩
  · split at hfault
    · next hselect =>
        exact absurd (congrArg Prod.snd hselect) (select_switchedOut h hinit)
    · simp at hfault

/-- A task that was switched out for good. -/
structure Terminated (k : Kernel τ ι) (t : τ) : Prop where
  running : k.running = true
  mem : t ∈ k.tasks
  state : (k.tcb t).state = .terminated

theorem Terminated.step {t : τ} (h : Terminated k t) (hs : Sound P k)
    (hstep : KernelStep P k k') : Terminated k' t := by
  have hrun := h.running
  have hstate := h.state
  cases hstep with
  | quiet hquiet =>
      cases hquiet.running hrun with
      | unchanged => exact h
      | @terminated self _ _ _ =>
          refine ⟨hrun, h.mem, ?_⟩
          rcases eq_or_ne t self with rfl | hts
          · simp
          · simpa [hts] using hstate
      | switched hswitch =>
          have hterminated := (hswitch.state_iff (by simp) (by simp) t).mpr hstate
          obtain ⟨_, _, _, _, hk'⟩ := hswitch
          exact ⟨by simpa [hk'] using hrun, by simpa [hk'] using h.mem, hterminated⟩
      | wrote => exact ⟨hrun, h.mem, hstate⟩
  | marked _ => exact ⟨hrun, h.mem, hstate⟩
  | call hcaller heffect =>
      have hframe := heffect.frame
      have hcall := hcaller.not_caller (t := t) (by simp [hstate])
      obtain ⟨_, _, hkept⟩ := heffect.untouched hcall (by simp [hstate])
      exact ⟨by rw [hframe.running, hrun], by rw [hframe.tasks]; exact h.mem,
        by rw [hkept]; exact hstate⟩
  | ticked =>
      obtain ⟨⟨tcb, htick⟩, htasks⟩ := sysTickHandler_running hrun hs.nodup
      obtain ⟨priority, htcb⟩ := htasks t h.mem
      refine ⟨by rw [htick]; exact hrun, by rw [htick]; exact h.mem, ?_⟩
      rw [htcb]
      simp [tickTask, tickDecision, hstate]

/-- The kernel state is structurally sound in every state reached once the kernel runs. -/
theorem kernel_structurally_sound {w : World τ ι} (h : Reached P w) (hrun : w.running = true) :
    (∀ t ∈ w.tasks, (w.tcb t).state = .running → w.currentTask = some t) ∧
    (∀ c, w.currentTask = some c → (w.tcb c).state ≠ .running → w.pended = true) ∧
    (∀ t ∈ w.tasks, (w.tcb t).state = .blocked ↔ (w.tcb t).waitType ≠ .none) ∧
    (∀ t ∈ w.tasks, (w.tcb t).state = .blocked →
      ∃ p, (w.tcb t).waitObject = some p ∧ (w.tcb t).waitType.matches (w.objects p)) ∧
    (∀ t ∈ w.tasks, (w.tcb t).state = .blocked →
      (w.tcb t).waitType = .queueSend ∨ (w.tcb t).waitType = .queueReceive →
      ∃ buffer, (w.tcb t).waitBuffer = some buffer) ∧
    (∀ t ∈ w.tasks, (w.tcb t).state = .terminated → ∀ ops w',
      Run (Steps (step P)) w ops w' → (w'.tcb t).state = .terminated) ∧
    ((w.tcb P.idle).state = .ready ∨ (w.tcb P.idle).state = .running) ∧
    (w.tcb P.idle).effectivePriority = 0 ∧
    (rtosSelectNext w.toKernel).2 ≠ none ∧
    ∀ stackValid fault, rtosScheduleFromPendsv w.toKernel stackValid = .error fault →
      fault.reason ≠ .kernelInvariant := by
  have hk := reached_invariant h
  have hinit := hk.sound.initialized hrun
  refine ⟨hk.sound.running_current, hk.sound.switch_pended, hk.sound.blocked_iff,
    hk.sound.wait_object, hk.sound.wait_buffer, ?_, hk.sound.idle_runs hinit,
    idle_effectivePriority hk hinit, select_next hk hinit, ?_⟩
  · intro t ht hstate ops w' hops
    have hterminated : Terminated w'.toKernel t :=
      run_kernel (I := fun k => Terminated k t)
        (fun _ _ hk' ht' hstep => ht'.step hk'.sound hstep) h ⟨hrun, ht, hstate⟩ hops
    exact hterminated.state
  · intro stackValid fault hfault
    rw [(schedule_fault hk hinit hfault).2]
    simp

/-- Task 2 sleeps on the queue and task 1 has returned from its function. -/
theorem kernel_structurally_sound_demo :
    let w := demoRun (demoBoot ++ [.call .thread (.queueReceive (some 2) (some 7) 5),
      .pendSV true, .taskReturn])
    (w.tcb 1).state = .terminated ∧ (w.tcb 2).state = .blocked ∧ w.running = true ∧
      (∀ t ∈ w.tasks, (w.tcb t).state = .running → w.currentTask = some t) ∧
      ∀ c, w.currentTask = some c → (w.tcb c).state ≠ .running → w.pended = true :=
  ⟨by decide, by decide, by decide,
    (kernel_structurally_sound (demoRun_reached _) (by decide)).1,
    (kernel_structurally_sound (demoRun_reached _) (by decide)).2.1⟩

end Stm32f411.StructuralSafety
