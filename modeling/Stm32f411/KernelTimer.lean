import Stm32f411.PriorityInheritance
import Stm32f411.TimedKernel

/-!
What the timer makes of the kernel: a run of the board is a run of the kernel's own system,
with the interrupts of the timer for ticks.
-/

namespace Stm32f411.KernelTimer

open Stm32f411.LabelledRuns
open Stm32f411.WrappingClock
open Stm32f411.RtosTypes
open Stm32f411.RtosKernel
open Stm32f411.RtosSystem
open Stm32f411.RtosKernelSpec
open Stm32f411.SysTickSetup
open Stm32f411.TimedKernel

variable {τ ι : Type} {b b' : TimedWorld τ ι} {timer : SysTickState}

theorem interruptsIn_snoc (ops : List (TimedOp τ ι)) (op : TimedOp τ ι) :
    interruptsIn (ops ++ [op]) = interruptsIn ops + (if isInterrupt op then 1 else 0) := by
  rw [interruptsIn, List.countP_append, List.countP_singleton]
  rfl

variable [DecidableEq τ]

/-- Once the kernel runs, the timer is its own. -/
structure Hooked (b : TimedWorld τ ι) : Prop where
  hook : b.world.running = true → b.hook = some .rtosTickIsr
  initialized : b.world.running = true → b.timer.initialized = true

/-- What a start does to the driver: nothing, but for a registered hook and a configured
timer on its way to success. -/
theorem start_hooked (hclk : Word) (h : Hooked b) : Hooked (b.rtosStart hclk).1 := by
  unfold TimedWorld.rtosStart
  split
  · exact h
  · next hstate =>
      have hstopped : b.world.running ≠ true := fun hrun => hstate (Or.inr (Or.inl hrun))
      dsimp only
      split
      · exact ⟨fun hrun => absurd hrun hstopped, fun hrun => absurd hrun hstopped⟩
      · next hregistered =>
          rw [not_not] at hregistered
          have hhook : (systickRegisterKernelHook b.hook (some .rtosTickIsr)).1 =
              some .rtosTickIsr := by
            unfold systickRegisterKernelHook at hregistered ⊢
            split at hregistered
            · exact absurd hregistered (show (-1 : Int) ≠ 0 by decide)
            · next hfree => rw [if_neg hfree]
          split
          · exact ⟨fun hrun => absurd hrun hstopped, fun hrun => absurd hrun hstopped⟩
          · next hconfigured =>
              rw [not_not] at hconfigured
              have haccepted : Accepted hclk ⟨.ahb, b.world.config.tickHz⟩ := by
                by_contra hrefused
                rw [configureStopped_refused hrefused] at hconfigured
                exact absurd hconfigured (show (-1 : Int) ≠ 0 by decide)
              rw [configureStopped_accepted haccepted]
              unfold TimedWorld.startFirst
              split
              · exact ⟨fun _ => hhook, fun _ => rfl⟩
              · exact ⟨fun _ => hhook, fun _ => rfl⟩

variable [DecidableEq ι] {P : Platform τ}

/-- Ticks that the kernel does not see bring the counter to any value. -/
theorem reached_setTick {w : World τ ι} (h : Reached P w) (hstopped : w.running = false)
    (v : Word) : Reached P { w with tick := v } := by
  have hlater : ∀ n, Reached P { w with tick := w.tick + BitVec.ofNat 32 n } := by
    intro n
    induction n with
    | zero => simpa using h
    | succ n ih =>
        have hnext : Steps (step P) { w with tick := w.tick + BitVec.ofNat 32 n } .tick
            { w with tick := w.tick + BitVec.ofNat 32 (n + 1) } := by
          rw [Steps, step, sysTickHandler_stopped (by exact hstopped), BitVec.ofNat_add,
            ← BitVec.add_assoc]
          rfl
        exact ih.step hnext
  have hdistance : w.tick + BitVec.ofNat 32 (v - w.tick).toNat = v := by
    rw [BitVec.ofNat_toNat, BitVec.setWidth_eq]
    exact add_sub_cancel w.tick v
  rw [← hdistance]
  exact hlater _

/-- The simulation: every step of the board is a few steps of the kernel's own system. -/
theorem timedStep_reached {op : TimedOp τ ι} (hs : Reached P b.world) (hhooked : Hooked b)
    (h : TimedSteps P b op b') : Reached P b'.world ∧ Hooked b' := by
  obtain ⟨hstep, hcalm⟩ := h
  cases op with
  | kernel op =>
      simp only [timedStep] at hstep
      split at hstep
      · next hop =>
          obtain ⟨w', hw', rfl⟩ := Option.map_eq_some_iff.mp hstep
          have hrunning : w'.running = b.world.running := (kernelOp_frame hop hw').1
          refine ⟨hs.step hw', fun hrun => ?_, fun hrun => ?_⟩
          · exact hhooked.hook (hrunning ▸ hrun)
          · exact hhooked.initialized (hrunning ▸ hrun)
      · simp at hstep
  | start hclk =>
      obtain rfl := Option.some.inj hstep
      refine ⟨?_, start_hooked hclk hhooked⟩
      obtain ⟨hookRegistered, tickConfigured, hworld⟩ := start_world b hclk
      rw [hworld]
      have hkernel : Steps (step P) b.world (.start hookRegistered tickConfigured)
          { b.world with
            toKernel := (rtosStart b.world.toKernel hookRegistered tickConfigured).1 } := rfl
      exact hs.step hkernel
  | systick hclk call =>
      obtain rfl := Option.some.inj hstep
      cases hrun : b.world.running with
      | false =>
          exact ⟨reached_setTick hs hrun _, fun h => absurd (hrun.symm.trans h) (by simp),
            fun h => absurd (hrun.symm.trans h) (by simp)⟩
      | true =>
          obtain rfl := updateFreq_of_undisturbed hrun hcalm
          obtain ⟨hticks, hinitialized⟩ := updateFreq_frame hclk b.timer
          refine ⟨?_, fun _ => hhooked.hook hrun, fun _ => ?_⟩
          · have hsame := withTimer_world (hticks.trans b.shared)
            exact hsame ▸ hs
          · exact hinitialized.trans (hhooked.initialized hrun)
  | registerHook hook =>
      obtain rfl := Option.some.inj hstep
      refine ⟨hs, fun hrun => ?_, hhooked.initialized⟩
      change (systickRegisterKernelHook b.hook hook).1 = some .rtosTickIsr
      unfold systickRegisterKernelHook
      split
      · exact hhooked.hook hrun
      · next hfree =>
          simp only [hhooked.hook hrun, not_or, not_and, not_not] at hfree
          exact (hfree.2 (by simp)).symm
  | cycle =>
      obtain rfl := Option.some.inj hstep
      have hcycle : (cycle b.timer).1.ticks = b.timer.ticks ∧
          (cycle b.timer).1.initialized = b.timer.initialized := by
        unfold cycle
        split
        · exact ⟨rfl, rfl⟩
        · exact ⟨rfl, rfl⟩
      refine ⟨?_, hhooked.hook, fun hrun => ?_⟩
      · have hsame := withTimer_world (hcycle.1.trans b.shared)
        exact hsame ▸ hs
      · exact hcycle.2.trans (hhooked.initialized hrun)
  | interrupt =>
      simp only [timedStep] at hstep
      split at hstep
      · obtain rfl := Option.some.inj hstep
        have hrunning := (handler_frame b).1
        refine ⟨?_, fun hrun => hhooked.hook (hrunning ▸ hrun),
          fun hrun => hhooked.initialized (hrunning ▸ hrun)⟩
        by_cases hhook : b.hook = some .rtosTickIsr
        · rw [handler_world b hhook]
          have htick : Steps (step P) b.world .tick
              { b.world with toKernel := sysTickHandler b.world.toKernel } := rfl
          exact hs.step htick
        · -- the kernel does not run, and its clock may have any value
          rw [handler_unhooked b hhook]
          refine reached_setTick hs ?_ _
          cases hrun : b.world.running with
          | false => rfl
          | true => exact absurd (hhooked.hook hrun) hhook
      · simp at hstep

theorem timed_reached (h : Reachable (TimedSteps P) TimedReset b) :
    Reached P b.world ∧ Hooked b := by
  refine h.invariant (I := fun b => Reached P b.world ∧ Hooked b) ?_
    fun b op b' _ hb hstep => timedStep_reached hb.1 hb.2 hstep
  intro b hb
  refine ⟨.initial hb.world, fun hrun => ?_, fun hrun => ?_⟩
  · simp [hb.world.running] at hrun
  · simp [hb.world.running] at hrun

/-- While the kernel runs its clock counts the interrupts of the timer. -/
theorem timedStep_tick {op : TimedOp τ ι} (hrun : b.world.running = true)
    (h : TimedSteps P b op b') : b'.world.running = true ∧
      b'.world.tick = b.world.tick + (if isInterrupt op then 1 else 0) := by
  obtain ⟨hstep, hcalm⟩ := h
  cases op with
  | kernel op =>
      simp only [timedStep] at hstep
      split at hstep
      · next hop =>
          obtain ⟨w', hw', rfl⟩ := Option.map_eq_some_iff.mp hstep
          obtain ⟨hrunning, htick⟩ := kernelOp_frame hop hw'
          refine ⟨hrunning.trans hrun, ?_⟩
          refine Eq.trans htick ?_
          simp [isInterrupt]
      · simp at hstep
  | start hclk =>
      obtain rfl := Option.some.inj hstep
      rw [TimedWorld.rtosStart, if_pos (Or.inr (Or.inl hrun))]
      exact ⟨hrun, by simp [isInterrupt]⟩
  | systick hclk call =>
      obtain rfl := Option.some.inj hstep
      obtain rfl := updateFreq_of_undisturbed hrun hcalm
      have hticks := (updateFreq_frame hclk b.timer).1.trans b.shared
      refine ⟨hrun, Eq.trans hticks ?_⟩
      simp [isInterrupt]
  | registerHook hook =>
      obtain rfl := Option.some.inj hstep
      exact ⟨hrun, by simp [isInterrupt]⟩
  | cycle =>
      obtain rfl := Option.some.inj hstep
      refine ⟨hrun, ?_⟩
      have hticks : (cycle b.timer).1.ticks = b.timer.ticks := by
        unfold cycle
        split <;> rfl
      refine Eq.trans (hticks.trans b.shared) ?_
      simp [isInterrupt]
  | interrupt =>
      simp only [timedStep] at hstep
      split at hstep
      · obtain rfl := Option.some.inj hstep
        obtain ⟨hrunning, htick⟩ := handler_frame b
        exact ⟨hrunning.trans hrun, by simpa [isInterrupt] using htick⟩
      · simp at hstep

/-- On the timer the kernel runs as its own system does, with the interrupts of the timer for
ticks: the hook is not taken away, and the clock counts every interrupt since the start. -/
theorem timer_drives_kernel (h : Reachable (TimedSteps P) TimedReset b) :
    Reached P b.world ∧ (b.world.running = true → b.hook = some .rtosTickIsr ∧
      ∀ ops b', Run (TimedSteps P) b ops b' →
        b'.hook = some .rtosTickIsr ∧ b'.world.tick = after b.world.tick (interruptsIn ops)) := by
  obtain ⟨hreached, hhooked⟩ := timed_reached h
  refine ⟨hreached, fun hrun => ⟨hhooked.hook hrun, fun ops b' hops => ?_⟩⟩
  have hticks : b'.world.running = true ∧
      b'.world.tick = after b.world.tick (interruptsIn ops) := by
    induction hops with
    | nil => exact ⟨hrun, (after_zero _).symm⟩
    | @snoc ops c c' op hrest hlast ih =>
        obtain ⟨hrunning, htick⟩ := timedStep_tick ih.1 hlast
        refine ⟨hrunning, ?_⟩
        rw [htick, ih.2, interruptsIn_snoc]
        split
        · rw [after_succ]
        · simp
  exact ⟨(timed_reached (h.run hops)).2.hook hticks.1, hticks.2⟩

def demoTimer : SysTickState := ⟨0, false, 0, 0, 0, ⟨.ahbDiv8, 0⟩, false⟩

def demoTimedReset : TimedWorld Nat Nat := ⟨demoReset, demoTimer, rfl, none, false⟩

/-- The boot of `demoBoot` at four cycles a tick. -/
def demoTimedBoot : List (TimedOp Nat Nat) :=
  demoBoot.dropLast.map .kernel ++ [.start 4000]

/-- The steps, as long as nobody disturbs the timer. -/
def calmStep (P : Platform τ) (b : TimedWorld τ ι) (op : TimedOp τ ι) :
    Option (TimedWorld τ ι) :=
  if Undisturbed b op then timedStep P b op else none

def demoTimedRun (ops : List (TimedOp Nat Nat)) : TimedWorld Nat Nat :=
  (exec (calmStep demoPlatform) demoTimedReset ops).getD demoTimedReset

theorem calmStep_timed {op : TimedOp τ ι} (h : Steps (calmStep P) b op b') :
    TimedSteps P b op b' := by
  unfold Steps calmStep at h
  split at h
  · next hcalm => exact ⟨h, hcalm⟩
  · simp at h

theorem demoTimedRun_reached (ops : List (TimedOp Nat Nat))
    (hrun : (exec (calmStep demoPlatform) demoTimedReset ops).isSome = true) :
    Reachable (TimedSteps demoPlatform) TimedReset (demoTimedRun ops) := by
  refine ⟨demoTimedReset, ops, ⟨demoReset_reset, rfl, rfl, rfl, rfl⟩, ?_⟩
  exact (exec_run hrun).mono fun _ _ _ => calmStep_timed

theorem demoTimedRun_run (l₁ l₂ : List (TimedOp Nat Nat))
    (hrun : (exec (calmStep demoPlatform) demoTimedReset (l₁ ++ l₂)).isSome = true) :
    Run (TimedSteps demoPlatform) (demoTimedRun l₁) l₂ (demoTimedRun (l₁ ++ l₂)) :=
  (exec_run_append hrun).mono fun _ _ _ => calmStep_timed

/-- Another hook, which is refused, and one period of the timer. -/
def demoPeriod : List (TimedOp Nat Nat) :=
  [.registerHook (some (.other 0)), .cycle, .cycle, .cycle, .cycle, .interrupt]

theorem timer_drives_kernel_demo :
    (demoTimedRun (demoTimedBoot ++ demoPeriod)).hook = some .rtosTickIsr ∧
      (demoTimedRun (demoTimedBoot ++ demoPeriod)).world.tick = 1 := by
  obtain ⟨_, hruns⟩ := timer_drives_kernel (demoTimedRun_reached demoTimedBoot (by decide))
  obtain ⟨_, hlater⟩ := hruns (by decide)
  obtain ⟨hhook, htick⟩ := hlater _ _ (demoTimedRun_run demoTimedBoot demoPeriod (by decide))
  exact ⟨hhook, htick⟩

end Stm32f411.KernelTimer
