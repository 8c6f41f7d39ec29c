import Stm32f411.TimerPeriods

/-!
Delays and timed waits in cycles of the clock.
-/

namespace Stm32f411.TimedDelays

open Stm32f411.LabelledRuns
open Stm32f411.WrappingClock
open Stm32f411.RtosTypes
open Stm32f411.RtosSystem
open Stm32f411.KernelSoundness
open Stm32f411.Deadlines
open Stm32f411.TimedKernel
open Stm32f411.KernelTimer
open Stm32f411.TimerPeriods

variable {τ ι : Type} {b b' b'' : TimedWorld τ ι} {prompt : Prop}

variable [DecidableEq τ] [DecidableEq ι] {P : Platform τ} {self : τ} {call : Call ι}
  {delay : Word}

/-- A call that goes to sleep for `delay` ticks. -/
structure FallsAsleep (P : Platform τ) (b : TimedWorld τ ι) (t : τ) (call : Call ι)
    (delay : Word) (b' : TimedWorld τ ι) : Prop where
  current : b.world.currentTask = some t
  timeout : callTimeout call = some delay
  bounded : delay ≠ rtosWaitForever
  called : timedStep P b (.kernel (.call .thread call)) = some b'
  sleeps : Sleeps b'.world t call delay

theorem FallsAsleep.asleep (h : FallsAsleep P b self call delay b') (hb : Reached P b.world) :
    Asleep b'.world.toKernel self (sleepState call) b.world.tick delay 0 ∧
      delay ≤ int32Max ∧ 0 < delay.toNat ∧ b'.timer = b.timer ∧ b'.pendSt = b.pendSt := by
  have hcalled : (step P b.world (.call .thread call)).map b.withWorld = some b' := h.called
  obtain ⟨w', hw', rfl⟩ := Option.map_eq_some_iff.mp hcalled
  obtain ⟨hasleep, hundue⟩ := asleep_of_call hb h.current h.timeout hw' h.sleeps
  have htick : w'.tick = b.world.tick := (kernelOp_frame rfl hw').2
  obtain ⟨hmax, hpos⟩ := hundue.resolve_left h.bounded
  refine ⟨hasleep, hmax, hpos, ?_, rfl⟩
  change { b.timer with ticks := w'.tick } = b.timer
  rw [htick, ← b.shared]

/-- The bounds of a wait, by the books of the run. -/
theorem wait_bounds (h : Reachable (TimedSteps P) TimedReset b)
    (hsleep : FallsAsleep P b self call delay b') (hticking : Ticking b'.timer) :
    (∀ ops b'', Run (WaitSteps P self False) b' ops b'' →
      (b''.world.tcb self).state ≠ sleepState call →
        (delay.toNat - b'.due) * b'.period < cyclesIn ops + b'.period) ∧
      ∀ ops b'', Run (WaitSteps P self True) b' ops b'' →
        (delay.toNat + b''.due) * b'.period ≤ cyclesIn ops →
          ∃ before after woken, ops = before ++ after ∧
            Run (WaitSteps P self True) b' before woken ∧
              (woken.world.tcb self).state = .ready := by
  obtain ⟨hasleep, hmax, hpos, htimer, hpend⟩ := hsleep.asleep (timed_reached h).1
  have hb' : Reachable (TimedSteps P) TimedReset b' := h.step ⟨hsleep.called, trivial⟩
  have hreached := (timed_reached hb').1
  have hrun := hasleep.running
  have hphase : b'.phase ≤ b'.timer.load.toNat := phase_le hticking.val_le
  refine ⟨fun ops b'' hops hawake => ?_, fun ops b'' hops hlong => ?_⟩
  · obtain ⟨ops', hops', hticks⟩ := wait_world hb' hrun hops
    have hmany : delay.toNat ≤ interruptsIn ops := by
      by_contra hfew
      have hundue : Undue delay (ticksIn ops') := Or.inr ⟨hmax, by omega⟩
      exact hawake (hasleep.run hreached hops' hundue).2.state_eq
    obtain ⟨_, hcounted⟩ :=
      timer_counted hrun hticking (hops.mono fun _ _ _ h => h.toTimerSteps)
    obtain ⟨ended, hcycles, hbooks, _⟩ := hcounted.books
    have hended : (delay.toNat - b'.due) * b'.period ≤ ended * b'.period :=
      Nat.mul_le_mul_right _ (by omega)
    have hperiod : b'.period = b'.timer.load.toNat + 1 := rfl
    omega
  · obtain ⟨_, hcounted⟩ :=
      timer_counted hrun hticking (hops.mono fun _ _ _ h => h.toTimerSteps)
    obtain ⟨ended, hcycles, _, hbooks⟩ := hcounted.books
    have hlate := phase_le hcounted.ticking.val_le
    have hended : delay.toNat + b''.due ≤ ended := by
      have hlt : (delay.toNat + b''.due) * b'.period < (ended + 1) * b'.period := by
        have hperiod : b''.phase < b'.period := by
          rw [TimedWorld.period, ← hcounted.load]
          exact Nat.lt_succ_of_le hlate
        rw [Nat.succ_mul]
        omega
      exact Nat.le_of_lt_succ (Nat.lt_of_mul_lt_mul_right hlt)
    have hmany : delay.toNat - 1 < interruptsIn ops := by
      have := hbooks trivial
      omega
    obtain ⟨before, op, after, c, c', rfl, hop, hcount, hbefore, hlast, hafter⟩ := hops.cut hmany
    refine ⟨before ++ [op], after, c', by simp, .snoc hbefore hlast, ?_⟩
    obtain ⟨ops', hops', hticks⟩ := wait_world hb' hrun hbefore
    obtain ⟨hc, hasleepc⟩ := hasleep.run hreached hops'
      (Or.inr ⟨hmax, by rw [hticks, interruptsIn, hcount]; omega⟩)
    have hhook := (timed_reached (hb'.run (hbefore.mono fun _ _ _ h => h.step))).2.hook
      hasleepc.running
    rw [interrupt_world hop hhook hlast.step.1]
    refine (hasleepc.due (reached_sound hc).nodup hmax ?_).1
    rw [hticks, interruptsIn, hcount]
    omega

/-- A wait in cycles of the clock, on a kernel started at `tick_hz` ticks a second on a clock
of `hclk` cycles. Before `delay - 1` periods are over the task sleeps, one period less if an
interrupt was to come when it went to sleep. If every interrupt is served before the next
one, it wakes within `delay` periods, or one more if the last is still to come. -/
theorem delay_cycles {b₀ : TimedWorld τ ι} {hclk : Word} {boot : List (TimedOp τ ι)}
    (h : Reachable (TimedSteps P) TimedReset b₀) (hstart : (b₀.rtosStart hclk).2 = .ok)
    (hslow : 2 * b₀.world.config.tickHz.toNat ≤ hclk.toNat)
    (hboot : Run (TimerSteps P False) (b₀.rtosStart hclk).1 boot b)
    (hsleep : FallsAsleep P b self call delay b') :
    let period := hclk.toNat / b₀.world.config.tickHz.toNat
    (∀ ops b'', Run (WaitSteps P self False) b' ops b'' →
      (b''.world.tcb self).state ≠ sleepState call →
        (delay.toNat - b'.due) * period < cyclesIn ops + period) ∧
      ∀ ops b'', Run (WaitSteps P self True) b' ops b'' →
        (delay.toNat + b''.due) * period ≤ cyclesIn ops →
          ∃ before after woken, ops = before ++ after ∧
            Run (WaitSteps P self True) b' before woken ∧
              (woken.world.tcb self).state = .ready := by
  intro period
  obtain ⟨hticking, hrun, hperiod⟩ := start_ticking hstart hslow
  have hcall : TimedSteps P b₀ (.start hclk) (b₀.rtosStart hclk).1 := ⟨rfl, trivial⟩
  have hstarted : Reachable (TimedSteps P) TimedReset (b₀.rtosStart hclk).1 := h.step hcall
  have hb := hstarted.run (hboot.mono fun _ _ _ h => h.step)
  obtain ⟨_, hcounted⟩ := timer_counted hrun hticking hboot
  obtain ⟨_, _, _, htimer, _⟩ := hsleep.asleep (timed_reached hb).1
  have hsame : b'.period = period := by
    refine Eq.trans ?_ hperiod
    rw [TimedWorld.period, htimer, hcounted.load, TimedWorld.period]
  rw [← hsame]
  exact wait_bounds hb hsleep (htimer ▸ hcounted.ticking)

/-- The steps of a wait, each on time. -/
def waitStep (P : Platform τ) (t : τ) (b : TimedWorld τ ι) (op : TimedOp τ ι) :
    Option (TimedWorld τ ι) :=
  (calmStep P b op).filter fun b' =>
    !setsTimer op && !(isCycle op && decide (b.timer.val = 1) && b.pendSt) &&
      !(decide ((b.world.tcb t).state = .blocked) && decide ((b'.world.tcb t).state = .ready) &&
        decide ((b'.world.tcb t).waitResult = .ok))

theorem waitStep_wait {op : TimedOp τ ι} (h : Steps (waitStep P self) b op b') :
    WaitSteps P self True b op b' := by
  obtain ⟨hstep, hguard⟩ := Option.filter_eq_some_iff.mp h
  simp only [Bool.and_eq_true, Bool.not_eq_true', Bool.and_eq_false_iff,
    decide_eq_false_iff_not] at hguard
  obtain ⟨⟨hkeeps, honTime⟩, hunserved⟩ := hguard
  refine ⟨⟨calmStep_timed hstep, hkeeps, fun _ hcycle hlast => ?_⟩, ?_⟩
  · simpa [hcycle, hlast] using honTime
  · rintro ⟨hblocked, hready, hok⟩
    simp [hblocked, hready, hok] at hunserved

/-- Two periods with their interrupts. -/
def demoTwoPeriods : List (TimedOp Nat Nat) :=
  [.cycle, .cycle, .cycle, .cycle, .interrupt, .cycle, .cycle, .cycle, .cycle, .interrupt]

/-- Task 2 wakes from a delay of two ticks within eight cycles. -/
theorem delay_cycles_demo :
    ∃ before after woken, demoTwoPeriods = before ++ after ∧
      Run (WaitSteps demoPlatform 2 True)
        (demoTimedRun (demoTimedBoot ++ [.kernel (.call .thread (.taskDelay 2))])) before woken ∧
        (woken.world.tcb 2).state = .ready := by
  have hcreated : Reachable (TimedSteps demoPlatform) TimedReset
      (demoTimedRun (demoBoot.dropLast.map .kernel)) := demoTimedRun_reached _ (by decide)
  have hcall : calmStep demoPlatform (demoTimedRun demoTimedBoot)
      (.kernel (.call .thread (.taskDelay 2))) = some _ := exec_step (by decide)
  have hsleep : FallsAsleep demoPlatform (demoTimedRun demoTimedBoot) 2 (.taskDelay 2) 2
      (demoTimedRun (demoTimedBoot ++ [.kernel (.call .thread (.taskDelay 2))])) :=
    ⟨by decide, rfl, by decide, (calmStep_timed hcall).1, .inl ⟨rfl, by decide, by decide⟩⟩
  have hstart : ((demoTimedRun (demoBoot.dropLast.map .kernel)).rtosStart 4000).2 = .ok := by
    decide
  have hstarted : calmStep demoPlatform (demoTimedRun (demoBoot.dropLast.map .kernel))
      (.start 4000) = some (demoTimedRun demoTimedBoot) := exec_step (by decide)
  have hboot : Run (TimerSteps demoPlatform False)
      ((demoTimedRun (demoBoot.dropLast.map .kernel)).rtosStart 4000).1 []
      (demoTimedRun demoTimedBoot) := by
    rw [← Option.some.inj (calmStep_timed hstarted).1]
    exact .nil
  have hops : Run (Steps (waitStep demoPlatform 2))
      (demoTimedRun (demoTimedBoot ++ [.kernel (.call .thread (.taskDelay 2))]))
      demoTwoPeriods _ := exec_run (by decide)
  obtain ⟨_, hwakes⟩ := delay_cycles hcreated hstart (by decide) hboot hsleep
  exact hwakes _ _ (hops.mono fun _ _ _ => waitStep_wait) (by decide)

end Stm32f411.TimedDelays
