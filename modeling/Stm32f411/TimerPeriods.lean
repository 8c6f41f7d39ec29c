import Stm32f411.Deadlines
import Stm32f411.KernelTimer

/-!
The clock cycles of the timer, its periods and its interrupts, counted over a run.
-/

namespace Stm32f411.TimerPeriods

open Stm32f411.LabelledRuns
open Stm32f411.WrappingClock
open Stm32f411.RtosTypes
open Stm32f411.RtosKernel
open Stm32f411.Deadlines
open Stm32f411.SysTickSetup
open Stm32f411.TimedKernel
open Stm32f411.KernelTimer

variable {τ ι : Type} {b b' b'' : TimedWorld τ ι} {prompt : Prop}

/-- The timer counts, and interrupts at the end of each period. -/
structure Ticking (s : SysTickState) : Prop where
  enabled : s.ctrl &&& systickCtrlEnable ≠ 0
  interrupts : s.ctrl &&& systickCtrlTickint ≠ 0
  load_ne : s.load.toNat ≠ 0
  val_le : s.val.toNat ≤ s.load.toNat

/-- The end of a period does not run into an interrupt that is still to come. -/
def OnTime (b : TimedWorld τ ι) (op : TimedOp τ ι) : Prop :=
  isCycle op = true → b.timer.val = 1 → b.pendSt = false

def setsTimer : TimedOp τ ι → Bool
  | .systick _ _ => true
  | _ => false

theorem cyclesIn_snoc (ops : List (TimedOp τ ι)) (op : TimedOp τ ι) :
    cyclesIn (ops ++ [op]) = cyclesIn ops + (if isCycle op then 1 else 0) := by
  rw [cyclesIn, List.countP_append, List.countP_singleton]
  rfl

/-- The books of a run: its cycles against the periods that end in it, and these against
its interrupts. -/
structure Counted (prompt : Prop) (b b' : TimedWorld τ ι) (cycles interrupts : Nat) : Prop where
  ticking : Ticking b'.timer
  load : b'.timer.load = b.timer.load
  books : ∃ ended, b'.phase + ended * b.period = b.phase + cycles ∧
    interrupts + b'.due ≤ ended + b.due ∧ (prompt → interrupts + b'.due = ended + b.due)

theorem Counted.trans {cycles cycles' interrupts interrupts' : Nat}
    (h : Counted prompt b b' cycles interrupts) (h' : Counted prompt b' b'' cycles' interrupts') :
    Counted prompt b b'' (cycles + cycles') (interrupts + interrupts') := by
  obtain ⟨ended, hphase, hle, heq⟩ := h.books
  obtain ⟨ended', hphase', hle', heq'⟩ := h'.books
  refine ⟨h'.ticking, h'.load.trans h.load, ended + ended', ?_, by omega, fun hprompt => ?_⟩
  · have hperiod : b'.period = b.period := by rw [TimedWorld.period, h.load, TimedWorld.period]
    rw [hperiod] at hphase'
    rw [Nat.add_mul]
    omega
  · have hfirst := heq hprompt
    have hlast := heq' hprompt
    omega

/-- A step that leaves the timer and its pending bit alone. -/
theorem Counted.idle (hticking : Ticking b.timer) (hctrl : b'.timer.ctrl = b.timer.ctrl)
    (hload : b'.timer.load = b.timer.load) (hval : b'.timer.val = b.timer.val)
    (hpend : b'.pendSt = b.pendSt) : Counted prompt b b' 0 0 := by
  have hdue : b'.due = b.due := by rw [TimedWorld.due, hpend, TimedWorld.due]
  refine ⟨⟨?_, ?_, ?_, ?_⟩, hload, 0, ?_, by omega, fun _ => by omega⟩
  · rw [hctrl]
    exact hticking.enabled
  · rw [hctrl]
    exact hticking.interrupts
  · rw [hload]
    exact hticking.load_ne
  · rw [hload, hval]
    exact hticking.val_le
  · simp [TimedWorld.phase, hload, hval]

theorem val_eq_one_iff {v : Word} : v.toNat = 1 ↔ v = 1 := by
  rw [← BitVec.toNat_inj]
  rfl

/-- A cycle. -/
theorem Counted.cycle (hticking : Ticking b.timer) (honTime : prompt → OnTime b .cycle)
    (htimer : b'.timer = (TimedKernel.cycle b.timer).1)
    (hpend : b'.pendSt = (b.pendSt || (TimedKernel.cycle b.timer).2)) :
    Counted prompt b b' 1 0 := by
  have hcount := phase_countDown hticking.load_ne hticking.val_le
  have hle := countDown_le hticking.val_le
  have hval : (BitVec.ofNat 32 (countDown b.timer.load.toNat b.timer.val.toNat)).toNat =
      countDown b.timer.load.toNat b.timer.val.toNat :=
    Nat.mod_eq_of_lt (Nat.lt_of_le_of_lt hle b.timer.load.isLt)
  rw [TimedKernel.cycle, if_neg hticking.enabled] at htimer hpend
  dsimp only at htimer hpend
  refine ⟨?_, by rw [htimer], if b.timer.val = 1 then 1 else 0, ?_, ?_, fun hprompt => ?_⟩
  · rw [htimer]
    exact ⟨hticking.enabled, hticking.interrupts, hticking.load_ne, hval.symm ▸ hle⟩
  · have hphase : b'.phase = WrappingClock.phase b.timer.load.toNat
        (countDown b.timer.load.toNat b.timer.val.toNat) := by
      rw [TimedWorld.phase, htimer, hval]
    rw [hphase, TimedWorld.phase, TimedWorld.period]
    simp only [val_eq_one_iff] at hcount
    split
    · next hlast =>
        rw [if_pos hlast] at hcount
        omega
    · next hlast =>
        rw [if_neg hlast] at hcount
        omega
  · rw [TimedWorld.due, TimedWorld.due, hpend]
    split <;> split <;> simp_all
  · have hclear := honTime hprompt rfl
    rw [TimedWorld.due, TimedWorld.due, hpend]
    by_cases hlast : b.timer.val = 1
    · simp [hlast, hclear hlast]
    · rw [decide_eq_false hlast, Bool.or_false, if_neg hlast]

theorem startFirst_timer [DecidableEq τ] (h : b.startFirst.2 = .ok) :
    b.startFirst.1.world.running = true ∧ ∃ ticks,
      b.startFirst.1.timer = systickStartInternal { b.timer with ticks := ticks } := by
  revert h
  unfold TimedWorld.startFirst
  rcases rtosSelectNext b.world.toKernel with ⟨k', _ | first⟩
  · intro h
    exact absurd h (show Status.errState ≠ Status.ok by decide)
  · exact fun _ => ⟨rfl, _, rfl⟩

/-- A start programs the rate of the configuration, if a tick takes two cycles or more. -/
theorem start_ticking [DecidableEq τ] {hclk : Word} (h : (b.rtosStart hclk).2 = .ok)
    (hslow : 2 * b.world.config.tickHz.toNat ≤ hclk.toNat) :
    Ticking (b.rtosStart hclk).1.timer ∧ (b.rtosStart hclk).1.world.running = true ∧
      (b.rtosStart hclk).1.period = hclk.toNat / b.world.config.tickHz.toNat := by
  unfold TimedWorld.rtosStart at h ⊢
  split at h
  · simp at h
  · next hstate =>
      rw [if_neg hstate]
      dsimp only at h ⊢
      split at h
      · simp at h
      · next hregistered =>
          rw [if_neg hregistered]
          by_cases haccepted : Accepted hclk ⟨.ahb, b.world.config.tickHz⟩
          · rw [configureStopped_accepted haccepted, if_neg (not_not.mpr rfl)] at h ⊢
            obtain ⟨hload, _⟩ := period_programmed (s := b.timer) haccepted
            have hperiod := hload.mpr hslow
            obtain ⟨hrunning, ticks, htimer⟩ := startFirst_timer h
            have hset : Programmed hclk ⟨.ahb, b.world.config.tickHz⟩ True
                (systickStartInternal (programmed hclk ⟨.ahb, b.world.config.tickHz⟩ b.timer)) :=
              programmed_started
            rw [TimedWorld.period, htimer]
            unfold period at hperiod
            split at hperiod
            · simp at hperiod
            · next hne =>
                refine ⟨⟨hset.running.mpr trivial, hset.interrupts.mpr trivial,
                  fun hzero => hne ?_, Nat.zero_le _⟩, hrunning, ?_⟩
                · exact BitVec.eq_of_toNat_eq hzero
                · exact Option.some.inj hperiod
          · rw [configureStopped_refused haccepted] at h
            simp at h

section Steps

variable [DecidableEq τ] [DecidableEq ι] {P : Platform τ} {self : τ}

/-- A step in which nobody sets the timer up again. It is on time, if it has to be. -/
structure TimerSteps (P : Platform τ) (prompt : Prop) (b : TimedWorld τ ι) (op : TimedOp τ ι)
    (b' : TimedWorld τ ι) : Prop where
  step : TimedSteps P b op b'
  keepsTimer : setsTimer op = false
  onTime : prompt → OnTime b op

/-- One in which nobody serves the wait of `t` either. -/
structure WaitSteps (P : Platform τ) (t : τ) (prompt : Prop) (b : TimedWorld τ ι)
    (op : TimedOp τ ι) (b' : TimedWorld τ ι) : Prop extends TimerSteps P prompt b op b' where
  unserved : ¬((b.world.tcb t).state = .blocked ∧ (b'.world.tcb t).state = .ready ∧
    (b'.world.tcb t).waitResult = .ok)

theorem timerStep_counted {op : TimedOp τ ι} (hrun : b.world.running = true)
    (hticking : Ticking b.timer) (h : TimerSteps P prompt b op b') :
    Counted prompt b b' (if isCycle op then 1 else 0) (if isInterrupt op then 1 else 0) := by
  obtain ⟨⟨hstep, hcalm⟩, hkeeps, honTime⟩ := h
  cases op with
  | kernel op =>
      simp only [timedStep] at hstep
      split at hstep
      · obtain ⟨w', _, rfl⟩ := Option.map_eq_some_iff.mp hstep
        exact .idle hticking rfl rfl rfl rfl
      · simp at hstep
  | start hclk =>
      obtain rfl := Option.some.inj hstep
      rw [TimedWorld.rtosStart, if_pos (Or.inr (Or.inl hrun))]
      exact .idle hticking rfl rfl rfl rfl
  | systick hclk call => simp [setsTimer] at hkeeps
  | registerHook hook =>
      obtain rfl := Option.some.inj hstep
      exact .idle hticking rfl rfl rfl rfl
  | cycle =>
      obtain rfl := Option.some.inj hstep
      refine .cycle hticking honTime rfl ?_
      change (b.pendSt || _) = _
      rw [decide_eq_true hticking.interrupts, Bool.and_true]
  | interrupt =>
      simp only [timedStep] at hstep
      split at hstep
      · next hpend =>
          obtain rfl := Option.some.inj hstep
          have hdue : b.due = 1 := if_pos hpend
          have hserved : b.systickHandler.due = 0 := rfl
          have hphase : b.systickHandler.phase = b.phase := rfl
          refine ⟨⟨hticking.enabled, hticking.interrupts, hticking.load_ne, hticking.val_le⟩,
            rfl, 0, ?_, ?_, fun _ => ?_⟩
          · simp [isCycle, hphase]
          · simp [isInterrupt, hdue, hserved]
          · simp [isInterrupt, hdue, hserved]
      · simp at hstep

theorem timer_counted {ops : List (TimedOp τ ι)} (hrun : b.world.running = true)
    (hticking : Ticking b.timer) (h : Run (TimerSteps P prompt) b ops b') :
    b'.world.running = true ∧ Counted prompt b b' (cyclesIn ops) (interruptsIn ops) := by
  induction h with
  | nil => exact ⟨hrun, .idle hticking rfl rfl rfl rfl⟩
  | @snoc ops c c' op hrest hlast ih =>
      obtain ⟨hrunning, hcounted⟩ := ih
      refine ⟨(timedStep_tick hrunning hlast.step).1, ?_⟩
      rw [cyclesIn_snoc, interruptsIn_snoc]
      exact hcounted.trans (timerStep_counted hrunning hcounted.ticking hlast)

theorem interrupt_world {op : TimedOp τ ι} (hop : isInterrupt op = true)
    (hhook : b.hook = some .rtosTickIsr) (h : timedStep P b op = some b') :
    b'.world = { b.world with toKernel := sysTickHandler b.world.toKernel } := by
  cases op with
  | interrupt =>
      simp only [timedStep] at h
      split at h
      · obtain rfl := Option.some.inj h
        exact handler_world b hhook
      · simp at h
  | kernel op => simp [isInterrupt] at hop
  | start hclk => simp [isInterrupt] at hop
  | systick hclk call => simp [isInterrupt] at hop
  | registerHook hook => simp [isInterrupt] at hop
  | cycle => simp [isInterrupt] at hop

/-- The kernel's own system takes the same steps, with a tick for each interrupt. -/
theorem waitStep_world {op : TimedOp τ ι} (hrun : b.world.running = true)
    (hhook : b.hook = some .rtosTickIsr) (h : WaitSteps P self prompt b op b') :
    ∃ ops, Run (UnservedSteps P self) b.world ops b'.world ∧
      ticksIn ops = (if isInterrupt op then 1 else 0) := by
  obtain ⟨⟨⟨hstep, hcalm⟩, hkeeps, _⟩, hunserved⟩ := h
  have hsame : b'.world = b.world → isInterrupt op = false →
      ∃ ops, Run (UnservedSteps P self) b.world ops b'.world ∧
        ticksIn ops = (if isInterrupt op then 1 else 0) := by
    intro hworld hinterrupt
    rw [hworld, hinterrupt]
    exact ⟨[], .nil, rfl⟩
  cases op with
  | kernel op =>
      simp only [timedStep] at hstep
      split at hstep
      · next hop =>
          obtain ⟨w', hw', rfl⟩ := Option.map_eq_some_iff.mp hstep
          refine ⟨[op], .single ⟨hw', hunserved⟩, ?_⟩
          cases op <;> first | rfl | simp [IsKernelOp] at hop
      · simp at hstep
  | start hclk =>
      obtain rfl := Option.some.inj hstep
      rw [TimedWorld.rtosStart, if_pos (Or.inr (Or.inl hrun))] at hsame ⊢
      exact hsame rfl rfl
  | systick hclk call => simp [setsTimer] at hkeeps
  | registerHook hook =>
      obtain rfl := Option.some.inj hstep
      exact hsame rfl rfl
  | cycle =>
      obtain rfl := Option.some.inj hstep
      refine hsame ?_ rfl
      have hticks : (TimedKernel.cycle b.timer).1.ticks = b.timer.ticks := by
        unfold TimedKernel.cycle
        split <;> rfl
      exact withTimer_world (hticks.trans b.shared)
  | interrupt =>
      refine ⟨[.tick], .single ⟨?_, hunserved⟩, rfl⟩
      rw [interrupt_world rfl hhook hstep]
      rfl

theorem wait_world {ops : List (TimedOp τ ι)} (h : Reachable (TimedSteps P) TimedReset b)
    (hrun : b.world.running = true) (hops : Run (WaitSteps P self prompt) b ops b') :
    ∃ ops', Run (UnservedSteps P self) b.world ops' b'.world ∧
      ticksIn ops' = interruptsIn ops := by
  induction hops with
  | nil => exact ⟨[], .nil, rfl⟩
  | @snoc ops c c' op hrest hlast ih =>
      obtain ⟨ops', hops', hticks⟩ := ih
      have hrunning : c.world.running = true :=
        hrest.preserves (I := fun b => b.world.running = true)
          (fun _ _ _ hrun h => (timedStep_tick hrun h.step).1) hrun
      have hc := (timed_reached (h.run (hrest.mono fun _ _ _ h => h.step))).2
      obtain ⟨later, hlater, hone⟩ := waitStep_world hrunning (hc.hook hrunning) hlast
      refine ⟨ops' ++ later, hops'.append hlater, ?_⟩
      rw [interruptsIn_snoc, ← hone, ← hticks, ticksIn, List.countP_append]
      rfl

end Steps

end Stm32f411.TimerPeriods
