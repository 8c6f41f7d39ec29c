import Stm32f411.PriorityInheritance
import Stm32f411.WrappingClock

/-!
A sleeping task follows the tick counter: its deadline and the ticks that have passed
since it went to sleep say exactly when it wakes, also across the wrap of the counter.
-/

namespace Stm32f411.Deadlines

open Stm32f411.LabelledRuns
open Stm32f411.WrappingClock
open Stm32f411.RtosTypes
open Stm32f411.RtosKernel
open Stm32f411.RtosIpc
open Stm32f411.RtosSystem
open Stm32f411.RtosKernelSpec
open Stm32f411.RtosBootSpec
open Stm32f411.RtosCallSpec
open Stm32f411.RtosStepSpec
open Stm32f411.KernelSoundness
open Stm32f411.PriorityInheritance

variable {τ ι : Type}

def isTick : Op τ ι → Bool
  | .tick => true
  | _ => false

def ticksIn (ops : List (Op τ ι)) : Nat :=
  ops.countP isTick

def callTimeout : Call ι → Option Word
  | .taskDelay ticks => some ticks
  | .semaphoreTake _ timeoutTicks => some timeoutTicks
  | .mutexLock _ timeoutTicks => some timeoutTicks
  | .queueSend _ _ timeoutTicks => some timeoutTicks
  | .queueReceive _ _ timeoutTicks => some timeoutTicks
  | _ => none

/-- The state in which a call's caller sleeps. -/
def sleepState : Call ι → TaskState
  | .taskDelay _ => .delayed
  | _ => .blocked

/-- A step in which nobody serves the wait of `t`. -/
def UnservedSteps [DecidableEq τ] [DecidableEq ι]
    (P : Platform τ) (t : τ) (w : World τ ι) (op : Op τ ι)
    (w' : World τ ι) : Prop :=
  step P w op = some w' ∧ ¬((w.tcb t).state = .blocked ∧ (w'.tcb t).state = .ready ∧
    (w'.tcb t).waitResult = .ok)

/-- Task `t` sleeps in `state`, `n` ticks after it set its deadline. -/
structure Asleep (k : Kernel τ ι) (t : τ) (state : TaskState) (start delay : Word)
    (n : Nat) : Prop where
  running : k.running = true
  mem : t ∈ k.tasks
  state_eq : (k.tcb t).state = state
  sleeps : state = .delayed ∧ delay ≠ rtosWaitForever ∨ state = .blocked
  wakeTick : delay ≠ rtosWaitForever → (k.tcb t).wakeTick = start + delay
  waitForever : (k.tcb t).waitForever = decide (delay = rtosWaitForever)
  tick : k.tick = after start n

section Clock

theorem deadlineReached_iff {start delay : Word} (hdelay : delay ≤ int32Max) {n : Nat}
    (hn : n ≤ delay.toNat) :
    rtosDeadlineReached (after start n) (start + delay) = true ↔ n = delay.toNat := by
  have hhalf : 2 * delay.toNat < 2 ^ 32 := by
    have hle : delay.toNat ≤ 0x7FFFFFFF := hdelay
    omega
  rw [rtosDeadlineReached, decide_eq_true_iff]
  exact passed_iff start delay hhalf hn

theorem timeoutValid_cases {timeoutTicks : Word} (h : rtosTimeoutValid timeoutTicks = true) :
    timeoutTicks = rtosWaitForever ∨
      timeoutTicks ≠ rtosWaitForever ∧ timeoutTicks ≤ int32Max := by
  simp only [rtosTimeoutValid, Bool.or_eq_true, decide_eq_true_eq] at h
  tauto

end Clock

section Steps

variable {P : Platform τ} {w w' : World τ ι} {t : τ} {state : TaskState}
  {start delay : Word} {n : Nat}

theorem Asleep.kept {k k' : Kernel τ ι} (h : Asleep k t state start delay n)
    (htasks : k'.tasks = k.tasks) (hrunning : k'.running = k.running)
    (htick : k'.tick = k.tick) (hkept : Kept (k.tcb t) (k'.tcb t)) :
    Asleep k' t state start delay n := by
  obtain ⟨_, _, hkept⟩ := hkept
  constructor
  · rw [hrunning]
    exact h.running
  · rw [htasks]
    exact h.mem
  · rw [hkept]
    exact h.state_eq
  · exact h.sleeps
  · rw [hkept]
    exact h.wakeTick
  · rw [hkept]
    exact h.waitForever
  · rw [htick]
    exact h.tick

theorem Asleep.not_runnable {k : Kernel τ ι} (h : Asleep k t state start delay n) :
    ¬Runnable k t := by
  rw [Runnable, h.state_eq]
  rcases h.sleeps with ⟨hs, _⟩ | hs <;> simp [hs]

variable [DecidableEq τ]

theorem Asleep.quiet [DecidableEq ι] {k k' : Kernel τ ι} (h : Asleep k t state start delay n)
    (hquiet : QuietStep P k k') : Asleep k' t state start delay n := by
  cases hquiet.running h.running with
  | unchanged => exact h
  | @terminated self _ hstate _ =>
      have hts : t ≠ self := by
        rintro rfl
        exact h.not_runnable (Or.inr hstate)
      apply h.kept
      · rfl
      · rfl
      · rfl
      · simpa [hts] using Kept.refl (k.tcb t)
  | switched hswitch =>
      have htcb := hswitch.tcb_of_not_runnable h.not_runnable
      obtain ⟨_, _, _, cursor, hk'⟩ := hswitch
      apply h.kept
      · simp [hk']
      · simp [hk']
      · simp [hk']
      · rw [htcb]
        exact .refl _
  | wrote => exact h.kept rfl rfl rfl (.refl _)

/-- Only a call that serves the task wakes it between two ticks. -/
theorem Asleep.callEffect [DecidableEq ι] {k k' : Kernel τ ι} (h : Asleep k t state start delay n)
    {mode : Mode} (hcaller : CallerRuns P k mode) {call : Call ι} {outcome : Outcome}
    (heffect : CallEffect k mode call k' outcome)
    (hunserved : ¬((k.tcb t).state = .blocked ∧ (k'.tcb t).state = .ready ∧
      (k'.tcb t).waitResult = .ok)) : Asleep k' t state start delay n := by
  have hframe := heffect.frame
  have hcall := hcaller.not_caller fun hstate => h.not_runnable (Or.inr hstate)
  have hrest := fun hkept => h.kept hframe.tasks hframe.running hframe.tick hkept
  have htask := heffect.task t
  generalize hk' : k'.tcb t = t' at htask hunserved hrest
  cases htask with
  | kept hkept => exact hrest hkept
  | woken _ hwaits hkept =>
      obtain ⟨_, _, rfl⟩ := hkept
      exact absurd ⟨(isWaiter_iff.mp hwaits).1, rfl, rfl⟩ hunserved
  | delayed hthread _ _ _ => exact absurd hthread hcall
  | slept hthread _ _ _ _ => exact absurd hthread hcall

/-- Between two ticks an unserved task sleeps on. -/
theorem Asleep.system [DecidableEq ι] {op : Op τ ι} (h : Asleep w.toKernel t state start delay n)
    (hop : isTick op = false) (hstep : UnservedSteps P t w op w') :
    Asleep w'.toKernel t state start delay n := by
  obtain ⟨hstep, hunserved⟩ := hstep
  cases step_system hstep with
  | ticked => simp [isTick] at hop
  | quiet _ hquiet => exact h.quiet hquiet
  | @returned mode call k' result hruns _ heffect =>
      have hentered : Asleep (callEntered w.toKernel mode call) t state start delay n :=
        h.kept rfl rfl rfl (.refl _)
      have hcalled : Asleep k' t state start delay n :=
        hentered.callEffect (hruns.record _) heffect hunserved
      exact hcalled.kept rfl rfl rfl (.refl _)
  | @suspended mode call k' self hruns _ _ heffect =>
      have hentered : Asleep (callEntered w.toKernel mode call) t state start delay n :=
        h.kept rfl rfl rfl (.refl _)
      exact hentered.callEffect (hruns.record _) heffect hunserved
  | resumed _ _ _ => exact h.kept rfl rfl rfl (.refl _)

theorem Asleep.tickTask {k : Kernel τ ι} (h : Asleep k t state start delay n)
    (hnodup : k.tasks.Nodup) : (∃ tcb, sysTickHandler k =
        { k with tick := k.tick + 1, tcb := tcb, pended := true }) ∧
      Kept (tickTask (after start (n + 1)) (k.tcb t)) ((sysTickHandler k).tcb t) := by
  obtain ⟨hrest, htasks⟩ := sysTickHandler_running h.running hnodup
  obtain ⟨priority, htcb⟩ := htasks t h.mem
  refine ⟨hrest, priority, (RtosKernelSpec.tickTask (k.tick + 1) (k.tcb t)).mutexHoldCount, ?_⟩
  rw [htcb, h.tick, after_succ]

/-- A tick that decides nothing about the task leaves it asleep. -/
theorem Asleep.skipped {k : Kernel τ ι} (h : Asleep k t state start delay n)
    (hnodup : k.tasks.Nodup)
    (hskip : tickDecision (after start (n + 1)) (k.tcb t) = .skip) :
    Asleep (sysTickHandler k) t state start delay (n + 1) := by
  obtain ⟨⟨tcb, htick⟩, hkept⟩ := h.tickTask hnodup
  rw [RtosKernelSpec.tickTask, hskip] at hkept
  have hlater : Asleep { k with tick := k.tick + 1 } t state start delay (n + 1) :=
    { h with tick := by rw [after_succ, ← h.tick] }
  apply hlater.kept
  · rw [htick]
  · rw [htick]
  · rw [htick]
  · exact hkept

theorem ne_forever (hdelay : delay ≤ int32Max) : delay ≠ rtosWaitForever := by
  rintro rfl
  exact absurd hdelay (by decide)

/-- The deadline of `delay` is not reached after `n` ticks. -/
def Undue (delay : Word) (n : Nat) : Prop :=
  delay = rtosWaitForever ∨ delay ≤ int32Max ∧ n < delay.toNat

/-- A tick before the deadline leaves the task asleep. -/
theorem Asleep.early {k : Kernel τ ι} (h : Asleep k t state start delay n)
    (hnodup : k.tasks.Nodup) (hundue : Undue delay (n + 1)) :
    Asleep (sysTickHandler k) t state start delay (n + 1) := by
  apply h.skipped hnodup
  rcases hundue with hforever | ⟨hdelay, hn⟩
  · have hwait : (k.tcb t).waitForever = true := by
      rw [h.waitForever, decide_eq_true hforever]
    rcases h.sleeps with ⟨_, hnot⟩ | hs
    · exact absurd hforever hnot
    · simp [tickDecision, h.state_eq, hs, hwait]
  · have hnot : rtosDeadlineReached (after start (n + 1)) (k.tcb t).wakeTick = false := by
      rw [h.wakeTick (ne_forever hdelay), Bool.eq_false_iff]
      intro hreached
      exact absurd ((deadlineReached_iff hdelay hn.le).mp hreached) hn.ne
    simp [tickDecision, hnot]

/-- The tick of its deadline makes it READY. -/
theorem Asleep.due {k : Kernel τ ι} (h : Asleep k t state start delay n)
    (hnodup : k.tasks.Nodup) (hdelay : delay ≤ int32Max) (hn : n + 1 = delay.toNat) :
    ((sysTickHandler k).tcb t).state = .ready ∧
      (state = .blocked → ((sysTickHandler k).tcb t).waitResult = .errTimeout) := by
  obtain ⟨_, _, _, hkept⟩ := h.tickTask hnodup
  have hreached : rtosDeadlineReached (after start (n + 1)) (k.tcb t).wakeTick = true := by
    rw [h.wakeTick (ne_forever hdelay)]
    exact (deadlineReached_iff hdelay hn.le).mpr hn
  have hforever : (k.tcb t).waitForever = false := by
    rw [h.waitForever]
    simpa using ne_forever hdelay
  rw [hkept]
  rcases h.sleeps with ⟨hs, _⟩ | hs
  · simp [RtosKernelSpec.tickTask, tickDecision, h.state_eq, hs, hreached]
  · simp [RtosKernelSpec.tickTask, tickDecision, h.state_eq, hs, hreached, hforever,
      leaveWait]

end Steps

section Runs

variable {P : Platform τ} {w w' : World τ ι} {t : τ} {state : TaskState}
  {start delay : Word} {n : Nat}

theorem isTick_eq {op : Op τ ι} (h : isTick op = true) : op = .tick := by
  cases op <;> simp [isTick] at h ⊢

theorem tick_toKernel [DecidableEq τ] [DecidableEq ι] (h : step P w .tick = some w') :
    w'.toKernel = sysTickHandler w.toKernel := by
  rw [← Option.some.inj h]

theorem ticksIn_snoc (ops : List (Op τ ι)) (op : Op τ ι) :
    ticksIn (ops ++ [op]) = ticksIn ops + (if isTick op then 1 else 0) := by
  rw [ticksIn, List.countP_append, List.countP_singleton]
  rfl

variable [DecidableEq τ] [DecidableEq ι]

theorem Undue.of_succ {delay : Word} {n : Nat} (h : Undue delay (n + 1)) : Undue delay n := by
  rcases h with hforever | ⟨hdelay, hn⟩
  · exact Or.inl hforever
  · exact Or.inr ⟨hdelay, by omega⟩

/-- Through every run that does not reach its deadline an unserved task sleeps. -/
theorem Asleep.run {ops : List (Op τ ι)} (hw : Reached P w)
    (h : Asleep w.toKernel t state start delay 0)
    (hrun : Run (UnservedSteps P t) w ops w') (hundue : Undue delay (ticksIn ops)) :
    Reached P w' ∧ Asleep w'.toKernel t state start delay (ticksIn ops) := by
  induction hrun with
  | nil => exact ⟨hw, h⟩
  | @snoc ops s s' op hrest hlast ih =>
      rw [ticksIn_snoc] at hundue ⊢
      cases hop : isTick op with
      | false =>
          rw [hop] at hundue
          obtain ⟨hs, hasleep⟩ := ih hundue
          exact ⟨hs.step hlast.1, hasleep.system hop hlast⟩
      | true =>
          rw [hop] at hundue
          obtain ⟨hs, hasleep⟩ := ih hundue.of_succ
          refine ⟨hs.step hlast.1, ?_⟩
          obtain rfl := isTick_eq hop
          rw [tick_toKernel hlast.1]
          exact hasleep.early (reached_sound hs).nodup hundue

end Runs

variable [DecidableEq τ]

section Calls

variable {P : Platform τ} {w w' w'' : World τ ι} {self : τ} {call : Call ι} {delay : Word}

theorem callWait_timeout {waitType : WaitType} {p : ι} {buffer : Option BufferPtr}
    {timeoutTicks : Word} (h : callWait call = some (waitType, p, buffer, timeoutTicks)) :
    callTimeout call = some timeoutTicks ∧ sleepState call = .blocked := by
  unfold callWait at h
  split at h <;> simp_all [callTimeout, sleepState]

theorem timeoutValid_undue (hvalid : rtosTimeoutValid delay = true) (hzero : delay ≠ 0) :
    Undue delay 0 := by
  rcases timeoutValid_cases hvalid with hforever | ⟨_, hdelay⟩
  · exact Or.inl hforever
  · refine Or.inr ⟨hdelay, ?_⟩
    have hne : delay.toNat ≠ 0 := fun he => hzero (BitVec.eq_of_toNat_eq (by simpa using he))
    omega

/-- A call that suspends its caller puts it to sleep for its timeout from now on. -/
theorem asleep_of_suspended [DecidableEq ι]
    {k k' : Kernel τ ι} {mode : Mode} (hself : self ∈ k.tasks)
    (hthread : ThreadCall k mode self) (heffect : CallEffect k mode call k' .suspended)
    (htimeout : callTimeout call = some delay) :
    Asleep k' self (sleepState call) k.tick delay 0 ∧ Undue delay 0 := by
  have hsame : ∀ {other}, ThreadCall k mode other → other = self := fun hother =>
    Option.some.inj (hother.current.symm.trans hthread.current)
  cases heffect with
  | @delayed other ticks hother hzero hdelay =>
      obtain rfl := hsame hother
      obtain rfl : ticks = delay := Option.some.inj htimeout
      have hforever := ne_forever hdelay
      refine ⟨⟨hother.running, hself, by simp [sleepState], Or.inl ⟨rfl, hforever⟩,
        fun _ => by simp, by simp [hforever], by simp [after_zero]⟩, ?_⟩
      exact timeoutValid_undue (by simp [rtosTimeoutValid, hdelay]) hzero
  | @slept other _ waitType p buffer ticks hother hwait hzero hvalid _ =>
      obtain rfl := hsame hother
      obtain ⟨hticks, hblocked⟩ := callWait_timeout hwait
      obtain rfl : ticks = delay := Option.some.inj (hticks.symm.trans htimeout)
      refine ⟨⟨hother.running, hself, by simp [hblocked, enterWait], Or.inr hblocked,
        fun hne => by simp [enterWait, hne], by simp [enterWait], by simp [after_zero]⟩,
        timeoutValid_undue hvalid hzero⟩
  | @sleptOnMutex other owner p m ticks hother hzero hvalid _ _ _ =>
      obtain rfl := hsame hother
      obtain rfl : ticks = delay := Option.some.inj htimeout
      refine ⟨⟨hother.running, hself, by simp [sleepState, enterWait], Or.inr rfl,
        fun hne => by simp [enterWait, hne], by simp [enterWait], by simp [after_zero]⟩,
        timeoutValid_undue hvalid hzero⟩

/-- A task that calls `rtos_task_delay` in range goes to sleep. -/
theorem taskDelay_suspends {k : Kernel τ ι} (hrun : k.running = true)
    (hself : k.currentTask = some self) (hzero : delay ≠ 0) (hdelay : delay ≤ int32Max) :
    (rtosTaskDelay k .thread delay).2 = .suspended := by
  have hforever := ne_forever hdelay
  rw [rtosTaskDelay, if_neg hzero]
  simp [rtosKernelThreadApiValid, hrun, hself, rtosPortGetIpsr, rtosTimeoutValid, hdelay,
    hforever]

variable [DecidableEq ι]

theorem callStep_suspended (hself : w.currentTask = some self)
    (hcall : (rtosCall (callEntered w.toKernel .thread call) .thread call).2 = .suspended) :
    (callStep w .thread call).inCall self = some call := by
  have hcaller : callerOf w.toKernel .thread = some self := hself
  unfold callStep
  dsimp only
  rw [hcaller]
  split
  · next hresult =>
      rw [callEntered, hcaller, hresult] at hcall
      simp at hcall
  · simp

/-- After the call, `self` sleeps in it. A delay in range always sleeps. -/
def Sleeps (w : World τ ι) (self : τ) (call : Call ι) (delay : Word) : Prop :=
  call = .taskDelay delay ∧ delay ≠ 0 ∧ delay ≤ int32Max ∨ w.inCall self = some call

theorem asleep_of_call (hw : Reached P w) (hself : w.currentTask = some self)
    (htimeout : callTimeout call = some delay)
    (hcall : step P w (.call .thread call) = some w')
    (hsleeps : Sleeps w' self call delay) :
    Asleep w'.toKernel self (sleepState call) w.tick delay 0 ∧ Undue delay 0 := by
  have hs := reached_sound hw
  have hrun := hs.running_of_current hself
  have hin : w'.inCall self = some call := by
    rcases hsleeps with ⟨rfl, hzero, hdelay⟩ | hin
    · simp only [step] at hcall
      split at hcall
      · obtain rfl := Option.some.inj hcall
        exact callStep_suspended hself (taskDelay_suspends hrun hself hzero hdelay)
      · simp at hcall
    · exact hin
  cases step_system hcall with
  | quiet hquiet _ => exact hquiet.elim
  | returned _ hfree _ => simp [hfree self hself] at hin
  | @suspended _ _ k' other _ hthread _ heffect =>
      obtain rfl : other = self := Option.some.inj (hthread.current.symm.trans hself)
      have hentered : ThreadCall (callEntered w.toKernel .thread call) .thread other :=
        ⟨rfl, hthread.running, hthread.current⟩
      exact asleep_of_suspended (k := callEntered w.toKernel .thread call)
        (hs.current_mem hrun hself) hentered heffect htimeout

/-- A task that goes to sleep for `delay` ticks, whatever the tick counter reads, sleeps
through the first `delay - 1` ticks and wakes in the next, unless a blocked one is served
before; one that waits for ever is woken by no tick. -/
theorem deadline_exact (hw : Reached P w) (hself : w.currentTask = some self)
    (htimeout : callTimeout call = some delay)
    (hcall : step P w (.call .thread call) = some w')
    (hsleeps : Sleeps w' self call delay) (ops : List (Op τ ι))
    (hrun : Run (UnservedSteps P self) w' ops w'') :
    (delay ≠ rtosWaitForever → ticksIn ops < delay.toNat →
      (w''.tcb self).state = sleepState call) ∧
    (∀ woken, delay ≠ rtosWaitForever → ticksIn ops + 1 = delay.toNat →
      step P w'' .tick = some woken → (woken.tcb self).state = .ready ∧
        (sleepState call = .blocked → (woken.tcb self).waitResult = .errTimeout)) ∧
    (delay = rtosWaitForever → (w''.tcb self).state = .blocked) := by
  obtain ⟨hasleep, hundue⟩ := asleep_of_call hw hself htimeout hcall hsleeps
  have hw' : Reached P w' := hw.step hcall
  have hmax : delay ≠ rtosWaitForever → delay ≤ int32Max := fun hne =>
    hundue.elim (fun he => absurd he hne) And.left
  have hlater := fun hu => hasleep.run hw' hrun hu
  constructor
  · intro hne hops
    exact (hlater (Or.inr ⟨hmax hne, hops⟩)).2.state_eq
  constructor
  · intro woken hne hops htick
    obtain ⟨hw'', hasleep''⟩ := hlater (Or.inr ⟨hmax hne, by omega⟩)
    rw [tick_toKernel htick]
    exact hasleep''.due (reached_sound hw'').nodup (hmax hne) hops
  · intro hforever
    obtain ⟨_, hasleep''⟩ := hlater (Or.inl hforever)
    rcases hasleep''.sleeps with ⟨_, hne⟩ | hblocked
    · exact absurd hforever hne
    · rw [hasleep''.state_eq, hblocked]

/-- Task 2 takes the empty semaphore with a timeout of two ticks. -/
theorem deadline_exact_demo :
    let call : Call Nat := .semaphoreTake (some 1) 2
    let asleep := demoRun (demoBoot ++ [.call .thread call] ++ [.tick])
    (asleep.tcb 2).state = .blocked ∧ ∀ woken, step demoPlatform asleep .tick = some woken →
      (woken.tcb 2).state = .ready ∧ (woken.tcb 2).waitResult = .errTimeout := by
  have hcall := demoRun_step demoBoot (.call .thread (.semaphoreTake (some 1) 2)) (by decide)
  have htick := demoRun_step (demoBoot ++ [.call .thread (.semaphoreTake (some 1) 2)]) .tick
    (by decide)
  have hrun : Run (UnservedSteps demoPlatform 2) _ [Op.tick] _ := .single ⟨htick, by decide⟩
  have hexact := deadline_exact (demoRun_reached demoBoot) (by decide) rfl hcall
    (Or.inr (by decide)) [.tick] hrun
  refine ⟨hexact.1 (by decide) (by decide), fun woken hwoken => ?_⟩
  obtain ⟨hready, hresult⟩ := hexact.2.1 woken (by decide) (by decide) hwoken
  exact ⟨hready, hresult rfl⟩

end Calls

end Stm32f411.Deadlines
