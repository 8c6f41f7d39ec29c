import Stm32f411.KernelSoundness
import Stm32f411.SysTickSetup
import Stm32f411.WrappingClock

/-!
The kernel on the SysTick driver. They share `systick_ticks`, and the interrupt of the timer
reaches the kernel through the hook that `rtos_start` registers.
-/

namespace Stm32f411.TimedKernel

open Stm32f411.WrappingClock
open Stm32f411.RtosTypes
open Stm32f411.RtosKernel
open Stm32f411.RtosSystem
open Stm32f411.RtosKernelSpec
open Stm32f411.RtosBootSpec
open Stm32f411.RtosStepSpec
open Stm32f411.SysTickSetup

section Driver

/-- The functions a program can register. -/
inductive Hook
  | rtosTickIsr
  | other (number : Nat)
  deriving DecidableEq

/-- `current` is `systick_kernel_hook`. -/
def systickRegisterKernelHook (current hook : Option Hook) : Option Hook × Int :=
  if hook = none ∨ (current ≠ none ∧ current ≠ hook) then (current, -1) else (hook, 0)

/-- A clock cycle of the timer, and whether the counter got to zero in it, which COUNTFLAG
shows. -/
def cycle (s : SysTickState) : SysTickState × Bool :=
  if s.ctrl &&& systickCtrlEnable = 0 then (s, false)
  else
    ({ s with
       val := BitVec.ofNat 32 (countDown s.load.toNat s.val.toNat)
       countFlag := s.countFlag || decide (s.val = 1) }, decide (s.val = 1))

end Driver

section System

/-- The kernel, the timer, and the hook. `pendSt` is the pending bit of the exception. -/
structure TimedWorld (τ ι : Type) where
  world : World τ ι
  timer : SysTickState
  shared : timer.ticks = world.tick
  hook : Option Hook
  pendSt : Bool

variable {τ ι : Type}

namespace TimedWorld

def withWorld (b : TimedWorld τ ι) (world : World τ ι) : TimedWorld τ ι :=
  { b with world := world, timer := { b.timer with ticks := world.tick }, shared := rfl }

def withTimer (b : TimedWorld τ ι) (timer : SysTickState) : TimedWorld τ ι :=
  { b with timer := timer, world := { b.world with tick := timer.ticks }, shared := rfl }

variable [DecidableEq τ]

/-- The kernel after `rtos_select_next` found its first task, or none. -/
def startFirst (b : TimedWorld τ ι) : TimedWorld τ ι × Status :=
  match rtosSelectNext b.world.toKernel with
  | (k, none) => (b.withWorld { b.world with toKernel := k }, .errState)
  | (k, some first) =>
      let dispatched := k.modifyTask first fun t => { t with state := .running }
      let started := b.withWorld { b.world with
        toKernel := { dispatched with currentTask := some first, running := true } }
      -- `SVC_Handler` calls `rtos_start_tick_from_svc`
      (started.withTimer (systickStartInternal started.timer), .ok)

def rtosStart (b : TimedWorld τ ι) (hclk : Word) : TimedWorld τ ι × Status :=
  if b.world.initialized = false ∨ b.world.running = true ∨ b.world.applicationTaskCount = 0 then
    (b, .errState)
  else
    let registered := systickRegisterKernelHook b.hook (some .rtosTickIsr)
    let b := { b with hook := registered.1 }
    if registered.2 ≠ 0 then (b, .errState)
    else
      let configured := systickConfigureStopped hclk (some ⟨.ahb, b.world.config.tickHz⟩) b.timer
      let b := b.withTimer configured.1
      if configured.2 ≠ 0 then (b, .errInvalid) else b.startFirst

def systickHandler (b : TimedWorld τ ι) : TimedWorld τ ι :=
  let ticked : Kernel τ ι := { b.world.toKernel with tick := b.world.tick + 1 }
  let k := match b.hook with
    | none => ticked
    | some .rtosTickIsr => rtosTickIsr ticked
    | some (.other _) => ticked
  { b.withWorld { b.world with toKernel := k } with pendSt := false }

end TimedWorld

inductive TimedOp (τ ι : Type)
  | kernel (op : Op τ ι)
  | start (hclk : Word)
  | systick (hclk : Word) (call : SysTickCall)
  | registerHook (hook : Option Hook)
  | cycle
  | interrupt

/-- `rtos_start` and the tick are not the kernel's own here. -/
def IsKernelOp : Op τ ι → Bool
  | .start _ _ => false
  | .tick => false
  | _ => true

variable [DecidableEq τ] [DecidableEq ι]

def timedStep (P : Platform τ) (b : TimedWorld τ ι) : TimedOp τ ι → Option (TimedWorld τ ι)
  | .kernel op =>
      if IsKernelOp op then (step P b.world op).map b.withWorld else none
  | .start hclk => some (b.rtosStart hclk).1
  | .systick hclk call => some (b.withTimer (systickCall hclk b.timer call).1)
  | .registerHook hook => some { b with hook := (systickRegisterKernelHook b.hook hook).1 }
  | .cycle =>
      let cycled := TimedKernel.cycle b.timer
      some { b.withTimer cycled.1 with
        pendSt := b.pendSt ||
          (cycled.2 && decide (b.timer.ctrl &&& systickCtrlTickint ≠ 0)) }
  | .interrupt => if b.pendSt then some b.systickHandler else none

structure TimedReset {τ ι : Type} (b : TimedWorld τ ι) : Prop where
  world : Reset b.world
  stopped : b.timer.ctrl = 0
  initialized : b.timer.initialized = false
  hook : b.hook = none
  pendSt : b.pendSt = false

/-- Nobody sets the tick counter back while the kernel runs. -/
def Undisturbed (b : TimedWorld τ ι) : TimedOp τ ι → Prop
  | .systick _ (.init _) => b.world.running = false
  | .systick _ (.configureStopped _) => b.world.running = false
  | _ => True

instance (b : TimedWorld τ ι) : (op : TimedOp τ ι) → Decidable (Undisturbed b op)
  | .systick _ (.init _) => inferInstanceAs (Decidable (b.world.running = false))
  | .systick _ (.configureStopped _) => inferInstanceAs (Decidable (b.world.running = false))
  | .systick _ .updateFreq => .isTrue trivial
  | .kernel _ => .isTrue trivial
  | .start _ => .isTrue trivial
  | .registerHook _ => .isTrue trivial
  | .cycle => .isTrue trivial
  | .interrupt => .isTrue trivial

def TimedSteps (P : Platform τ) (b : TimedWorld τ ι) (op : TimedOp τ ι) (b' : TimedWorld τ ι) :
    Prop :=
  timedStep P b op = some b' ∧ Undisturbed b op

def isInterrupt : TimedOp τ ι → Bool
  | .interrupt => true
  | _ => false

def isCycle : TimedOp τ ι → Bool
  | .cycle => true
  | _ => false

def interruptsIn (ops : List (TimedOp τ ι)) : Nat := ops.countP isInterrupt

def cyclesIn (ops : List (TimedOp τ ι)) : Nat := ops.countP isCycle

def TimedWorld.period (b : TimedWorld τ ι) : Nat := b.timer.load.toNat + 1

def TimedWorld.phase (b : TimedWorld τ ι) : Nat :=
  WrappingClock.phase b.timer.load.toNat b.timer.val.toNat

/-- Interrupts that are to come. -/
def TimedWorld.due (b : TimedWorld τ ι) : Nat := if b.pendSt then 1 else 0

end System

section Operations

variable {τ ι : Type} {b b' : TimedWorld τ ι} {timer : SysTickState}

theorem withTimer_world (h : timer.ticks = b.world.tick) :
    (b.withTimer timer).world = b.world := by
  change { b.world with tick := timer.ticks } = b.world
  rw [h]

theorem updateFreq_of_undisturbed {hclk : Word} {call : SysTickCall}
    (hrun : b.world.running = true) (h : Undisturbed b (.systick hclk call)) :
    call = .updateFreq := by
  cases call with
  | init cfg => exact absurd (h.symm.trans hrun) (by simp)
  | configureStopped cfg => exact absurd (h.symm.trans hrun) (by simp)
  | updateFreq => rfl

variable [DecidableEq τ]

theorem startFirst_world {k : Kernel τ ι}
    (hstate : ¬(k.initialized = false ∨ k.running = true ∨ k.applicationTaskCount = 0))
    (hk : b.world.toKernel = { k with tick := 0 }) :
    b.startFirst.1.world = { b.world with toKernel := (rtosStart k true true).1 } := by
  rw [rtosStart, if_neg hstate, if_neg (by simp), if_neg (by simp), ← hk, TimedWorld.startFirst]
  rcases rtosSelectNext b.world.toKernel with ⟨k', _ | first⟩
  · rfl
  · rfl

/-- To the kernel a start of the board is one with the outcomes of the two driver calls. -/
theorem start_world (b : TimedWorld τ ι) (hclk : Word) :
    ∃ hookRegistered tickConfigured, (b.rtosStart hclk).1.world = { b.world with
      toKernel := (rtosStart b.world.toKernel hookRegistered tickConfigured).1 } := by
  unfold TimedWorld.rtosStart
  split
  · next hstate =>
      refine ⟨true, true, ?_⟩
      rw [rtosStart, if_pos hstate]
  · next hstate =>
      dsimp only
      split
      · refine ⟨false, true, ?_⟩
        rw [rtosStart, if_neg hstate]
        rfl
      · by_cases haccepted : Accepted hclk ⟨.ahb, b.world.config.tickHz⟩
        · refine ⟨true, true, ?_⟩
          rw [configureStopped_accepted haccepted, if_neg (not_not.mpr rfl)]
          exact startFirst_world hstate rfl
        · refine ⟨true, false, ?_⟩
          rw [configureStopped_refused haccepted, rtosStart, if_neg hstate]
          exact withTimer_world b.shared

theorem handler_world (b : TimedWorld τ ι) (hhook : b.hook = some .rtosTickIsr) :
    b.systickHandler.world = { b.world with toKernel := sysTickHandler b.world.toKernel } := by
  rw [TimedWorld.systickHandler, hhook]
  rfl

/-- Any other hook leaves the kernel alone. -/
theorem handler_unhooked (b : TimedWorld τ ι) (hhook : b.hook ≠ some .rtosTickIsr) :
    b.systickHandler.world = { b.world with tick := b.world.tick + 1 } := by
  unfold TimedWorld.systickHandler
  split
  · rfl
  · next htick => exact absurd htick hhook
  · rfl

theorem configure_frame (hclk : Word) (cfg : Option SysTickConfig) (s : SysTickState) :
    (systickConfigure hclk cfg s).1.ticks = s.ticks ∧
      (systickConfigure hclk cfg s).1.initialized = s.initialized := by
  cases cfg with
  | none => exact ⟨rfl, rfl⟩
  | some cfg =>
      by_cases h : Accepted hclk cfg
      · rw [configure_accepted h]
        exact ⟨rfl, rfl⟩
      · rw [configure_refused h]
        exact ⟨rfl, rfl⟩

theorem updateFreq_frame (hclk : Word) (s : SysTickState) :
    (systickUpdateFreq hclk s).1.ticks = s.ticks ∧
      (systickUpdateFreq hclk s).1.initialized = s.initialized := by
  have hconfigured := configure_frame hclk (some s.savedCfg) s.readCtrl
  unfold systickUpdateFreq
  split
  · exact ⟨rfl, rfl⟩
  · dsimp only
    split
    · exact hconfigured
    · exact hconfigured

variable {P : Platform τ}

theorem handler_frame (b : TimedWorld τ ι) :
    b.systickHandler.world.running = b.world.running ∧
      b.systickHandler.world.tick = b.world.tick + 1 := by
  by_cases hhook : b.hook = some .rtosTickIsr
  · obtain ⟨tcb, pended, htick⟩ := sysTickHandler_frame b.world.toKernel
    rw [handler_world b hhook, htick]
    exact ⟨rfl, rfl⟩
  · rw [handler_unhooked b hhook]
    exact ⟨rfl, rfl⟩

variable [DecidableEq ι]

section Frame

variable {w w' : World τ ι}

def SameClock (k k' : Kernel τ ι) : Prop :=
  k'.running = k.running ∧ k'.tick = k.tick

/-- Nothing but its start and the ticks starts the kernel or moves its clock. -/
theorem kernelOp_frame {op : Op τ ι} (hop : IsKernelOp op = true) (h : step P w op = some w') :
    SameClock w.toKernel w'.toKernel := by
  have hplaced : ∀ {k' : Kernel τ ι}, ObjectPlaced w.toKernel k' →
      SameClock w.toKernel k' := by
    rintro k' (rfl | ⟨_, _, _, _, _, _, rfl⟩)
    · exact ⟨rfl, rfl⟩
    · exact ⟨rfl, rfl⟩
  cases op with
  | init config =>
      obtain rfl := Option.some.inj h
      change SameClock w.toKernel (rtosInit P w.toKernel config).1
      rcases init_cases P w.toKernel config with hsame | hboot
      · rw [hsame]
        exact ⟨rfl, rfl⟩
      · obtain ⟨t, config, mask, hk'⟩ := hboot.rest
        rw [hk']
        exact ⟨rfl, rfl⟩
  | taskCreate task function argument stack stackWords priority =>
      obtain rfl := Option.some.inj h
      change SameClock w.toKernel (rtosTaskCreateStatic P w.toKernel task function argument
        stack stackWords priority).1
      rcases taskCreate_cases P w.toKernel task function argument stack stackWords priority
        with hsame | ⟨_, _, _, t, k', hadd, hk'⟩
      · rw [hsame]
        exact ⟨rfl, rfl⟩
      · obtain ⟨u, rfl⟩ := hadd.rest
        rw [hk']
        exact ⟨rfl, rfl⟩
  | semaphoreInit semaphore initialCount maximumCount =>
      obtain rfl := Option.some.inj h
      exact hplaced (semaphoreInit_cases _ _ _ _)
  | mutexInit mutex =>
      obtain rfl := Option.some.inj h
      exact hplaced (mutexInit_cases _ _)
  | queueInit queue storage capacity itemSize =>
      obtain rfl := Option.some.inj h
      exact hplaced (queueInit_cases _ _ _ _ _)
  | start hookRegistered tickConfigured => simp [IsKernelOp] at hop
  | call mode call =>
      have hsystem := step_system h
      cases hsystem with
      | quiet hquiet _ => exact hquiet.elim
      | returned _ _ heffect => exact ⟨heffect.frame.running, heffect.frame.tick⟩
      | suspended _ _ _ heffect => exact ⟨heffect.frame.running, heffect.frame.tick⟩
  | resume =>
      have hsystem := step_system h
      cases hsystem with
      | quiet hquiet _ => exact hquiet.elim
      | resumed _ _ _ => exact ⟨rfl, rfl⟩
  | taskReturn =>
      obtain ⟨self, _, _, _, rfl⟩ := taskReturn_step h
      exact ⟨rfl, rfl⟩
  | tick => simp [IsKernelOp] at hop
  | pendSV stackValid =>
      obtain ⟨_, k', hschedule, rfl⟩ := pendSV_step h
      obtain ⟨next, hswitch⟩ := schedule_ok hschedule
      obtain ⟨cursor, rfl⟩ := hswitch.rest
      exact ⟨rfl, rfl⟩
  | write buffer bytes =>
      obtain rfl := Option.some.inj h
      exact ⟨rfl, rfl⟩

end Frame

end Operations

end Stm32f411.TimedKernel
