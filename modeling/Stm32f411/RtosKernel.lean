import Mathlib.Data.BitVec
import Stm32f411.InheritanceRelaxation
import Stm32f411.RtosTypes

/-!
The functions of `rtos_kernel.c`, under their own names. A function that can end in
`rtos_kernel_fault` returns an error, since that call never comes back.
-/

namespace Stm32f411.RtosKernel

open Stm32f411.RtosTypes
open Stm32f411.InheritanceRelaxation

variable {τ ι : Type} [DecidableEq τ] [DecidableEq ι]

section Port

def rtosPortGetIpsr : Mode → Word
  | .thread => 0
  | .handler exception _ => exception

def rtosPortIsKernelAwareIsr (k : Kernel τ ι) : Mode → Bool
  | .thread => false
  | .handler exception priority =>
      let vector := exception &&& 0x1FF
      if vector < 16 then false
      else if 85 < vector - 16 then false
      else decide ((k.maxSyscallPriorityMask >>> 4).toNat ≤ priority) && decide (priority < 15)

@[simps -fullyApplied]
def rtosPortPendContextSwitch (k : Kernel τ ι) : Kernel τ ι :=
  { k with pended := true }

end Port

def rtosTimeoutValid (timeoutTicks : Word) : Bool :=
  decide (timeoutTicks = rtosWaitForever) || decide (timeoutTicks ≤ int32Max)

/-- `(int32_t)(now - deadline) >= 0`. -/
def rtosDeadlineReached (now deadline : Word) : Bool :=
  decide (0 ≤ (now - deadline).toInt)

section Registry

/-- The pointers `rtos_stack_initialize` leaves in the TCB; sixteen words below the top
hold the initial frame. -/
def rtosStackInitialize (t : RtosTask ι) : RtosTask ι :=
  { t with
    stackPointer := t.stackBase + t.stackWords * 4 - 64
    excReturn := rtosExcReturnThreadPsp }

/-- The overlap test of `rtos_task_add`, in 32-bit arithmetic. -/
def stacksOverlap (newStack newWords existingStack existingWords : Word) : Bool :=
  decide (newStack < existingStack + existingWords * 4) &&
    decide (existingStack < newStack + newWords * 4)

def rtosTaskAdd (P : Platform τ) (k : Kernel τ ι) (task : Option τ)
    (function argument stack stackWords : Word) (priority : Nat) : Kernel τ ι × Status :=
  match task with
  | none => (k, .errInvalid)
  | some task =>
      if function = 0 ∨ stack = 0 ∨ stackWords < rtosMinStackWords ∨ stack &&& 7 ≠ 0 ∨
          stackWords &&& 1 ≠ 0 ∨ rtosPriorityLevels ≤ priority then
        (k, .errInvalid)
      else if P.maxTasks + 1 ≤ k.tasks.length then
        (k, .errLimit)
      else if k.tasks.any (fun existing => decide (existing = task) ||
          stacksOverlap stack stackWords (k.tcb existing).stackBase
            (k.tcb existing).stackWords) then
        (k, .errInvalid)
      else
        let added := k.modifyTask task fun t => rtosStackInitialize
          { t with
            function := function
            argument := argument
            stackBase := stack
            stackWords := stackWords
            waitObject := none
            waitBuffer := none
            wakeTick := 0
            waitSequence := 0
            waitResult := .ok
            state := .ready
            basePriority := priority
            effectivePriority := priority
            waitType := .none
            waitForever := false
            mutexHoldCount := 0 }
        ({ added with tasks := k.tasks ++ [task] }, .ok)

def rtosInit (P : Platform τ) (k : Kernel τ ι) (config : Option Config) :
    Kernel τ ι × Status :=
  match config with
  | none => (k, .errInvalid)
  | some config =>
      if config.tickHz = 0 ∨ config.maxSyscallIrqPriority = 0 ∨
          15 ≤ config.maxSyscallIrqPriority then
        (k, .errInvalid)
      else if k.running then
        (k, .errState)
      else
        let cleared : Kernel τ ι :=
          { k with
            tasks := []
            applicationTaskCount := 0
            waitSequence := 0
            currentTask := none
            rrCursor := fun _ => 0
            config := config
            maxSyscallPriorityMask := BitVec.ofNat 32 config.maxSyscallIrqPriority <<< 4 }
        let result := rtosTaskAdd P cleared (some P.idle) P.idleEntry 0 P.idleStack
          rtosIdleStackWords rtosIdlePriority
        if result.2 ≠ .ok then result
        else ({ result.1 with initialized := true }, .ok)

def rtosTaskCreateStatic (P : Platform τ) (k : Kernel τ ι) (task : Option τ)
    (function argument stack stackWords : Word) (priority : Nat) : Kernel τ ι × Status :=
  if k.initialized = false ∨ k.running = true then
    (k, .errState)
  else if priority = rtosIdlePriority ∨ P.maxTasks ≤ k.applicationTaskCount then
    (k, if priority = rtosIdlePriority then .errInvalid else .errLimit)
  else
    let result := rtosTaskAdd P k task function argument stack stackWords priority
    if result.2 = .ok then
      ({ result.1 with applicationTaskCount := result.1.applicationTaskCount + 1 }, .ok)
    else result

end Registry

section Scheduler

/-- The first task at `priority` that can run, searching the table from the slot after
the level's cursor and wrapping once. -/
def scanLevel (k : Kernel τ ι) (priority : Nat) : Option Nat :=
  ((List.range k.tasks.length).map fun offset =>
      ((k.rrCursor priority).toNat + (offset + 1)) % k.tasks.length).find? fun index =>
    k.tasks[index]?.any fun task =>
      (decide ((k.tcb task).state = .ready) || decide ((k.tcb task).state = .running)) &&
        decide ((k.tcb task).effectivePriority = priority)

def rtosSelectNext (k : Kernel τ ι) : Kernel τ ι × Option τ :=
  match (List.range rtosPriorityLevels).reverse.findSome? fun priority =>
      (scanLevel k priority).map fun index => (priority, index) with
  | none => (k, none)
  | some (priority, index) =>
      ({ k with
         rrCursor := Function.update k.rrCursor priority (BitVec.ofNat 8 index) },
        k.tasks[index]?)

/-- `hookRegistered` and `tickConfigured` are the outcomes of
`systick_register_kernel_hook` and `systick_configure_stopped`; the latter also clears
the tick counter. -/
def rtosStart (k : Kernel τ ι) (hookRegistered tickConfigured : Bool) :
    Kernel τ ι × Status :=
  if k.initialized = false ∨ k.running = true ∨ k.applicationTaskCount = 0 then
    (k, .errState)
  else if hookRegistered = false then (k, .errState)
  else if tickConfigured = false then (k, .errInvalid)
  else
    match rtosSelectNext { k with tick := 0 } with
    | (k, none) => (k, .errState)
    | (k, some first) =>
        let dispatched := k.modifyTask first fun t => { t with state := .running }
        ({ dispatched with currentTask := some first, running := true }, .ok)

def rtosTaskYield (k : Kernel τ ι) (mode : Mode) : Kernel τ ι :=
  if k.running = true ∧ rtosPortGetIpsr mode = 0 then rtosPortPendContextSwitch k else k

def rtosKernelThreadApiValid (k : Kernel τ ι) (mode : Mode) : Bool :=
  k.running && decide (rtosPortGetIpsr mode = 0) && k.currentTask.isSome

def rtosTaskDelay (k : Kernel τ ι) (mode : Mode) (ticks : Word) : Kernel τ ι × Outcome :=
  if ticks = 0 then (rtosTaskYield k mode, .returned .ok)
  else if rtosKernelThreadApiValid k mode = false ∨ rtosTimeoutValid ticks = false ∨
      ticks = rtosWaitForever then
    (k, .returned .errInvalid)
  else
    match k.currentTask with
    | none => (k, .returned .errInvalid)
    | some self =>
        (rtosPortPendContextSwitch (k.modifyTask self fun t =>
          { t with
            wakeTick := k.tick + ticks
            waitForever := false
            state := .delayed }), .suspended)

/-- The writes that put a task to sleep on an object. -/
def enterWait (k : Kernel τ ι) (waitType : WaitType) (object : ι)
    (buffer : Option BufferPtr) (timeoutTicks : Word) (t : RtosTask ι) : RtosTask ι :=
  { t with
    waitType := waitType
    waitObject := some object
    waitBuffer := buffer
    waitSequence := k.waitSequence + 1
    waitResult := .ok
    waitForever := decide (timeoutTicks = rtosWaitForever)
    wakeTick := if timeoutTicks = rtosWaitForever then t.wakeTick else k.tick + timeoutTicks
    state := .blocked }

def rtosKernelBlockCurrent (k : Kernel τ ι) (waitType : WaitType) (object : ι)
    (buffer : Option BufferPtr) (timeoutTicks : Word) : Kernel τ ι × Status :=
  match k.currentTask with
  | none => (k, .errInvalid)
  | some task =>
      if rtosTimeoutValid timeoutTicks = false then (k, .errInvalid)
      else
        let asleep := k.modifyTask task (enterWait k waitType object buffer timeoutTicks)
        (rtosPortPendContextSwitch
          { asleep with waitSequence := k.waitSequence + 1 }, .ok)

def isWaiter (k : Kernel τ ι) (waitType : WaitType) (object : ι) (candidate : τ) : Bool :=
  decide ((k.tcb candidate).state = .blocked) &&
    decide ((k.tcb candidate).waitType = waitType) &&
    decide ((k.tcb candidate).waitObject = some object)

/-- Does `candidate` replace the best waiter found so far? -/
def outranks (k : Kernel τ ι) (candidate best : τ) : Bool :=
  decide ((k.tcb best).effectivePriority < (k.tcb candidate).effectivePriority) ||
    (decide ((k.tcb candidate).effectivePriority = (k.tcb best).effectivePriority) &&
      decide (((k.tcb candidate).waitSequence - (k.tcb best).waitSequence).toInt < 0))

def preferWaiter (k : Kernel τ ι) (waitType : WaitType) (object : ι) (best : Option τ)
    (candidate : τ) : Option τ :=
  if isWaiter k waitType object candidate then
    match best with
    | none => some candidate
    | some b => if outranks k candidate b then some candidate else best
  else best

def rtosKernelFindWaiter (k : Kernel τ ι) (waitType : WaitType) (object : ι) : Option τ :=
  k.tasks.foldl (preferWaiter k waitType object) none

/-- The writes that wake a task. -/
def leaveWait (result : Status) (t : RtosTask ι) : RtosTask ι :=
  { t with
    waitResult := result
    waitType := .none
    waitObject := none
    waitBuffer := none
    waitForever := false
    state := .ready }

def rtosKernelWakeTask (k : Kernel τ ι) (task : Option τ) (result : Status) : Kernel τ ι :=
  match task with
  | none => k
  | some task => k.modifyTask task (leaveWait result)

/-- The task a mutex waiter lends its priority to. -/
def blockingOwner (k : Kernel τ ι) (waiter : τ) : Option τ :=
  if (k.tcb waiter).state = .blocked ∧ (k.tcb waiter).waitType = .mutex then
    (k.tcb waiter).waitObject.bind fun object => (k.objects object).owner?
  else none

/-- The priorities after `rtos_kernel_recompute_priorities`. Its loops touch only the
column of effective priorities: they reset it to the base priorities and then relax it
along the owners, one pass over the table at a time. -/
def recomputedPriority (k : Kernel τ ι) : τ → Nat :=
  passes (blockingOwner k) k.tasks k.tasks.length fun t =>
    if t ∈ k.tasks then (k.tcb t).basePriority else (k.tcb t).effectivePriority

@[simps -fullyApplied]
def rtosKernelRecomputePriorities (k : Kernel τ ι) : Kernel τ ι :=
  { k with
    tcb := fun t => { k.tcb t with effectivePriority := recomputedPriority k t } }

def rtosKernelShouldPreempt (k : Kernel τ ι) (task : Option τ) : Bool :=
  match task, k.currentTask with
  | some task, some current =>
      decide ((k.tcb current).effectivePriority < (k.tcb task).effectivePriority)
  | _, _ => false

end Scheduler

section Tick

inductive TickDecision
  | skip | ready | timeOut
  deriving DecidableEq

/-- What the loop of `rtos_tick_isr` decides for one task from its TCB. -/
def tickDecision (now : Word) (t : RtosTask ι) : TickDecision :=
  if t.state = .delayed ∧ rtosDeadlineReached now t.wakeTick = true then .ready
  else if t.state = .blocked ∧ t.waitForever = false ∧
      rtosDeadlineReached now t.wakeTick = true then .timeOut
  else .skip

/-- The writes that carry a decision out, with the mutex time-out flag. -/
def tickApply (task : τ) (decision : TickDecision) (acc : Kernel τ ι × Bool) :
    Kernel τ ι × Bool :=
  match decision with
  | .skip => acc
  | .ready => (acc.1.modifyTask task fun t => { t with state := .ready }, acc.2)
  | .timeOut =>
      (rtosKernelWakeTask acc.1 (some task) .errTimeout,
        acc.2 || decide ((acc.1.tcb task).waitType = .mutex))

def tickVisit (now : Word) (acc : Kernel τ ι × Bool) (task : τ) : Kernel τ ι × Bool :=
  tickApply task (tickDecision now (acc.1.tcb task)) acc

/-- What follows the loop of `rtos_tick_isr`. -/
def tickFinish (acc : Kernel τ ι × Bool) : Kernel τ ι :=
  rtosPortPendContextSwitch (if acc.2 then rtosKernelRecomputePriorities acc.1 else acc.1)

def rtosTickIsr (k : Kernel τ ι) : Kernel τ ι :=
  if k.running = false then k
  else tickFinish (k.tasks.foldl (tickVisit k.tick) (k, false))

/-- The tick advances, then the kernel hook runs. -/
def sysTickHandler (k : Kernel τ ι) : Kernel τ ι :=
  rtosTickIsr { k with tick := k.tick + 1 }

end Tick

section Switch

/-- `stackValid` is the outcome of `rtos_task_stack_valid` on the task switched out: its
canary and its saved stack pointer, which the kernel does not control. Entering the
handler clears the pending bit. -/
def rtosScheduleFromPendsv (k : Kernel τ ι) (stackValid : Bool) :
    Except (Fault τ) (Kernel τ ι) :=
  if k.currentTask.isSome && !stackValid then .error ⟨.stack, k.currentTask⟩
  else
    let yielded : Kernel τ ι := match k.currentTask with
      | none => k
      | some current =>
          if (k.tcb current).state = .running then
            k.modifyTask current fun t => { t with state := .ready }
          else k
    match rtosSelectNext { yielded with pended := false } with
    | (_, none) => .error ⟨.kernelInvariant, k.currentTask⟩
    | (k, some next) =>
        let dispatched := k.modifyTask next fun t => { t with state := .running }
        .ok { dispatched with currentTask := some next }

/-- What the trampoline does once the task's function has returned. -/
def rtosTaskEntryTrampoline (k : Kernel τ ι) (task : τ) : Except (Fault τ) (Kernel τ ι) :=
  if (k.tcb task).mutexHoldCount ≠ 0 then .error ⟨.taskReturnWithMutex, some task⟩
  else
    .ok (rtosPortPendContextSwitch (k.modifyTask task fun t => { t with state := .terminated }))

end Switch

end Stm32f411.RtosKernel
