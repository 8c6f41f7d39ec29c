import Stm32f411.LabelledRuns
import Stm32f411.RtosIpc

/-!
The kernel with the tasks and interrupt handlers that use it, as a step function. API
calls, ticks and PendSV are atomic. A task that goes to sleep inside a call stays there
until it is dispatched again; the call then returns what it finds in `wait_result`.
-/

namespace Stm32f411.RtosSystem

open Stm32f411.RtosTypes
open Stm32f411.RtosKernel
open Stm32f411.RtosIpc
open Stm32f411.LabelledRuns

/-- The kernel, and for each task the call it is suspended in. -/
structure World (τ ι : Type) extends Kernel τ ι where
  inCall : τ → Option (Call ι)

inductive Op (τ ι : Type)
  | init (config : Option Config)
  | taskCreate (task : Option τ) (function argument stack stackWords : Word) (priority : Nat)
  | semaphoreInit (semaphore : Option ι) (initialCount maximumCount : Word)
  | mutexInit (mutex : Option ι)
  | queueInit (queue : Option ι) (storage : Option (Nat → Byte)) (capacity itemSize : Word)
  | start (hookRegistered tickConfigured : Bool)
  | call (mode : Mode) (call : Call ι)
  | resume
  | taskReturn
  | tick
  | pendSV (stackValid : Bool)
  | write (buffer : BufferPtr) (bytes : Nat → Byte)

section Step

variable {τ ι : Type} [DecidableEq τ] [DecidableEq ι]

def withStatus (result : Kernel τ ι × Status) : Kernel τ ι × Outcome :=
  (result.1, .returned result.2)

def rtosCall (k : Kernel τ ι) (mode : Mode) : Call ι → Kernel τ ι × Outcome
  | .taskYield => (rtosTaskYield k mode, .returned .ok)
  | .taskDelay ticks => rtosTaskDelay k mode ticks
  | .semaphoreTake semaphore timeoutTicks => rtosSemaphoreTake k mode semaphore timeoutTicks
  | .semaphoreGive semaphore => withStatus (rtosSemaphoreGive k mode semaphore)
  | .semaphoreGiveFromIsr semaphore => withStatus (rtosSemaphoreGiveFromIsr k mode semaphore)
  | .mutexLock mutex timeoutTicks => rtosMutexLock k mode mutex timeoutTicks
  | .mutexUnlock mutex => withStatus (rtosMutexUnlock k mode mutex)
  | .queueSend queue item timeoutTicks => rtosQueueSend k mode queue item timeoutTicks
  | .queueReceive queue item timeoutTicks => rtosQueueReceive k mode queue item timeoutTicks
  | .queueSendFromIsr queue item => withStatus (rtosQueueSendFromIsr k mode queue item)
  | .queueReceiveFromIsr queue item => withStatus (rtosQueueReceiveFromIsr k mode queue item)

/-- The queue and the item buffer a call names. -/
def callItem : Call ι → Option (ι × BufferPtr)
  | .queueSend (some p) (some item) _ => some (p, item)
  | .queueReceive (some p) (some item) _ => some (p, item)
  | .queueSendFromIsr (some p) (some item) => some (p, item)
  | .queueReceiveFromIsr (some p) (some item) => some (p, item)
  | _ => none

/-- The bytes in the caller's item buffer, for the history. -/
def callData (k : Kernel τ ι) (call : Call ι) : List Byte :=
  match callItem call with
  | none => []
  | some (p, item) =>
      match (k.objects p).queue? with
      | none => []
      | some q => Kernel.itemBytes (k.memory item) q

/-- What a suspended call returns once its task runs again. -/
def resumeResult (t : RtosTask ι) : Call ι → Status
  | .taskDelay _ => .ok
  | _ => t.waitResult

/-- Thread-mode code runs only as the start-up code or as the RUNNING task, outside any
call it is suspended in; the idle task makes no calls. -/
def threadRuns (P : Platform τ) (w : World τ ι) : Bool :=
  match w.currentTask with
  | none => true
  | some self =>
      decide ((w.tcb self).state = .running) && decide (self ≠ P.idle) &&
        (w.inCall self).isNone

def modeRuns (P : Platform τ) (w : World τ ι) : Mode → Bool
  | .thread => threadRuns P w
  | .handler exception _ => decide (exception ≠ 0)

def callerOf (k : Kernel τ ι) : Mode → Option τ
  | .thread => k.currentTask
  | .handler _ _ => none

/-- One call, with its entry and its return recorded. -/
def callStep (w : World τ ι) (mode : Mode) (call : Call ι) : World τ ι :=
  let caller := callerOf w.toKernel mode
  let entered := w.toKernel.record (.called caller call (callData w.toKernel call))
  match rtosCall entered mode call with
  | (k, .returned result) =>
      { w with toKernel := k.record (.returned caller call result (callData k call)) }
  | (k, .suspended) =>
      { w with
        toKernel := k
        inCall := match caller with
          | none => w.inCall
          | some self => Function.update w.inCall self (some call) }

/-- The RUNNING task returns from the call it was suspended in. -/
def resumeStep (w : World τ ι) (self : τ) (call : Call ι) : World τ ι :=
  { w with
    toKernel := w.toKernel.record
      (.returned (some self) call (resumeResult (w.tcb self) call) (callData w.toKernel call))
    inCall := Function.update w.inCall self none }

def step (P : Platform τ) (w : World τ ι) : Op τ ι → Option (World τ ι)
  | .init config => some { w with toKernel := (rtosInit P w.toKernel config).1 }
  | .taskCreate task function argument stack stackWords priority =>
      some { w with toKernel := (rtosTaskCreateStatic P w.toKernel task function argument
        stack stackWords priority).1 }
  | .semaphoreInit semaphore initialCount maximumCount =>
      some { w with toKernel :=
        (rtosSemaphoreInit w.toKernel semaphore initialCount maximumCount).1 }
  | .mutexInit mutex => some { w with toKernel := (rtosMutexInit w.toKernel mutex).1 }
  | .queueInit queue storage capacity itemSize =>
      some { w with toKernel := (rtosQueueInit w.toKernel queue storage capacity itemSize).1 }
  | .start hookRegistered tickConfigured =>
      some { w with toKernel := (rtosStart w.toKernel hookRegistered tickConfigured).1 }
  | .call mode call => if modeRuns P w mode then some (callStep w mode call) else none
  | .resume =>
      match w.currentTask with
      | none => none
      | some self =>
          if (w.tcb self).state = .running then
            (w.inCall self).map fun call => resumeStep w self call
          else none
  | .taskReturn =>
      match w.currentTask with
      | none => none
      | some self =>
          if threadRuns P w then
            match rtosTaskEntryTrampoline w.toKernel self with
            | .ok k => some { w with toKernel := k }
            | .error _ => none
          else none
  | .tick => some { w with toKernel := sysTickHandler w.toKernel }
  | .pendSV stackValid =>
      if w.running then
        match rtosScheduleFromPendsv w.toKernel stackValid with
        | .ok k => some { w with toKernel := k }
        | .error _ => none
      else none
  | .write buffer bytes => some { w with toKernel := w.toKernel.setBuffer buffer bytes }

/-- The state before `rtos_init`: the kernel's variables are zero and no object is
initialised. TCBs, buffers and the tick hold anything. -/
structure Reset (w : World τ ι) : Prop where
  objects : ∀ p, w.objects p = .raw
  currentTask : w.currentTask = none
  tasks : w.tasks = []
  initialized : w.initialized = false
  running : w.running = false
  pended : w.pended = false
  log : w.log = []
  inCall : ∀ t, w.inCall t = none

/-- The states of all runs. -/
def Reached (P : Platform τ) (w : World τ ι) : Prop :=
  Reachable (Steps (step P)) Reset w

end Step

section Demo

def demoPlatform : Platform Nat where
  idle := 0
  idleEntry := 0x08000101
  idleStack := 0x20000000
  maxTasks := 8
  idleEntry_ne := by decide
  idleStack_ne := by decide
  idleStack_aligned := by decide

def demoReset : World Nat Nat where
  tcb := fun _ => ⟨0, 0, 0, 0, 0, 0, none, none, 0, 0, .ok, .ready, 0, 0, .none, false, 0⟩
  objects := fun _ => .raw
  memory := fun _ _ => 0
  currentTask := none
  tasks := []
  applicationTaskCount := 0
  waitSequence := 0
  rrCursor := fun _ => 0
  initialized := false
  running := false
  config := ⟨0, 0⟩
  maxSyscallPriorityMask := 0
  tick := 0
  pended := false
  log := []
  inCall := fun _ => none

/-- Tasks 1 and 2 of priorities 2 and 6, mutex 0, semaphore 1 and queue 2. -/
def demoBoot : List (Op Nat Nat) :=
  [.init (some ⟨1000, 5⟩),
    .taskCreate (some 1) 0x08000201 0 0x20001000 128 2,
    .taskCreate (some 2) 0x08000301 0 0x20002000 128 6,
    .mutexInit (some 0), .semaphoreInit (some 1) 0 1,
    .queueInit (some 2) (some fun _ => 0) 1 1, .start true true]

/-- Tasks 1 and 2 of one priority, and semaphore 1. -/
def demoPair : List (Op Nat Nat) :=
  [.init (some ⟨1000, 5⟩),
    .taskCreate (some 1) 0x08000201 0 0x20001000 128 3,
    .taskCreate (some 2) 0x08000301 0 0x20002000 128 3,
    .semaphoreInit (some 1) 0 1, .start true true]

def demoRun (ops : List (Op Nat Nat)) : World Nat Nat :=
  (exec (step demoPlatform) demoReset ops).getD demoReset

theorem demoReset_reset : Reset demoReset := by
  constructor <;> intros <;> rfl

theorem demoRun_run (ops : List (Op Nat Nat))
    (hrun : (exec (step demoPlatform) demoReset ops).isSome = true) :
    Run (Steps (step demoPlatform)) demoReset ops (demoRun ops) :=
  exec_run hrun

theorem demoRun_reached (ops : List (Op Nat Nat)) : Reached demoPlatform (demoRun ops) := by
  have hreset : Reached demoPlatform demoReset := .initial demoReset_reset
  unfold demoRun
  cases hrun : exec (step demoPlatform) demoReset ops with
  | none => exact hreset
  | some w => exact hreset.run (run_of_exec hrun)

/-- One more step of a demo run, provided none of its steps fails. -/
theorem demoRun_step (ops : List (Op Nat Nat)) (op : Op Nat Nat)
    (hrun : (exec (step demoPlatform) demoReset (ops ++ [op])).isSome = true) :
    step demoPlatform (demoRun ops) op = some (demoRun (ops ++ [op])) :=
  exec_step hrun

end Demo

end Stm32f411.RtosSystem
