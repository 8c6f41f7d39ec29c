import Stm32f411.QueueStorage
import Stm32f411.RtosStepSpec
import Stm32f411.StatementPrograms

/-!
What the kernel does inside its critical sections, statement by statement, with the loops
of the source.
-/

namespace Stm32f411.SectionCode

open Stm32f411.RtosTypes
open Stm32f411.RtosKernel
open Stm32f411.RtosIpc
open Stm32f411.StatementPrograms
open Stm32f411.StatementPrograms.Code

variable {τ ι : Type} [DecidableEq τ] [DecidableEq ι]

abbrev KernelCode (τ ι α : Type) : Type := Code (Kernel τ ι) α

section Statements

def assign (task : τ) (f : RtosTask ι → RtosTask ι) : KernelCode τ ι Unit :=
  modify fun k => k.modifyTask task f

def assignObject (p : ι) (object : Object τ) : KernelCode τ ι Unit :=
  modify fun k => k.setObject p object

/-- Not a statement of the source: an entry of the history. -/
def mark (event : Event τ ι) : KernelCode τ ι Unit :=
  modify fun k => k.record event

def pendContextSwitchCode : KernelCode τ ι Unit :=
  modify rtosPortPendContextSwitch

/-- The member of an object whose magic was tested before the section. -/
def lookAt {α : Type} (f : Kernel τ ι → Option α) : KernelCode τ ι α :=
  .look fun k => match f k with
    | some a => .done a
    | none => .stuck

end Statements

section Kernel

def findWaiterStep (waitType : WaitType) (object : ι) (best : Option τ) (candidate : τ) :
    KernelCode τ ι (Option τ) := do
  if ← get fun k => isWaiter k waitType object candidate then
    match best with
    | none => pure (some candidate)
    | some b =>
        if ← get fun k => outranks k candidate b then pure (some candidate) else pure best
  else pure best

def findWaiterCode (waitType : WaitType) (object : ι) : KernelCode τ ι (Option τ) := do
  foldOver (findWaiterStep waitType object) none (← get Kernel.tasks)

def wakeTaskCode (task : τ) (result : Status) : KernelCode τ ι Unit := do
  assign task fun t => { t with waitResult := result }
  assign task fun t => { t with waitType := .none }
  assign task fun t => { t with waitObject := none }
  assign task fun t => { t with waitBuffer := none }
  assign task fun t => { t with waitForever := false }
  assign task fun t => { t with state := .ready }

def blockCurrentCode (waitType : WaitType) (object : ι) (buffer : Option BufferPtr)
    (timeoutTicks : Word) : KernelCode τ ι Status := do
  match ← get Kernel.currentTask with
  | none => pure .errInvalid
  | some task =>
      if rtosTimeoutValid timeoutTicks = false then pure .errInvalid
      else
        assign task fun t => { t with waitType := waitType }
        assign task fun t => { t with waitObject := some object }
        assign task fun t => { t with waitBuffer := buffer }
        modify fun k => { k with waitSequence := k.waitSequence + 1 }
        let sequence ← get Kernel.waitSequence
        assign task fun t => { t with waitSequence := sequence }
        assign task fun t => { t with waitResult := .ok }
        assign task fun t => { t with waitForever := decide (timeoutTicks = rtosWaitForever) }
        let forever ← get fun k => (k.tcb task).waitForever
        if forever = false then
          let now ← get Kernel.tick
          assign task fun t => { t with wakeTick := now + timeoutTicks }
        assign task fun t => { t with state := .blocked }
        pendContextSwitchCode
        pure .ok

/-- `left && right`. -/
def both (left right : KernelCode τ ι Bool) : KernelCode τ ι Bool := do
  if ← left then right else pure false

/-- The body of the inner loop of `rtos_kernel_recompute_priorities`, with its flag. -/
def relaxStep (changed : Bool) (waiter : τ) : KernelCode τ ι Bool := do
  if ← both (get fun k => decide ((k.tcb waiter).state = .blocked))
      (get fun k => decide ((k.tcb waiter).waitType = .mutex)) then
    match ← get fun k => (k.tcb waiter).waitObject with
    | none => pure changed
    | some mutex =>
        match ← get fun k => (k.objects mutex).owner? with
        | none => pure changed
        | some _ =>
            let owner ← lookAt fun k => (k.objects mutex).owner?
            let held ← get fun k => (k.tcb owner).effectivePriority
            if held < (← get fun k => (k.tcb waiter).effectivePriority) then
              let owner ← lookAt fun k => (k.objects mutex).owner?
              let lent ← get fun k => (k.tcb waiter).effectivePriority
              assign owner fun t => { t with effectivePriority := lent }
              pure true
            else pure changed
  else pure changed

def resetStep (task : τ) : KernelCode τ ι Unit := do
  let base ← get fun k => (k.tcb task).basePriority
  assign task fun t => { t with effectivePriority := base }

/-- The outer loop, which leaves as soon as a pass changes nothing. -/
def relaxPasses (tasks : List τ) : Nat → KernelCode τ ι Unit
  | 0 => pure ()
  | n + 1 => do
      if ← foldOver relaxStep false tasks then relaxPasses tasks n else pure ()

def recomputePrioritiesCode : KernelCode τ ι Unit := do
  let tasks ← get Kernel.tasks
  forEach resetStep tasks
  relaxPasses tasks tasks.length

def maybePreemptCode (task : Option τ) : KernelCode τ ι Unit := do
  if ← get fun k => rtosKernelShouldPreempt k task then pendContextSwitchCode else pure ()

/-- Does a task run at `priority`? -/
def runsAt (k : Kernel τ ι) (priority : Nat) (task : τ) : Bool :=
  (decide ((k.tcb task).state = .ready) || decide ((k.tcb task).state = .running)) &&
    decide ((k.tcb task).effectivePriority = priority)

/-- One turn of the inner loop of `rtos_select_next`. -/
def selectAt (priority : Nat) (tasks : List τ) (index : Nat) : KernelCode τ ι (Option τ) :=
  match tasks[index]? with
  | none => pure none
  | some task => do
      if ← get fun k => runsAt k priority task then
        modify fun k =>
          { k with rrCursor := Function.update k.rrCursor priority (BitVec.ofNat 8 index) }
        pure (some task)
      else pure none

def selectNextCode : KernelCode τ ι (Option τ) := do
  let tasks ← get Kernel.tasks
  firstOf (fun priority => do
    let start ← get fun k => k.rrCursor priority
    firstOf (selectAt priority tasks)
      ((List.range tasks.length).map fun offset => (start.toNat + (offset + 1)) % tasks.length))
    (List.range rtosPriorityLevels).reverse

def yieldCurrentCode (current : Option τ) : KernelCode τ ι Unit :=
  match current with
  | none => pure ()
  | some task => do
      if (← get fun k => (k.tcb task).state) = .running then
        assign task fun t => { t with state := .ready }
      else pure ()

def dispatchCode : KernelCode τ ι Unit := do
  match ← selectNextCode with
  | none => .stuck
  | some next =>
      assign next fun t => { t with state := .running }
      modify fun k => { k with currentTask := some next }

/-- `rtos_schedule_from_pendsv`; the hardware has cleared the pending bit. A fault never
returns. -/
def scheduleCode (stackValid : Bool) : KernelCode τ ι Unit := do
  modify fun k => { k with pended := false }
  let current ← get Kernel.currentTask
  if current.isSome && !stackValid then .stuck
  else
    yieldCurrentCode current
    dispatchCode

end Kernel

section Ipc

def semaphoreTakeCode (self : τ) (p : ι) (timeoutTicks : Word) : KernelCode τ ι Outcome := do
  let s ← lookAt fun k => (k.objects p).semaphore?
  if s.count ≠ 0 then
    assignObject p (.semaphore { s with count := s.count - 1 })
    mark (.took p self)
    pure (.returned .ok)
  else if timeoutTicks = 0 then pure (.returned .errBusy)
  else
    let _ ← blockCurrentCode .semaphore p none timeoutTicks
    pure .suspended

def semaphoreGiveCommonCode (p : ι) : KernelCode τ ι Status := do
  match ← findWaiterCode .semaphore p with
  | some waiter =>
      wakeTaskCode waiter .ok
      mark (.took p waiter)
      maybePreemptCode (some waiter)
      pure .ok
  | none =>
      let s ← lookAt fun k => (k.objects p).semaphore?
      if s.maximumCount ≤ s.count then pure .errBusy
      else
        assignObject p (.semaphore { s with count := s.count + 1 })
        pure .ok

def holdMutex (p : ι) (owner : τ) : KernelCode τ ι Unit := do
  assignObject p (.mutex ⟨some owner⟩)
  assign owner fun t => { t with mutexHoldCount := t.mutexHoldCount + 1 }
  mark (.locked p owner)

def mutexLockCode (self : τ) (p : ι) (timeoutTicks : Word) : KernelCode τ ι Outcome := do
  let m ← lookAt fun k => (k.objects p).mutex?
  match m.owner with
  | none =>
      holdMutex p self
      pure (.returned .ok)
  | some owner =>
      if owner = self then pure (.returned .errBusy)
      else if timeoutTicks = 0 then pure (.returned .errBusy)
      else
        let _ ← blockCurrentCode .mutex p none timeoutTicks
        recomputePrioritiesCode
        pure .suspended

def releaseHoldCode (p : ι) (self : τ) : KernelCode τ ι Unit := do
  let holds ← get fun k => (k.tcb self).mutexHoldCount
  if holds ≠ 0 then
    assign self fun t => { t with mutexHoldCount := t.mutexHoldCount - 1 }
  else pure ()
  mark (.unlocked p self)

/-- The mutex goes to the waiter that was found, or becomes free. -/
def passOnCode (p : ι) (waiter : Option τ) : KernelCode τ ι Unit :=
  match waiter with
  | some waiter => do
      holdMutex p waiter
      wakeTaskCode waiter .ok
  | none => assignObject p (.mutex ⟨none⟩)

def mutexUnlockCode (self : τ) (p : ι) : KernelCode τ ι Status := do
  let m ← lookAt fun k => (k.objects p).mutex?
  if m.owner ≠ some self then pure .errNotOwner
  else
    releaseHoldCode p self
    let waiter ← findWaiterCode .mutex p
    passOnCode p waiter
    recomputePrioritiesCode
    maybePreemptCode waiter
    pure .ok

/-- The loop of `rtos_copy_bytes`: `put` writes byte `index` of the destination. -/
def copyBytesCode (byte : Kernel τ ι → Nat → Byte) (put : Nat → Byte → KernelCode τ ι Unit)
    (length : Nat) : KernelCode τ ι Unit :=
  forEach (fun index => do put index (← get fun k => byte k index)) (List.range length)

def putBuffer (buffer : BufferPtr) (index : Nat) (b : Byte) : KernelCode τ ι Unit :=
  modify fun k => k.setBuffer buffer (Function.update (k.memory buffer) index b)

def modifyQueue (p : ι) (f : Queue → Queue) : KernelCode τ ι Unit :=
  modify fun k => match k.objects p with
    | .queue q => k.setObject p (.queue (f q))
    | _ => k

def putStorage (p : ι) (target index : Nat) (b : Byte) : KernelCode τ ι Unit :=
  modifyQueue p fun q => { q with storage := Function.update q.storage (target + index) b }

/-- `bytes` is the block the pushed item lies in. -/
def queuePushCode (p : ι) (sender : Option τ) (bytes : Kernel τ ι → Nat → Byte) :
    KernelCode τ ι Unit := do
  let q ← lookAt fun k => (k.objects p).queue?
  let item ← get fun k => Kernel.itemBytes (bytes k) q
  copyBytesCode bytes (putStorage p (q.tail * q.itemSize).toNat) q.itemSize.toNat
  modifyQueue p fun q => { q with tail := (q.tail + 1) % q.capacity }
  modifyQueue p fun q => { q with count := q.count + 1 }
  mark (.accepted p sender item)

def headByte (p : ι) (k : Kernel τ ι) (index : Nat) : Byte :=
  match k.objects p with
  | .queue q => q.storage ((q.head * q.itemSize).toNat + index)
  | _ => 0

def queuePopCode (p : ι) (receiver : Option τ) (item : BufferPtr) : KernelCode τ ι Unit := do
  let q ← lookAt fun k => (k.objects p).queue?
  copyBytesCode (headByte p) (putBuffer item) q.itemSize.toNat
  modifyQueue p fun q => { q with head := (q.head + 1) % q.capacity }
  modifyQueue p fun q => { q with count := q.count - 1 }
  mark (.delivered p receiver (Kernel.itemBytes (← get fun k => k.memory item) q))

/-- The item goes straight into the buffer of a sleeping receiver. -/
def handItemCode (caller : Option τ) (p : ι) (q : Queue) (item : BufferPtr) (receiver : τ) :
    KernelCode τ ι Unit := do
  let sent ← get fun k => Kernel.itemBytes (k.memory item) q
  match ← get fun k => (k.tcb receiver).waitBuffer with
  | some buffer => copyBytesCode (fun k => k.memory item) (putBuffer buffer) q.itemSize.toNat
  | none => pure ()
  let received ← get fun k => Kernel.itemBytes (waitBytes k receiver) q
  mark (.accepted p caller sent)
  mark (.delivered p (some receiver) received)
  wakeTaskCode receiver .ok

def queueSendCommonCode (caller : Option τ) (p : ι) (item : BufferPtr) :
    KernelCode τ ι Status := do
  let q ← lookAt fun k => (k.objects p).queue?
  match ← findWaiterCode .queueReceive p with
  | some receiver =>
      handItemCode caller p q item receiver
      maybePreemptCode (some receiver)
      pure .ok
  | none =>
      if q.capacity ≤ q.count then pure .errBusy
      else
        queuePushCode p caller fun k => k.memory item
        pure .ok

def queueReceiveCommonCode (caller : Option τ) (p : ι) (item : BufferPtr) :
    KernelCode τ ι Status := do
  let q ← lookAt fun k => (k.objects p).queue?
  if q.count = 0 then pure .errBusy
  else
    queuePopCode p caller item
    match ← findWaiterCode .queueSend p with
    | some sender =>
        queuePushCode p (some sender) fun k => waitBytes k sender
        wakeTaskCode sender .ok
        maybePreemptCode (some sender)
        pure .ok
    | none => pure .ok

/-- The section of the thread-mode send and receive. -/
def queueTryOrWaitCode (waitType : WaitType) (common : KernelCode τ ι Status) (p : ι)
    (item : BufferPtr) (timeoutTicks : Word) : KernelCode τ ι Outcome := do
  let result ← common
  if result = .errBusy ∧ timeoutTicks ≠ 0 then
    let _ ← blockCurrentCode waitType p (some item) timeoutTicks
    pure .suspended
  else pure (.returned result)

def taskDelayCode (self : τ) (ticks : Word) : KernelCode τ ι Outcome := do
  let now ← get Kernel.tick
  assign self fun t => { t with wakeTick := now + ticks }
  assign self fun t => { t with waitForever := false }
  assign self fun t => { t with state := .delayed }
  pendContextSwitchCode
  pure .suspended

/-- The tests a call makes before it enters its section. A call that fails one of them, a
yield and a delay of nothing have no section. -/
def callTests (k : Kernel τ ι) (mode : Mode) : Call ι → Bool
  | .taskDelay ticks =>
      decide (ticks ≠ 0) && rtosKernelThreadApiValid k mode && rtosTimeoutValid ticks &&
        decide (ticks ≠ rtosWaitForever)
  | .semaphoreTake (some p) timeoutTicks =>
      (k.objects p).semaphore?.isSome && rtosTimeoutValid timeoutTicks &&
        rtosKernelThreadApiValid k mode
  | .semaphoreGive (some p) =>
      (k.objects p).semaphore?.isSome && rtosKernelThreadApiValid k mode
  | .semaphoreGiveFromIsr (some p) =>
      (k.objects p).semaphore?.isSome && rtosPortIsKernelAwareIsr k mode
  | .mutexLock (some p) timeoutTicks =>
      (k.objects p).mutex?.isSome && rtosTimeoutValid timeoutTicks &&
        rtosKernelThreadApiValid k mode
  | .mutexUnlock (some p) => (k.objects p).mutex?.isSome && rtosKernelThreadApiValid k mode
  | .queueSend (some p) (some _) timeoutTicks =>
      (k.objects p).queue?.isSome && rtosTimeoutValid timeoutTicks &&
        rtosKernelThreadApiValid k mode
  | .queueReceive (some p) (some _) timeoutTicks =>
      (k.objects p).queue?.isSome && rtosTimeoutValid timeoutTicks &&
        rtosKernelThreadApiValid k mode
  | .queueSendFromIsr (some p) (some _) =>
      (k.objects p).queue?.isSome && rtosPortIsKernelAwareIsr k mode
  | .queueReceiveFromIsr (some p) (some _) =>
      (k.objects p).queue?.isSome && rtosPortIsKernelAwareIsr k mode
  | _ => false

/-- What a call does in its section. `caller` is the local variable `self` of a thread, and
none in a handler. -/
def callCode (caller : Option τ) : Call ι → KernelCode τ ι Outcome
  | .semaphoreGive (some p) => .returned <$> semaphoreGiveCommonCode p
  | .semaphoreGiveFromIsr (some p) => .returned <$> semaphoreGiveCommonCode p
  | .queueSendFromIsr (some p) (some item) => .returned <$> queueSendCommonCode caller p item
  | .queueReceiveFromIsr (some p) (some item) =>
      .returned <$> queueReceiveCommonCode caller p item
  | .queueSend (some p) (some item) timeoutTicks =>
      queueTryOrWaitCode .queueSend (queueSendCommonCode caller p item) p item timeoutTicks
  | .queueReceive (some p) (some item) timeoutTicks =>
      queueTryOrWaitCode .queueReceive (queueReceiveCommonCode caller p item) p item timeoutTicks
  | call =>
      match caller, call with
      | some self, .taskDelay ticks => taskDelayCode self ticks
      | some self, .semaphoreTake (some p) timeoutTicks => semaphoreTakeCode self p timeoutTicks
      | some self, .mutexLock (some p) timeoutTicks => mutexLockCode self p timeoutTicks
      | some self, .mutexUnlock (some p) => .returned <$> mutexUnlockCode self p
      | _, _ => .stuck

end Ipc

end Stm32f411.SectionCode
