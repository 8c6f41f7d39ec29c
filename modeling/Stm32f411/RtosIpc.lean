import Stm32f411.RtosKernel

/-!
The functions of `rtos_ipc.c`. Each runs inside one critical section and is therefore
one step. The events recorded on the way are not part of the code: they mark where a
token, a mutex or an item changes hands.
-/

namespace Stm32f411.RtosIpc

open Stm32f411.RtosTypes
open Stm32f411.RtosKernel

variable {τ ι : Type} [DecidableEq τ] [DecidableEq ι]

/-- Copy `length` bytes, in order, to offset `target` of one block from offset `source`
of another. -/
def rtosCopyBytes (destination : Nat → Byte) (target : Nat) (bytes : Nat → Byte)
    (source : Nat) : Nat → Nat → Byte
  | 0 => destination
  | length + 1 =>
      Function.update (rtosCopyBytes destination target bytes source length)
        (target + length) (bytes (source + length))

def rtosMaybePreempt (k : Kernel τ ι) (task : Option τ) : Kernel τ ι :=
  if rtosKernelShouldPreempt k task then rtosPortPendContextSwitch k else k

section Semaphore

def rtosSemaphoreInit (k : Kernel τ ι) (semaphore : Option ι)
    (initialCount maximumCount : Word) : Kernel τ ι × Status :=
  match semaphore with
  | none => (k, .errInvalid)
  | some p =>
      if maximumCount = 0 ∨ maximumCount < initialCount then (k, .errInvalid)
      else if k.initialized = false ∨ k.running = true then (k, .errState)
      else
        ((k.setObject p (.semaphore ⟨initialCount, maximumCount⟩)).record
          (.initialised p (.semaphore initialCount maximumCount)), .ok)

def rtosSemaphoreTake (k : Kernel τ ι) (mode : Mode) (semaphore : Option ι)
    (timeoutTicks : Word) : Kernel τ ι × Outcome :=
  match semaphore with
  | none => (k, .returned .errInvalid)
  | some p =>
      match (k.objects p).semaphore? with
      | none => (k, .returned .errInvalid)
      | some s =>
          if rtosTimeoutValid timeoutTicks = false then (k, .returned .errInvalid)
          else if rtosKernelThreadApiValid k mode = false then (k, .returned .errState)
          else
            match k.currentTask with
            | none => (k, .returned .errState)
            | some self =>
                if s.count ≠ 0 then
                  ((k.setObject p (.semaphore { s with count := s.count - 1 })).record
                    (.took p self), .returned .ok)
                else if timeoutTicks = 0 then (k, .returned .errBusy)
                else
                  ((rtosKernelBlockCurrent k .semaphore p none timeoutTicks).1, .suspended)

def rtosSemaphoreGiveCommon (k : Kernel τ ι) (p : ι) (s : Semaphore) :
    Kernel τ ι × Status :=
  match rtosKernelFindWaiter k .semaphore p with
  | some waiter =>
      (rtosMaybePreempt ((rtosKernelWakeTask k (some waiter) .ok).record (.took p waiter))
        (some waiter), .ok)
  | none =>
      if s.maximumCount ≤ s.count then (k, .errBusy)
      else (k.setObject p (.semaphore { s with count := s.count + 1 }), .ok)

/-- `rtos_semaphore_give` and its interrupt variant differ in the context they demand. -/
def semaphoreGiveWhen (k : Kernel τ ι) (contextValid : Bool) (semaphore : Option ι) :
    Kernel τ ι × Status :=
  match semaphore with
  | none => (k, .errInvalid)
  | some p =>
      match (k.objects p).semaphore? with
      | none => (k, .errInvalid)
      | some s =>
          if contextValid = false then (k, .errState)
          else rtosSemaphoreGiveCommon k p s

def rtosSemaphoreGive (k : Kernel τ ι) (mode : Mode) (semaphore : Option ι) :
    Kernel τ ι × Status :=
  semaphoreGiveWhen k (rtosKernelThreadApiValid k mode) semaphore

def rtosSemaphoreGiveFromIsr (k : Kernel τ ι) (mode : Mode) (semaphore : Option ι) :
    Kernel τ ι × Status :=
  semaphoreGiveWhen k (rtosPortIsKernelAwareIsr k mode) semaphore

end Semaphore

section Mutex

def rtosMutexInit (k : Kernel τ ι) (mutex : Option ι) : Kernel τ ι × Status :=
  match mutex with
  | none => (k, .errInvalid)
  | some p =>
      if k.initialized = false ∨ k.running = true then (k, .errState)
      else ((k.setObject p (.mutex ⟨none⟩)).record (.initialised p .mutex), .ok)

def rtosMutexLock (k : Kernel τ ι) (mode : Mode) (mutex : Option ι)
    (timeoutTicks : Word) : Kernel τ ι × Outcome :=
  match mutex with
  | none => (k, .returned .errInvalid)
  | some p =>
      match (k.objects p).mutex? with
      | none => (k, .returned .errInvalid)
      | some m =>
          if rtosTimeoutValid timeoutTicks = false then (k, .returned .errInvalid)
          else if rtosKernelThreadApiValid k mode = false then (k, .returned .errState)
          else
            match k.currentTask with
            | none => (k, .returned .errState)
            | some self =>
                match m.owner with
                | none =>
                    (((k.setObject p (.mutex ⟨some self⟩)).modifyTask self fun t =>
                      { t with mutexHoldCount := t.mutexHoldCount + 1 }).record
                        (.locked p self), .returned .ok)
                | some owner =>
                    if owner = self then (k, .returned .errBusy)
                    else if timeoutTicks = 0 then (k, .returned .errBusy)
                    else
                      (rtosKernelRecomputePriorities
                        (rtosKernelBlockCurrent k .mutex p none timeoutTicks).1, .suspended)

/-- The owner gives the mutex up: its hold count falls, unless it already reads zero. -/
def releaseHold (k : Kernel τ ι) (p : ι) (self : τ) : Kernel τ ι :=
  (k.modifyTask self fun t =>
    { t with mutexHoldCount := if t.mutexHoldCount ≠ 0 then t.mutexHoldCount - 1
                               else t.mutexHoldCount }).record (.unlocked p self)

/-- The mutex goes straight to `waiter`, which wakes up owning it. -/
def grantHold (k : Kernel τ ι) (p : ι) (waiter : τ) : Kernel τ ι :=
  rtosKernelWakeTask
    (((k.setObject p (.mutex ⟨some waiter⟩)).modifyTask waiter fun t =>
      { t with mutexHoldCount := t.mutexHoldCount + 1 }).record (.locked p waiter))
    (some waiter) .ok

def rtosMutexUnlock (k : Kernel τ ι) (mode : Mode) (mutex : Option ι) :
    Kernel τ ι × Status :=
  match mutex with
  | none => (k, .errInvalid)
  | some p =>
      match (k.objects p).mutex? with
      | none => (k, .errInvalid)
      | some m =>
          if rtosKernelThreadApiValid k mode = false then (k, .errState)
          else
            match k.currentTask with
            | none => (k, .errState)
            | some self =>
                if m.owner ≠ some self then (k, .errNotOwner)
                else
                  let released := releaseHold k p self
                  match rtosKernelFindWaiter released .mutex p with
                  | some waiter =>
                      (rtosMaybePreempt
                        (rtosKernelRecomputePriorities (grantHold released p waiter))
                        (some waiter), .ok)
                  | none =>
                      (rtosMaybePreempt
                        (rtosKernelRecomputePriorities (released.setObject p (.mutex ⟨none⟩)))
                        none, .ok)

end Mutex

section Queue

def rtosQueueInit (k : Kernel τ ι) (queue : Option ι) (storage : Option (Nat → Byte))
    (capacity itemSize : Word) : Kernel τ ι × Status :=
  match queue, storage with
  | some p, some storage =>
      if capacity = 0 ∨ itemSize = 0 ∨ rtosQueueMaxItemSize < itemSize ∨
          BitVec.allOnes 32 / itemSize < capacity then
        (k, .errInvalid)
      else if k.initialized = false ∨ k.running = true then (k, .errState)
      else
        ((k.setObject p (.queue
          { storage := storage, capacity := capacity, itemSize := itemSize,
            head := 0, tail := 0, count := 0 })).record
          (.initialised p (.queue capacity itemSize)), .ok)
  | _, _ => (k, .errInvalid)

def rtosQueuePush (q : Queue) (item : Nat → Byte) : Queue :=
  { q with
    storage := rtosCopyBytes q.storage (q.tail * q.itemSize).toNat item 0 q.itemSize.toNat
    tail := (q.tail + 1) % q.capacity
    count := q.count + 1 }

/-- The queue after a pop, and the bytes of the caller's buffer. -/
def rtosQueuePop (q : Queue) (item : Nat → Byte) : Queue × (Nat → Byte) :=
  ({ q with head := (q.head + 1) % q.capacity, count := q.count - 1 },
    rtosCopyBytes item 0 q.storage (q.head * q.itemSize).toNat q.itemSize.toNat)

/-- The block a sleeping caller's `wait_buffer` points to. -/
def waitBytes (k : Kernel τ ι) (task : τ) : Nat → Byte :=
  match (k.tcb task).waitBuffer with
  | some buffer => k.memory buffer
  | none => fun _ => 0

def setWaitBytes (k : Kernel τ ι) (task : τ) (bytes : Nat → Byte) : Kernel τ ι :=
  match (k.tcb task).waitBuffer with
  | some buffer => k.setBuffer buffer bytes
  | none => k

/-- An item goes straight from the sender's buffer into a sleeping receiver's. -/
def handItem (k : Kernel τ ι) (caller : Option τ) (p : ι) (q : Queue) (item : BufferPtr)
    (receiver : τ) : Kernel τ ι :=
  let copied := setWaitBytes k receiver
    (rtosCopyBytes (waitBytes k receiver) 0 (k.memory item) 0 q.itemSize.toNat)
  rtosKernelWakeTask
    ((copied.record (.accepted p caller (Kernel.itemBytes (k.memory item) q))).record
      (.delivered p (some receiver) (Kernel.itemBytes (waitBytes copied receiver) q)))
    (some receiver) .ok

def pushItem (k : Kernel τ ι) (sender : Option τ) (p : ι) (q : Queue) (bytes : Nat → Byte) :
    Kernel τ ι :=
  (k.setObject p (.queue (rtosQueuePush q bytes))).record
    (.accepted p sender (Kernel.itemBytes bytes q))

def popItem (k : Kernel τ ι) (caller : Option τ) (p : ι) (q : Queue) (item : BufferPtr) :
    Kernel τ ι :=
  ((k.setBuffer item (rtosQueuePop q (k.memory item)).2).setObject p
    (.queue (rtosQueuePop q (k.memory item)).1)).record
      (.delivered p caller (Kernel.itemBytes (rtosQueuePop q (k.memory item)).2 q))

def rtosQueueSendCommon (k : Kernel τ ι) (caller : Option τ) (p : ι) (q : Queue)
    (item : BufferPtr) : Kernel τ ι × Status :=
  match rtosKernelFindWaiter k .queueReceive p with
  | some receiver =>
      (rtosMaybePreempt (handItem k caller p q item receiver) (some receiver), .ok)
  | none =>
      if q.capacity ≤ q.count then (k, .errBusy)
      else (pushItem k caller p q (k.memory item), .ok)

def rtosQueueReceiveCommon (k : Kernel τ ι) (caller : Option τ) (p : ι) (q : Queue)
    (item : BufferPtr) : Kernel τ ι × Status :=
  if q.count = 0 then (k, .errBusy)
  else
    let popped := popItem k caller p q item
    match rtosKernelFindWaiter popped .queueSend p with
    | some sender =>
        let refilled := pushItem popped (some sender) p (rtosQueuePop q (k.memory item)).1
          (waitBytes popped sender)
        (rtosMaybePreempt (rtosKernelWakeTask refilled (some sender) .ok) (some sender), .ok)
    | none => (popped, .ok)

/-- The thread-mode send and receive: try, and sleep on the buffer if that is busy and
the caller is ready to wait. -/
def queueTryOrWait (k : Kernel τ ι) (mode : Mode) (waitType : WaitType)
    (common : Kernel τ ι → Option τ → ι → Queue → BufferPtr → Kernel τ ι × Status)
    (queue : Option ι) (item : Option BufferPtr) (timeoutTicks : Word) :
    Kernel τ ι × Outcome :=
  match queue, item with
  | some p, some item =>
      match (k.objects p).queue? with
      | none => (k, .returned .errInvalid)
      | some q =>
          if rtosTimeoutValid timeoutTicks = false then (k, .returned .errInvalid)
          else if rtosKernelThreadApiValid k mode = false then (k, .returned .errState)
          else
            let result := common k k.currentTask p q item
            if result.2 = .errBusy ∧ timeoutTicks ≠ 0 then
              ((rtosKernelBlockCurrent result.1 waitType p (some item) timeoutTicks).1,
                .suspended)
            else (result.1, .returned result.2)
  | _, _ => (k, .returned .errInvalid)

def rtosQueueSend (k : Kernel τ ι) (mode : Mode) (queue : Option ι)
    (item : Option BufferPtr) (timeoutTicks : Word) : Kernel τ ι × Outcome :=
  queueTryOrWait k mode .queueSend rtosQueueSendCommon queue item timeoutTicks

def rtosQueueReceive (k : Kernel τ ι) (mode : Mode) (queue : Option ι)
    (item : Option BufferPtr) (timeoutTicks : Word) : Kernel τ ι × Outcome :=
  queueTryOrWait k mode .queueReceive rtosQueueReceiveCommon queue item timeoutTicks

def queueTryFromIsr (k : Kernel τ ι) (mode : Mode)
    (common : Kernel τ ι → Option τ → ι → Queue → BufferPtr → Kernel τ ι × Status)
    (queue : Option ι) (item : Option BufferPtr) : Kernel τ ι × Status :=
  match queue, item with
  | some p, some item =>
      match (k.objects p).queue? with
      | none => (k, .errInvalid)
      | some q =>
          if rtosPortIsKernelAwareIsr k mode = false then (k, .errState)
          else common k none p q item
  | _, _ => (k, .errInvalid)

def rtosQueueSendFromIsr (k : Kernel τ ι) (mode : Mode) (queue : Option ι)
    (item : Option BufferPtr) : Kernel τ ι × Status :=
  queueTryFromIsr k mode rtosQueueSendCommon queue item

def rtosQueueReceiveFromIsr (k : Kernel τ ι) (mode : Mode) (queue : Option ι)
    (item : Option BufferPtr) : Kernel τ ι × Status :=
  queueTryFromIsr k mode rtosQueueReceiveCommon queue item

end Queue

end Stm32f411.RtosIpc
