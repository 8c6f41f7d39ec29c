import Mathlib.Logic.Function.Basic
import Mathlib.Tactic.Simps.Basic

/-!
The data of `rtos_config.h`, `rtos.h` and `rtos_internal.h`.

Task control blocks and synchronisation objects are named by the pointers the
application holds to them: `τ` is the type of TCB pointers and `ι` the type of
object pointers, with `none` for NULL. A caller's item buffer is a block of
bytes of its own.
-/

namespace Stm32f411.RtosTypes

/-- `uint32_t`. -/
abbrev Word := BitVec 32

/-- `uint8_t` as a unit of memory. -/
abbrev Byte := BitVec 8

abbrev BufferPtr := Nat

def rtosPriorityLevels : Nat := 8
def rtosIdlePriority : Nat := 0
def rtosMinStackWords : Word := 128
def rtosIdleStackWords : Word := 128
def rtosQueueMaxItemSize : Word := 64
def rtosWaitForever : Word := 0xFFFFFFFF
def int32Max : Word := 0x7FFFFFFF
def rtosExcReturnThreadPsp : Word := 0xFFFFFFFD

inductive Status
  | ok | errInvalid | errTimeout | errState | errBusy | errNotOwner | errLimit | errStack
  deriving DecidableEq, Repr

inductive TaskState
  | ready | running | delayed | blocked | terminated
  deriving DecidableEq, Repr

inductive FaultReason
  | none | stack | kernelInvariant | taskReturnWithMutex | hardfault
  deriving DecidableEq, Repr

inductive WaitType
  | none | semaphore | mutex | queueSend | queueReceive
  deriving DecidableEq, Repr

/-- A terminal fault: `rtos_kernel_fault` records it and never returns. -/
structure Fault (τ : Type) where
  reason : FaultReason
  task : Option τ
  deriving DecidableEq

/-- `RTOS_Config_t`. -/
structure Config where
  tickHz : Word
  maxSyscallIrqPriority : Nat
  deriving DecidableEq

/-- `RTOS_Task_t`, less its debug name and padding. -/
structure RtosTask (ι : Type) where
  stackPointer : Word
  excReturn : Word
  function : Word
  argument : Word
  stackBase : Word
  stackWords : Word
  waitObject : Option ι
  waitBuffer : Option BufferPtr
  wakeTick : Word
  waitSequence : Word
  waitResult : Status
  state : TaskState
  basePriority : Nat
  effectivePriority : Nat
  waitType : WaitType
  waitForever : Bool
  mutexHoldCount : BitVec 8
  deriving DecidableEq

structure Semaphore where
  count : Word
  maximumCount : Word
  deriving DecidableEq

structure Mutex (τ : Type) where
  owner : Option τ
  deriving DecidableEq

structure Queue where
  storage : Nat → Byte
  capacity : Word
  itemSize : Word
  head : Word
  tail : Word
  count : Word

/-- What lies at an object pointer. The magic word tells the three kinds apart;
`raw` is memory that carries none of the three magics. -/
inductive Object (τ : Type)
  | raw
  | semaphore (s : Semaphore)
  | mutex (m : Mutex τ)
  | queue (q : Queue)

namespace Object

variable {τ : Type}

def semaphore? : Object τ → Option Semaphore
  | .semaphore s => some s
  | _ => none

def mutex? : Object τ → Option (Mutex τ)
  | .mutex m => some m
  | _ => none

def queue? : Object τ → Option Queue
  | .queue q => some q
  | _ => none

/-- The owner recorded in a mutex; no other object has one. -/
def owner? (o : Object τ) : Option τ :=
  o.mutex?.bind Mutex.owner

@[simp] theorem semaphore?_semaphore (s : Semaphore) :
    (Object.semaphore s : Object τ).semaphore? = some s := rfl

@[simp] theorem mutex?_mutex (m : Mutex τ) : (Object.mutex m).mutex? = some m := rfl

@[simp] theorem queue?_queue (q : Queue) : (Object.queue q : Object τ).queue? = some q := rfl

@[simp] theorem owner?_mutex (m : Mutex τ) : (Object.mutex m).owner? = m.owner := rfl

@[simp] theorem owner?_semaphore (s : Semaphore) :
    (Object.semaphore s : Object τ).owner? = none := rfl

@[simp] theorem owner?_queue (q : Queue) : (Object.queue q : Object τ).owner? = none := rfl

@[simp] theorem owner?_raw : (Object.raw : Object τ).owner? = none := rfl

theorem semaphore?_eq_some {o : Object τ} {s : Semaphore} :
    o.semaphore? = some s ↔ o = .semaphore s := by
  cases o <;> simp [semaphore?]

theorem mutex?_eq_some {o : Object τ} {m : Mutex τ} :
    o.mutex? = some m ↔ o = .mutex m := by
  cases o <;> simp [mutex?]

theorem queue?_eq_some {o : Object τ} {q : Queue} :
    o.queue? = some q ↔ o = .queue q := by
  cases o <;> simp [queue?]

theorem owner?_eq_some {o : Object τ} {t : τ} :
    o.owner? = some t ↔ ∃ m, o = .mutex m ∧ m.owner = some t := by
  cases o <;> simp [owner?, mutex?]

end Object

/-- The kind of object a blocked task of each wait type waits for. -/
def WaitType.matches {τ : Type} : WaitType → Object τ → Prop
  | .semaphore, .semaphore _ => True
  | .mutex, .mutex _ => True
  | .queueSend, .queue _ => True
  | .queueReceive, .queue _ => True
  | _, _ => False

@[simp] theorem WaitType.matches_semaphore {τ : Type} {waitType : WaitType} {s : Semaphore} :
    waitType.matches (.semaphore s : Object τ) ↔ waitType = .semaphore := by
  cases waitType <;> simp [WaitType.matches]

@[simp] theorem WaitType.matches_mutex {τ : Type} {waitType : WaitType} {m : Mutex τ} :
    waitType.matches (.mutex m) ↔ waitType = .mutex := by
  cases waitType <;> simp [WaitType.matches]

@[simp] theorem WaitType.matches_queue {τ : Type} {waitType : WaitType} {q : Queue} :
    waitType.matches (.queue q : Object τ) ↔
      waitType = .queueSend ∨ waitType = .queueReceive := by
  cases waitType <;> simp [WaitType.matches]

/-- The arguments with which an object was initialised. -/
inductive ObjectInit
  | semaphore (initialCount maximumCount : Word)
  | mutex
  | queue (capacity itemSize : Word)
  deriving DecidableEq

/-- The calls an application can make while the kernel runs, with their arguments. -/
inductive Call (ι : Type)
  | taskYield
  | taskDelay (ticks : Word)
  | semaphoreTake (semaphore : Option ι) (timeoutTicks : Word)
  | semaphoreGive (semaphore : Option ι)
  | semaphoreGiveFromIsr (semaphore : Option ι)
  | mutexLock (mutex : Option ι) (timeoutTicks : Word)
  | mutexUnlock (mutex : Option ι)
  | queueSend (queue : Option ι) (item : Option BufferPtr) (timeoutTicks : Word)
  | queueReceive (queue : Option ι) (item : Option BufferPtr) (timeoutTicks : Word)
  | queueSendFromIsr (queue : Option ι) (item : Option BufferPtr)
  | queueReceiveFromIsr (queue : Option ι) (item : Option BufferPtr)
  deriving DecidableEq

/-- What happened, in order. A `none` caller, sender or receiver is an interrupt
handler or the start-up code. The kernel reads none of this: it is the history the
statements about whole runs speak of. -/
inductive Event (τ ι : Type)
  | initialised (object : ι) (kind : ObjectInit)
  | called (caller : Option τ) (call : Call ι) (data : List Byte)
  | took (semaphore : ι) (taker : τ)
  | locked (mutex : ι) (owner : τ)
  | unlocked (mutex : ι) (owner : τ)
  | accepted (queue : ι) (sender : Option τ) (item : List Byte)
  | delivered (queue : ι) (receiver : Option τ) (item : List Byte)
  | returned (caller : Option τ) (call : Call ι) (result : Status) (data : List Byte)
  deriving DecidableEq

/-- The kernel's variables (`rtos_kernel.c`, the shared tick and the PendSV pending
bit), the memory it is handed, and the history of the run. -/
structure Kernel (τ ι : Type) where
  tcb : τ → RtosTask ι
  objects : ι → Object τ
  memory : BufferPtr → Nat → Byte
  currentTask : Option τ
  tasks : List τ
  applicationTaskCount : Nat
  waitSequence : Word
  rrCursor : Nat → BitVec 8
  initialized : Bool
  running : Bool
  config : Config
  maxSyscallPriorityMask : Word
  tick : Word
  pended : Bool
  log : List (Event τ ι)

/-- What the linker and `rtos_config.h` fix: the idle task's TCB, entry and stack, and
`RTOS_MAX_TASKS`, which is left open. -/
structure Platform (τ : Type) where
  idle : τ
  idleEntry : Word
  idleStack : Word
  maxTasks : Nat
  idleEntry_ne : idleEntry ≠ 0
  idleStack_ne : idleStack ≠ 0
  idleStack_aligned : idleStack &&& 7 = 0

/-- Where code executes: Thread mode, or a handler given by its exception number and the
four priority bits of its `NVIC->IP` entry. -/
inductive Mode
  | thread
  | handler (exception : Word) (priority : Nat)
  deriving DecidableEq

/-- How a call ends: with a result, or with the caller switched out inside it. -/
inductive Outcome
  | returned (result : Status)
  | suspended
  deriving DecidableEq

namespace Kernel

variable {τ ι : Type} [DecidableEq τ] [DecidableEq ι]

@[simps -fullyApplied]
def modifyTask (k : Kernel τ ι) (task : τ) (f : RtosTask ι → RtosTask ι) : Kernel τ ι :=
  { k with tcb := Function.update k.tcb task (f (k.tcb task)) }

@[simps -fullyApplied]
def setObject (k : Kernel τ ι) (object : ι) (contents : Object τ) : Kernel τ ι :=
  { k with objects := Function.update k.objects object contents }

@[simps -fullyApplied]
def setBuffer (k : Kernel τ ι) (buffer : BufferPtr) (bytes : Nat → Byte) : Kernel τ ι :=
  { k with memory := Function.update k.memory buffer bytes }

@[simps -fullyApplied]
def record (k : Kernel τ ι) (event : Event τ ι) : Kernel τ ι :=
  { k with log := k.log ++ [event] }

/-- The bytes of one item of `queue` that a buffer holds. -/
def itemBytes (bytes : Nat → Byte) (queue : Queue) : List Byte :=
  (List.range queue.itemSize.toNat).map bytes

end Kernel

end Stm32f411.RtosTypes
