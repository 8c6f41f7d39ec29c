import Stm32f411.QueueRoom

/-!
The kernel in other surroundings: with other bytes behind the storage of its queues and behind
the item buffers. The calls that move no item make the same steps there.
-/

namespace Stm32f411.QueueSurroundings

open Stm32f411.RtosTypes
open Stm32f411.RtosKernel
open Stm32f411.RtosIpc
open Stm32f411.RtosSystem

section Splice

variable {α : Type*} {n : Nat} {inside outside : Nat → α}

/-- The first `n` entries of one sequence, and the others of another. -/
def splice (n : Nat) (inside outside : Nat → α) : Nat → α :=
  fun i => if i < n then inside i else outside i

theorem splice_inside {i : Nat} (h : i < n) : splice n inside outside i = inside i :=
  if_pos h

theorem splice_outside {i : Nat} (h : n ≤ i) : splice n inside outside i = outside i :=
  if_neg (Nat.not_lt.mpr h)

@[simp] theorem splice_self (f : Nat → α) : splice n f f = f := by
  funext i
  exact ite_self (f i)

theorem splice_update {i : Nat} (h : i < n) (a : α) :
    Function.update (splice n inside outside) i a =
      splice n (Function.update inside i a) outside := by
  funext j
  rcases eq_or_ne j i with rfl | hj
  · rw [splice_inside h, Function.update_self, Function.update_self]
  · simp only [splice, Function.update_of_ne hj]

end Splice

section Copies

variable {n target source length : Nat} {destination bytes rest : Nat → Byte}

/-- A copy that ends inside its target leaves what lies behind it alone. -/
theorem copyBytes_target (h : target + length ≤ n) :
    rtosCopyBytes (splice n destination rest) target bytes source length =
      splice n (rtosCopyBytes destination target bytes source length) rest := by
  induction length with
  | zero => rfl
  | succ length ih =>
      simp only [rtosCopyBytes]
      rw [ih (by omega), splice_update (by omega)]

/-- A copy that ends inside its source does not see what lies behind it. -/
theorem copyBytes_source (h : source + length ≤ n) :
    rtosCopyBytes destination target (splice n bytes rest) source length =
      rtosCopyBytes destination target bytes source length := by
  induction length with
  | zero => rfl
  | succ length ih =>
      simp only [rtosCopyBytes]
      rw [ih (by omega), splice_inside (by omega)]

theorem itemBytes_splice {q : Queue} (h : q.itemSize.toNat ≤ n) :
    Kernel.itemBytes (splice n bytes rest) q = Kernel.itemBytes bytes q := by
  apply List.map_congr_left
  intro i hi
  exact splice_inside ((List.mem_range.mp hi).trans_le h)

end Copies

section Surroundings

variable {τ ι : Type}

/-- What lies behind the storage of each queue and behind each item buffer. -/
structure Surroundings (ι : Type) where
  storage : ι → Nat → Byte
  memory : BufferPtr → Nat → Byte

/-- The bytes `rtos_queue_init` was given for the items. -/
def storageSize (q : Queue) : Nat :=
  q.capacity.toNat * q.itemSize.toNat

def surroundQueue (rest : Nat → Byte) (q : Queue) : Queue :=
  { q with storage := splice (storageSize q) q.storage rest }

def surroundObject (rest : Nat → Byte) : Object τ → Object τ
  | .queue q => .queue (surroundQueue rest q)
  | object => object

/-- The kernel in other surroundings; the item buffer at `b` is of `size b` bytes. -/
def surround (size : BufferPtr → Nat) (rest : Surroundings ι) (k : Kernel τ ι) : Kernel τ ι :=
  { k with
    objects := fun p => surroundObject (rest.storage p) (k.objects p)
    memory := fun b => splice (size b) (k.memory b) (rest.memory b) }

def surroundWorld (size : BufferPtr → Nat) (rest : Surroundings ι) (w : World τ ι) :
    World τ ι :=
  { w with toKernel := surround size rest w.toKernel }

/-- Application code and initialisers keep to the buffers and to the storage they own. -/
def surroundOp (size : BufferPtr → Nat) (rest : Surroundings ι) : Op τ ι → Op τ ι
  | .write b bytes => .write b (splice (size b) bytes (rest.memory b))
  | .queueInit (some p) (some storage) capacity itemSize =>
      .queueInit (some p)
        (some (splice (capacity.toNat * itemSize.toNat) storage (rest.storage p))) capacity
        itemSize
  | op => op

section Objects

variable {rest : Nat → Byte} {o : Object τ}

@[simp] theorem surroundObject_semaphore? :
    (surroundObject rest o).semaphore? = o.semaphore? := by
  cases o <;> rfl

@[simp] theorem surroundObject_mutex? : (surroundObject rest o).mutex? = o.mutex? := by
  cases o <;> rfl

@[simp] theorem surroundObject_queue? :
    (surroundObject rest o).queue? = o.queue?.map (surroundQueue rest) := by
  cases o <;> rfl

@[simp] theorem surroundObject_owner? : (surroundObject rest o).owner? = o.owner? := by
  cases o <;> rfl

end Objects

variable {size : BufferPtr → Nat} {rest : Surroundings ι} {k : Kernel τ ι}

@[simp] theorem surround_object (p : ι) :
    (surround size rest k).objects p = surroundObject (rest.storage p) (k.objects p) := rfl

@[simp] theorem surround_memory (b : BufferPtr) :
    (surround size rest k).memory b = splice (size b) (k.memory b) (rest.memory b) := rfl

@[simp] theorem surround_tcb : (surround size rest k).tcb = k.tcb := rfl

@[simp] theorem surround_currentTask :
    (surround size rest k).currentTask = k.currentTask := rfl

@[simp] theorem surround_running : (surround size rest k).running = k.running := rfl

@[simp] theorem surround_initialized :
    (surround size rest k).initialized = k.initialized := rfl

@[simp] theorem surround_modifyTask [DecidableEq τ] (t : τ) (f : RtosTask ι → RtosTask ι) :
    (surround size rest k).modifyTask t f = surround size rest (k.modifyTask t f) := rfl

@[simp] theorem surround_record (event : Event τ ι) :
    (surround size rest k).record event = surround size rest (k.record event) := rfl

@[simp] theorem surround_pend :
    rtosPortPendContextSwitch (surround size rest k) =
      surround size rest (rtosPortPendContextSwitch k) := rfl

theorem surround_setObject [DecidableEq ι] (p : ι) (object : Object τ) :
    (surround size rest k).setObject p (surroundObject (rest.storage p) object) =
      surround size rest (k.setObject p object) := by
  simp only [surround, Kernel.setObject, Kernel.mk.injEq, true_and, and_true]
  funext r
  rcases eq_or_ne r p with rfl | hr
  · simp only [Function.update_self]
  · simp only [Function.update_of_ne hr]

@[simp] theorem surround_setSemaphore [DecidableEq ι] (p : ι) (s : Semaphore) :
    (surround size rest k).setObject p (.semaphore s) =
      surround size rest (k.setObject p (.semaphore s)) :=
  surround_setObject p (.semaphore s)

@[simp] theorem surround_setMutex [DecidableEq ι] (p : ι) (m : Mutex τ) :
    (surround size rest k).setObject p (.mutex m) =
      surround size rest (k.setObject p (.mutex m)) :=
  surround_setObject p (.mutex m)

theorem surround_setBuffer (b : BufferPtr) (bytes : Nat → Byte) :
    (surround size rest k).setBuffer b (splice (size b) bytes (rest.memory b)) =
      surround size rest (k.setBuffer b bytes) := by
  simp only [surround, Kernel.setBuffer, Kernel.mk.injEq, true_and, and_true]
  funext c
  rcases eq_or_ne c b with rfl | hc
  · simp only [Function.update_self]
  · simp only [Function.update_of_ne hc]

@[simp] theorem surround_findWaiter [DecidableEq ι] (waitType : WaitType) (p : ι) :
    rtosKernelFindWaiter (surround size rest k) waitType p =
      rtosKernelFindWaiter k waitType p := rfl

@[simp] theorem surround_threadApiValid (mode : Mode) :
    rtosKernelThreadApiValid (surround size rest k) mode =
      rtosKernelThreadApiValid k mode := rfl

@[simp] theorem surround_kernelAwareIsr (mode : Mode) :
    rtosPortIsKernelAwareIsr (surround size rest k) mode =
      rtosPortIsKernelAwareIsr k mode := rfl

@[simp] theorem surround_wakeTask [DecidableEq τ] (t : Option τ) (result : Status) :
    rtosKernelWakeTask (surround size rest k) t result =
      surround size rest (rtosKernelWakeTask k t result) := by
  cases t <;> rfl

@[simp] theorem surround_maybePreempt (t : Option τ) :
    rtosMaybePreempt (surround size rest k) t = surround size rest (rtosMaybePreempt k t) :=
  (apply_ite (surround size rest) (rtosKernelShouldPreempt k t = true)
    (rtosPortPendContextSwitch k) k).symm

variable [DecidableEq τ]

@[simp] theorem surround_recompute :
    rtosKernelRecomputePriorities (surround size rest k) =
      surround size rest (rtosKernelRecomputePriorities k) := by
  have howner : blockingOwner (surround size rest k) = blockingOwner k := by
    funext t
    simp only [blockingOwner, surround_object, surroundObject_owner?]
    rfl
  have hpriority : recomputedPriority (surround size rest k) = recomputedPriority k := by
    funext t
    simp only [recomputedPriority, howner]
    rfl
  simp only [rtosKernelRecomputePriorities, hpriority]
  rfl

end Surroundings

section Calls

variable {τ ι : Type}
variable {size : BufferPtr → Nat} {rest : Surroundings ι} {k : Kernel τ ι}

/-- What one call does with the kernel, done in other surroundings. -/
def Unaffected {β : Type*} (size : BufferPtr → Nat) (rest : Surroundings ι)
    (result surrounded : Kernel τ ι × β) : Prop :=
  surrounded = result.map (surround size rest) id

theorem Unaffected.status {result surrounded : Kernel τ ι × Status}
    (h : Unaffected size rest result surrounded) :
    Unaffected size rest (withStatus result) (withStatus surrounded) := by
  rw [Unaffected, h]
  rfl

theorem surround_block [DecidableEq τ] (waitType : WaitType) (p : ι) (buffer : Option BufferPtr)
    (timeoutTicks : Word) :
    Unaffected size rest (rtosKernelBlockCurrent k waitType p buffer timeoutTicks)
      (rtosKernelBlockCurrent (surround size rest k) waitType p buffer timeoutTicks) := by
  unfold Unaffected rtosKernelBlockCurrent
  rw [surround_currentTask]
  cases k.currentTask with
  | none => rfl
  | some self =>
      simp only [apply_ite (Prod.map (surround size rest) id)]
      rfl

theorem surround_yield (mode : Mode) :
    rtosTaskYield (surround size rest k) mode = surround size rest (rtosTaskYield k mode) :=
  (apply_ite (surround size rest) (k.running = true ∧ rtosPortGetIpsr mode = 0)
    (rtosPortPendContextSwitch k) k).symm

variable [DecidableEq τ]

theorem surround_delay (mode : Mode) (ticks : Word) :
    Unaffected size rest (rtosTaskDelay k mode ticks)
      (rtosTaskDelay (surround size rest k) mode ticks) := by
  unfold Unaffected rtosTaskDelay
  rw [surround_yield, surround_threadApiValid, surround_currentTask]
  simp only [apply_ite (Prod.map (surround size rest) id)]
  cases k.currentTask <;> rfl

variable [DecidableEq ι]

theorem surround_take (mode : Mode) (semaphore : Option ι) (timeoutTicks : Word) :
    Unaffected size rest (rtosSemaphoreTake k mode semaphore timeoutTicks)
      (rtosSemaphoreTake (surround size rest k) mode semaphore timeoutTicks) := by
  unfold Unaffected rtosSemaphoreTake
  cases semaphore with
  | none => rfl
  | some p =>
      simp only [surround_object, surroundObject_semaphore?]
      cases (k.objects p).semaphore? with
      | none => rfl
      | some s =>
          simp only [apply_ite (Prod.map (surround size rest) id), surround_threadApiValid,
            surround_currentTask]
          cases k.currentTask with
          | none => rfl
          | some self =>
              simp only [apply_ite (Prod.map (surround size rest) id)]
              rw [surround_setSemaphore, surround_block]
              rfl

theorem surround_giveWhen (contextValid : Bool) (semaphore : Option ι) :
    Unaffected size rest (semaphoreGiveWhen k contextValid semaphore)
      (semaphoreGiveWhen (surround size rest k) contextValid semaphore) := by
  unfold Unaffected semaphoreGiveWhen
  cases semaphore with
  | none => rfl
  | some p =>
      simp only [surround_object, surroundObject_semaphore?]
      cases (k.objects p).semaphore? with
      | none => rfl
      | some s =>
          simp only [apply_ite (Prod.map (surround size rest) id), rtosSemaphoreGiveCommon,
            surround_findWaiter]
          cases rtosKernelFindWaiter k .semaphore p with
          | none =>
              simp only [apply_ite (Prod.map (surround size rest) id), surround_setSemaphore]
              rfl
          | some waiter =>
              simp only [surround_wakeTask, surround_record, surround_maybePreempt]
              rfl

theorem surround_lock (mode : Mode) (mutex : Option ι) (timeoutTicks : Word) :
    Unaffected size rest (rtosMutexLock k mode mutex timeoutTicks)
      (rtosMutexLock (surround size rest k) mode mutex timeoutTicks) := by
  unfold Unaffected rtosMutexLock
  cases mutex with
  | none => rfl
  | some p =>
      simp only [surround_object, surroundObject_mutex?]
      cases (k.objects p).mutex? with
      | none => rfl
      | some m =>
          simp only [apply_ite (Prod.map (surround size rest) id), surround_threadApiValid,
            surround_currentTask]
          cases k.currentTask with
          | none => rfl
          | some self =>
              cases m.owner with
              | none =>
                  simp only [surround_setMutex, surround_modifyTask, surround_record]
                  rfl
              | some owner =>
                  simp only [apply_ite (Prod.map (surround size rest) id)]
                  rw [surround_block]
                  simp only [Prod.map_fst, surround_recompute]
                  rfl

theorem surround_unlock (mode : Mode) (mutex : Option ι) :
    Unaffected size rest (rtosMutexUnlock k mode mutex)
      (rtosMutexUnlock (surround size rest k) mode mutex) := by
  unfold Unaffected rtosMutexUnlock
  cases mutex with
  | none => rfl
  | some p =>
      simp only [surround_object, surroundObject_mutex?]
      cases (k.objects p).mutex? with
      | none => rfl
      | some m =>
          simp only [apply_ite (Prod.map (surround size rest) id), surround_threadApiValid,
            surround_currentTask]
          cases k.currentTask with
          | none => rfl
          | some self =>
              have hreleased : releaseHold (surround size rest k) p self =
                  surround size rest (releaseHold k p self) := rfl
              simp only [apply_ite (Prod.map (surround size rest) id), hreleased,
                surround_findWaiter]
              cases rtosKernelFindWaiter (releaseHold k p self) .mutex p with
              | none =>
                  simp only [surround_setMutex, surround_recompute, surround_maybePreempt]
                  rfl
              | some waiter =>
                  simp only [grantHold, surround_setMutex, surround_modifyTask,
                    surround_record, surround_wakeTask, surround_recompute,
                    surround_maybePreempt]
                  rfl

end Calls

end Stm32f411.QueueSurroundings
