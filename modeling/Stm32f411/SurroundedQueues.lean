import Stm32f411.QueueSurroundings

/-!
The queue calls in other surroundings.
-/

namespace Stm32f411.SurroundedQueues

open Stm32f411.RtosTypes
open Stm32f411.RtosKernel
open Stm32f411.RtosIpc
open Stm32f411.RtosSystem
open Stm32f411.RtosKernelSpec
open Stm32f411.RtosCallSpec
open Stm32f411.QueueStorage
open Stm32f411.QueueFifo
open Stm32f411.QueueRoom
open Stm32f411.QueueSurroundings

section Items

variable {τ ι : Type}
variable {size : BufferPtr → Nat} {rest : Surroundings ι} {k : Kernel τ ι} {q : Queue} {p : ι}
variable {n : Nat} {bytes behind storage : Nat → Byte}

theorem surround_push (hq : QueueOk q) (hn : q.itemSize.toNat ≤ n) :
    rtosQueuePush (surroundQueue storage q) (splice n bytes behind) =
      surroundQueue storage (rtosQueuePush q bytes) := by
  obtain ⟨hoffset, hend⟩ := hq.offset hq.tail_lt
  simp only [rtosQueuePush, surroundQueue, storageSize, Queue.mk.injEq, and_true]
  rw [copyBytes_source (by omega), copyBytes_target (by rw [hoffset]; exact hend)]

theorem surround_pop (hq : QueueOk q) (hn : q.itemSize.toNat ≤ n) :
    rtosQueuePop (surroundQueue storage q) (splice n bytes behind) =
      (surroundQueue storage (rtosQueuePop q bytes).1,
        splice n (rtosQueuePop q bytes).2 behind) := by
  obtain ⟨hoffset, hend⟩ := hq.offset hq.head_lt
  simp only [rtosQueuePop, surroundQueue, storageSize, Prod.mk.injEq, true_and]
  rw [copyBytes_target (by omega), copyBytes_source (by rw [hoffset]; exact hend)]

theorem surround_setQueue [DecidableEq ι] (p : ι) (q : Queue) :
    (surround size rest k).setObject p (.queue (surroundQueue (rest.storage p) q)) =
      surround size rest (k.setObject p (.queue q)) :=
  surround_setObject p (.queue q)

theorem surround_pushItem [DecidableEq ι]
    (sender : Option τ) (hq : QueueOk q) (hn : q.itemSize.toNat ≤ n) :
    pushItem (surround size rest k) sender p (surroundQueue (rest.storage p) q)
        (splice n bytes behind) =
      surround size rest (pushItem k sender p q bytes) := by
  have hbytes : Kernel.itemBytes (splice n bytes behind) (surroundQueue (rest.storage p) q) =
      Kernel.itemBytes bytes q := itemBytes_splice hn
  rw [pushItem, surround_push hq hn, surround_setQueue, surround_record, hbytes]
  rfl

theorem surround_popItem [DecidableEq ι] (caller : Option τ) {item : BufferPtr} (hq : QueueOk q)
    (hitem : q.itemSize.toNat ≤ size item) :
    popItem (surround size rest k) caller p (surroundQueue (rest.storage p) q) item =
      surround size rest (popItem k caller p q item) := by
  have hbytes : Kernel.itemBytes
      (splice (size item) (rtosQueuePop q (k.memory item)).2 (rest.memory item))
      (surroundQueue (rest.storage p) q) =
        Kernel.itemBytes (rtosQueuePop q (k.memory item)).2 q := itemBytes_splice hitem
  rw [popItem, surround_memory, surround_pop hq hitem, surround_setBuffer, surround_setQueue,
    hbytes, surround_record]
  rfl

theorem surround_waitBytes {t : τ} {b : BufferPtr} (hb : (k.tcb t).waitBuffer = some b) :
    waitBytes (surround size rest k) t =
      splice (size b) (waitBytes k t) (rest.memory b) := by
  simp only [waitBytes, surround_tcb, hb, surround_memory]

variable [DecidableEq τ]

theorem surround_handItem (caller : Option τ) {item : BufferPtr} {receiver : τ}
    (hitem : q.itemSize.toNat ≤ size item) (hfits : BufferFits size (k.tcb receiver) q) :
    handItem (surround size rest k) caller p (surroundQueue (rest.storage p) q) item receiver =
      surround size rest (handItem k caller p q item receiver) := by
  obtain ⟨b, hb, hn⟩ := hfits
  have hcopied : rtosCopyBytes (waitBytes (surround size rest k) receiver) 0
      ((surround size rest k).memory item) 0 q.itemSize.toNat =
        splice (size b) (rtosCopyBytes (waitBytes k receiver) 0 (k.memory item) 0
          q.itemSize.toNat) (rest.memory b) := by
    rw [surround_waitBytes hb, surround_memory, copyBytes_source (by omega),
      copyBytes_target (by omega)]
  have hset : ∀ bytes, setWaitBytes (surround size rest k) receiver
      (splice (size b) bytes (rest.memory b)) =
        surround size rest (setWaitBytes k receiver bytes) := by
    intro bytes
    simp only [setWaitBytes, surround_tcb, hb]
    exact surround_setBuffer b bytes
  have hread : ∀ bytes, waitBytes (surround size rest (setWaitBytes k receiver bytes)) receiver =
      splice (size b) (waitBytes (setWaitBytes k receiver bytes) receiver) (rest.memory b) :=
    fun bytes => surround_waitBytes (by rw [setWaitBytes_tcb]; exact hb)
  have haccepted : Kernel.itemBytes ((surround size rest k).memory item)
      (surroundQueue (rest.storage p) q) = Kernel.itemBytes (k.memory item) q :=
    itemBytes_splice hitem
  have hdelivered : ∀ bytes, Kernel.itemBytes (splice (size b) bytes (rest.memory b))
      (surroundQueue (rest.storage p) q) = Kernel.itemBytes bytes q :=
    fun _ => itemBytes_splice hn
  have hsize : (surroundQueue (rest.storage p) q).itemSize = q.itemSize := rfl
  simp only [handItem, hsize]
  rw [hcopied, hset, hread, haccepted, hdelivered, surround_record, surround_record,
    surround_wakeTask]

variable [DecidableEq ι]

theorem surround_sendCommon (caller : Option τ) {item : BufferPtr} (hq : QueueOk q)
    (hitem : q.itemSize.toNat ≤ size item)
    (hfits : ∀ t, rtosKernelFindWaiter k .queueReceive p = some t →
      BufferFits size (k.tcb t) q) :
    Unaffected size rest (rtosQueueSendCommon k caller p q item)
      (rtosQueueSendCommon (surround size rest k) caller p
        (surroundQueue (rest.storage p) q) item) := by
  unfold Unaffected rtosQueueSendCommon
  rw [surround_findWaiter]
  cases hfind : rtosKernelFindWaiter k .queueReceive p with
  | some receiver =>
      simp only []
      rw [surround_handItem caller hitem (hfits receiver hfind), surround_maybePreempt]
      rfl
  | none =>
      simp only [apply_ite (Prod.map (surround size rest) id), surround_memory]
      rw [surround_pushItem caller hq hitem]
      rfl

theorem surround_receiveCommon (caller : Option τ) {item : BufferPtr} (hq : QueueOk q)
    (hitem : q.itemSize.toNat ≤ size item)
    (hfits : ∀ t, rtosKernelFindWaiter k .queueSend p = some t →
      BufferFits size (k.tcb t) q) :
    Unaffected size rest (rtosQueueReceiveCommon k caller p q item)
      (rtosQueueReceiveCommon (surround size rest k) caller p
        (surroundQueue (rest.storage p) q) item) := by
  unfold Unaffected rtosQueueReceiveCommon
  simp only [apply_ite (Prod.map (surround size rest) id)]
  refine if_ctx_congr Iff.rfl (fun _ => rfl) fun hcount => ?_
  rw [surround_popItem caller hq hitem, surround_findWaiter]
  have hwaiter : rtosKernelFindWaiter (popItem k caller p q item) .queueSend p =
      rtosKernelFindWaiter k .queueSend p := rfl
  rw [hwaiter]
  cases hfind : rtosKernelFindWaiter k .queueSend p with
  | none => rfl
  | some sender =>
      obtain ⟨b, hb, hn⟩ := hfits sender hfind
      have hwaits : ((popItem k caller p q item).tcb sender).waitBuffer = some b := hb
      simp only [surround_memory]
      rw [surround_waitBytes hwaits, surround_pop hq hitem,
        surround_pushItem (some sender) (hq.pop hcount _) hn, surround_wakeTask,
        surround_maybePreempt]
      rfl

end Items

section Steps

variable {τ ι : Type}
variable {size : BufferPtr → Nat} {rest : Surroundings ι} {k k' : Kernel τ ι}

section Tries

variable {mode : Mode} {waitType : WaitType}
variable {common : Kernel τ ι → Option τ → ι → Queue → BufferPtr → Kernel τ ι × Status}
variable {queue : Option ι} {item : Option BufferPtr}

theorem surround_tryOrWait [DecidableEq τ] (timeoutTicks : Word)
    (hcommon : ∀ caller p b q, queue = some p → item = some b → k.objects p = .queue q →
      Unaffected size rest (common k caller p q b)
        (common (surround size rest k) caller p (surroundQueue (rest.storage p) q) b)) :
    Unaffected size rest (queueTryOrWait k mode waitType common queue item timeoutTicks)
      (queueTryOrWait (surround size rest k) mode waitType common queue item timeoutTicks) := by
  unfold Unaffected queueTryOrWait
  cases queue with
  | none => rfl
  | some p =>
      cases item with
      | none => rfl
      | some b =>
          simp only [surround_object, surroundObject_queue?]
          cases hq : (k.objects p).queue? with
          | none => rfl
          | some q =>
              have hresult : common (surround size rest k) k.currentTask p
                  (surroundQueue (rest.storage p) q) b =
                    (common k k.currentTask p q b).map (surround size rest) id :=
                hcommon _ p b q rfl rfl (Object.queue?_eq_some.mp hq)
              simp only [Option.map_some, apply_ite (Prod.map (surround size rest) id),
                surround_threadApiValid, surround_currentTask, hresult, Prod.map_fst,
                Prod.map_snd, id]
              rw [surround_block]
              rfl

theorem surround_tryFromIsr
    (hcommon : ∀ caller p b q, queue = some p → item = some b → k.objects p = .queue q →
      Unaffected size rest (common k caller p q b)
        (common (surround size rest k) caller p (surroundQueue (rest.storage p) q) b)) :
    Unaffected size rest (queueTryFromIsr k mode common queue item)
      (queueTryFromIsr (surround size rest k) mode common queue item) := by
  unfold Unaffected queueTryFromIsr
  cases queue with
  | none => rfl
  | some p =>
      cases item with
      | none => rfl
      | some b =>
          simp only [surround_object, surroundObject_queue?]
          cases hq : (k.objects p).queue? with
          | none => rfl
          | some q =>
              have hresult : common (surround size rest k) none p
                  (surroundQueue (rest.storage p) q) b =
                    (common k none p q b).map (surround size rest) id :=
                hcommon none p b q rfl rfl (Object.queue?_eq_some.mp hq)
              simp only [Option.map_some, apply_ite (Prod.map (surround size rest) id),
                surround_kernelAwareIsr, hresult]
              rfl

end Tries

theorem surround_call [DecidableEq τ] [DecidableEq ι]
    (hok : ObjectsOk k) (hwaiters : WaitersFit size k) {call : Call ι}
    (hfits : FitsCall size k call) (mode : Mode) :
    Unaffected size rest (rtosCall k mode call) (rtosCall (surround size rest k) mode call) := by
  have hsend : ∀ caller p b q, callItem call = some (p, b) → k.objects p = .queue q →
      Unaffected size rest (rtosQueueSendCommon k caller p q b)
        (rtosQueueSendCommon (surround size rest k) caller p
          (surroundQueue (rest.storage p) q) b) := by
    intro caller p b q hcall hobj
    exact surround_sendCommon caller (hok.queue hobj) (hfits p b q hcall hobj)
      fun t ht => hwaiters.found (.inr rfl) hobj ht
  have hreceive : ∀ caller p b q, callItem call = some (p, b) → k.objects p = .queue q →
      Unaffected size rest (rtosQueueReceiveCommon k caller p q b)
        (rtosQueueReceiveCommon (surround size rest k) caller p
          (surroundQueue (rest.storage p) q) b) := by
    intro caller p b q hcall hobj
    exact surround_receiveCommon caller (hok.queue hobj) (hfits p b q hcall hobj)
      fun t ht => hwaiters.found (.inl rfl) hobj ht
  cases call with
  | taskYield => exact Prod.ext (surround_yield mode) rfl
  | taskDelay ticks => exact surround_delay mode ticks
  | semaphoreTake semaphore timeoutTicks => exact surround_take mode semaphore timeoutTicks
  | semaphoreGive semaphore => exact (surround_giveWhen _ semaphore).status
  | semaphoreGiveFromIsr semaphore => exact (surround_giveWhen _ semaphore).status
  | mutexLock mutex timeoutTicks => exact surround_lock mode mutex timeoutTicks
  | mutexUnlock mutex => exact (surround_unlock mode mutex).status
  | queueSend queue item timeoutTicks =>
      refine surround_tryOrWait timeoutTicks fun caller p b q hp hb hobj => ?_
      exact hsend caller p b q (by rw [hp, hb]; rfl) hobj
  | queueReceive queue item timeoutTicks =>
      refine surround_tryOrWait timeoutTicks fun caller p b q hp hb hobj => ?_
      exact hreceive caller p b q (by rw [hp, hb]; rfl) hobj
  | queueSendFromIsr queue item =>
      refine (surround_tryFromIsr fun caller p b q hp hb hobj => ?_).status
      exact hsend caller p b q (by rw [hp, hb]; rfl) hobj
  | queueReceiveFromIsr queue item =>
      refine (surround_tryFromIsr fun caller p b q hp hb hobj => ?_).status
      exact hreceive caller p b q (by rw [hp, hb]; rfl) hobj

theorem surround_callData {call : Call ι} (h : FitsCall size k call) :
    callData (surround size rest k) call = callData k call := by
  unfold callData
  cases hcall : callItem call with
  | none => rfl
  | some named =>
      obtain ⟨p, item⟩ := named
      simp only [surround_object, surroundObject_queue?]
      cases hobj : (k.objects p).queue? with
      | none => rfl
      | some q => exact itemBytes_splice (h p item q hcall (Object.queue?_eq_some.mp hobj))

variable [DecidableEq τ] [DecidableEq ι]
variable {P : Platform τ} {w w' : World τ ι}

theorem surround_callStep (hok : ObjectsOk w.toKernel) (hwaiters : WaitersFit size w.toKernel)
    {mode : Mode} (hmode : HandlerNumbered mode) {call : Call ι}
    (hfits : FitsCall size w.toKernel call) :
    callStep (surroundWorld size rest w) mode call =
      surroundWorld size rest (callStep w mode call) := by
  obtain ⟨entered, hentry⟩ : ∃ entered, w.toKernel.record
      (.called (callerOf w.toKernel mode) call (callData w.toKernel call)) = entered := ⟨_, rfl⟩
  have hentered : (surroundWorld size rest w).toKernel.record
      (.called (callerOf (surroundWorld size rest w).toKernel mode) call
        (callData (surroundWorld size rest w).toKernel call)) =
          surround size rest entered := by
    rw [← hentry, surroundWorld, surround_callData hfits, surround_record]
    cases mode <;> rfl
  have hresult : rtosCall (surround size rest entered) mode call =
      (rtosCall entered mode call).map (surround size rest) id := by
    rw [← hentry]
    exact surround_call (k := w.toKernel.record _) hok hwaiters hfits mode
  have hsize : ∀ p, itemSizeOf ((rtosCall entered mode call).1.objects p) =
      itemSizeOf (w.objects p) := by
    rw [← hentry]
    exact CallEffect.itemSize (k := w.toKernel.record _) (rtosCall_effect hmode call)
  rw [callStep, callStep, hentered, hresult, hentry]
  revert hsize
  rcases rtosCall entered mode call with ⟨k', result | _⟩ <;> intro hsize
  · have hdata : callData (surround size rest k') call = callData k' call :=
      surround_callData (hfits.congr hsize)
    simp only [Prod.map_apply, id, hdata]
    cases mode <;> rfl
  · cases mode <;> rfl

end Steps

end Stm32f411.SurroundedQueues
