import Stm32f411.RtosStepSpec

/-!
What a call does that comes from an interrupt handler. The calls meant for handlers serve
at most one sleeping task; all others are refused or do nothing to the tasks.
-/

namespace Stm32f411.HandlerCalls

open Stm32f411.RtosTypes
open Stm32f411.RtosKernel
open Stm32f411.RtosIpc
open Stm32f411.RtosSystem
open Stm32f411.RtosKernelSpec
open Stm32f411.RtosCallSpec
open Stm32f411.RtosStepSpec

variable {τ ι : Type} [DecidableEq τ]

/-- The sleeping task an interrupt's call serves. -/
def servedTask [DecidableEq ι] (k : Kernel τ ι) (mode : Mode) : Call ι → Option τ
  | .semaphoreGiveFromIsr (some p) =>
      if rtosPortIsKernelAwareIsr k mode = true ∧ (k.objects p).semaphore?.isSome = true then
        rtosKernelFindWaiter k .semaphore p
      else none
  | .queueSendFromIsr (some p) (some _) =>
      if rtosPortIsKernelAwareIsr k mode = true ∧ (k.objects p).queue?.isSome = true then
        rtosKernelFindWaiter k .queueReceive p
      else none
  | .queueReceiveFromIsr (some p) (some _) =>
      if rtosPortIsKernelAwareIsr k mode = true ∧
          (k.objects p).queue?.any (fun q => decide (q.count ≠ 0)) = true then
        rtosKernelFindWaiter k .queueSend p
      else none
  | _ => none

section Service

variable {k : Kernel τ ι} {mode : Mode} {call : Call ι} {t : τ}

/-- What a call does to one task: it serves the task, or leaves its TCB alone. -/
def ServesOrKeeps (k : Kernel τ ι) (served : Option τ) (t : τ) (k' : Kernel τ ι)
    (result : Outcome) : Prop :=
  if served = some t then
    result = .returned .ok ∧ Kept (leaveWait .ok (k.tcb t)) (k'.tcb t)
  else Kept (k.tcb t) (k'.tcb t)

theorem ServesOrKeeps.same {k' : Kernel τ ι} (htcb : k'.tcb = k.tcb) (t : τ)
    (result : Outcome) : ServesOrKeeps k none t k' result := by
  rw [ServesOrKeeps, if_neg (by simp), htcb]
  exact .refl _

/-- A waiter is woken and every other task left alone. -/
theorem ServesOrKeeps.wakes {k' : Kernel τ ι} {waiter : τ}
    (hwaiter : Kept (leaveWait .ok (k.tcb waiter)) (k'.tcb waiter))
    (hrest : ∀ u, u ≠ waiter → Kept (k.tcb u) (k'.tcb u)) (t : τ) :
    ServesOrKeeps k (some waiter) t k' (.returned .ok) := by
  rcases eq_or_ne t waiter with rfl | hne
  · rw [ServesOrKeeps, if_pos rfl]
    exact ⟨rfl, hwaiter⟩
  · rw [ServesOrKeeps, if_neg (by simpa using hne.symm)]
    exact hrest t hne

variable [DecidableEq ι]

theorem give_servesOrKeeps (p : ι) (t : τ) :
    ServesOrKeeps k (servedTask k mode (.semaphoreGiveFromIsr (some p))) t
      (rtosSemaphoreGiveFromIsr k mode (some p)).1
      (.returned (rtosSemaphoreGiveFromIsr k mode (some p)).2) := by
  simp only [servedTask, rtosSemaphoreGiveFromIsr, semaphoreGiveWhen]
  cases hobj : (k.objects p).semaphore? with
  | none => simpa using ServesOrKeeps.same rfl t _
  | some s =>
      cases hisr : rtosPortIsKernelAwareIsr k mode with
      | false => simpa using ServesOrKeeps.same rfl t _
      | true =>
          simp only [Option.isSome_some, and_self, if_true, Bool.true_eq_false, if_false,
            rtosSemaphoreGiveCommon]
          cases rtosKernelFindWaiter k .semaphore p with
          | none =>
              dsimp only
              split
              · exact .same rfl t _
              · exact .same rfl t _
          | some waiter =>
              refine .wakes ?_ (fun u hu => ?_) t
              · simpa using Kept.refl _
              · simpa [hu] using Kept.refl _

theorem send_servesOrKeeps (p : ι) (item : BufferPtr) (t : τ) :
    ServesOrKeeps k (servedTask k mode (.queueSendFromIsr (some p) (some item))) t
      (rtosQueueSendFromIsr k mode (some p) (some item)).1
      (.returned (rtosQueueSendFromIsr k mode (some p) (some item)).2) := by
  simp only [servedTask, rtosQueueSendFromIsr, queueTryFromIsr]
  cases hobj : (k.objects p).queue? with
  | none => simpa using ServesOrKeeps.same rfl t _
  | some q =>
      cases hisr : rtosPortIsKernelAwareIsr k mode with
      | false => simpa using ServesOrKeeps.same rfl t _
      | true =>
          simp only [Option.isSome_some, and_self, if_true, Bool.true_eq_false, if_false,
            rtosQueueSendCommon]
          cases rtosKernelFindWaiter k .queueReceive p with
          | none =>
              dsimp only
              split
              · exact .same rfl t _
              · exact .same rfl t _
          | some waiter =>
              refine .wakes ?_ (fun u hu => ?_) t
              · simpa [handItem] using Kept.refl _
              · simpa [handItem, hu] using Kept.refl _

theorem receive_servesOrKeeps (p : ι) (item : BufferPtr) (t : τ) :
    ServesOrKeeps k (servedTask k mode (.queueReceiveFromIsr (some p) (some item))) t
      (rtosQueueReceiveFromIsr k mode (some p) (some item)).1
      (.returned (rtosQueueReceiveFromIsr k mode (some p) (some item)).2) := by
  simp only [servedTask, rtosQueueReceiveFromIsr, queueTryFromIsr]
  cases hobj : (k.objects p).queue? with
  | none => simpa using ServesOrKeeps.same rfl t _
  | some q =>
      cases hisr : rtosPortIsKernelAwareIsr k mode with
      | false => simpa using ServesOrKeeps.same rfl t _
      | true =>
          simp only [rtosQueueReceiveCommon, Bool.true_eq_false, if_false]
          rcases eq_or_ne q.count 0 with hempty | hitem
          · simpa [hempty] using ServesOrKeeps.same rfl t _
          · have hwaiter : rtosKernelFindWaiter (popItem k none p q item) .queueSend p =
                rtosKernelFindWaiter k .queueSend p := rfl
            rw [if_neg hitem, hwaiter, if_pos (by simpa using hitem)]
            cases rtosKernelFindWaiter k .queueSend p with
            | none => exact .same rfl t _
            | some waiter =>
                refine .wakes ?_ (fun u hu => ?_) t
                · simpa using Kept.refl _
                · simpa [hu] using Kept.refl _

omit [DecidableEq τ] [DecidableEq ι] in
theorem handler_threadApiInvalid (k : Kernel τ ι) {exception : Word}
    (hexception : exception ≠ 0) (priority : Nat) :
    rtosKernelThreadApiValid k (.handler exception priority) = false := by
  rw [rtosKernelThreadApiValid, rtosPortGetIpsr, decide_eq_false hexception]
  simp

/-- Called from a handler, the calls meant for threads leave every TCB alone. -/
theorem handler_servesOrKeeps {exception : Word} (hexception : exception ≠ 0)
    (priority : Nat) (call : Call ι) (t : τ) :
    ServesOrKeeps k (servedTask k (.handler exception priority) call) t
      (rtosCall k (.handler exception priority) call).1
      (rtosCall k (.handler exception priority) call).2 := by
  have hinvalid := handler_threadApiInvalid k hexception priority
  have hmode : rtosPortGetIpsr (.handler exception priority) ≠ 0 := hexception
  cases call with
  | semaphoreGiveFromIsr semaphore =>
      cases semaphore with
      | none => exact .same rfl t _
      | some p => exact give_servesOrKeeps p t
  | queueSendFromIsr queue item =>
      cases queue <;> cases item
      · exact .same rfl t _
      · exact .same rfl t _
      · exact .same rfl t _
      · exact send_servesOrKeeps _ _ t
  | queueReceiveFromIsr queue item =>
      cases queue <;> cases item
      · exact .same rfl t _
      · exact .same rfl t _
      · exact .same rfl t _
      · exact receive_servesOrKeeps _ _ t
  | taskYield =>
      apply ServesOrKeeps.same
      rw [rtosCall, rtosTaskYield, if_neg fun h => hmode h.2]
  | taskDelay ticks =>
      apply ServesOrKeeps.same
      simp only [rtosCall, rtosTaskDelay, rtosTaskYield, hinvalid, hmode, true_or, and_false,
        if_true, if_false]
      split <;> rfl
  | semaphoreTake semaphore timeoutTicks =>
      apply ServesOrKeeps.same
      simp only [rtosCall, rtosSemaphoreTake, hinvalid, if_true]
      repeat' split
      all_goals rfl
  | semaphoreGive semaphore =>
      apply ServesOrKeeps.same
      simp only [rtosCall, withStatus, rtosSemaphoreGive, semaphoreGiveWhen, hinvalid, if_true]
      repeat' split
      all_goals rfl
  | mutexLock mutex timeoutTicks =>
      apply ServesOrKeeps.same
      simp only [rtosCall, rtosMutexLock, hinvalid, if_true]
      repeat' split
      all_goals rfl
  | mutexUnlock mutex =>
      apply ServesOrKeeps.same
      simp only [rtosCall, withStatus, rtosMutexUnlock, hinvalid, if_true]
      repeat' split
      all_goals rfl
  | queueSend queue item timeoutTicks =>
      apply ServesOrKeeps.same
      simp only [rtosCall, rtosQueueSend, queueTryOrWait, hinvalid, if_true]
      repeat' split
      all_goals rfl
  | queueReceive queue item timeoutTicks =>
      apply ServesOrKeeps.same
      simp only [rtosCall, rtosQueueReceive, queueTryOrWait, hinvalid, if_true]
      repeat' split
      all_goals rfl

omit [DecidableEq τ] in
theorem guardedWaiter_waits {c : Prop} [Decidable c] {waitType : WaitType} {p : ι}
    (h : (if c then rtosKernelFindWaiter k waitType p else none) = some t) :
    c ∧ t ∈ k.tasks ∧ (k.tcb t).state = .blocked := by
  split at h
  · next hc =>
      obtain ⟨hmem, hwaits⟩ := findWaiter_waits h
      exact ⟨hc, hmem, (isWaiter_iff.mp hwaits).1⟩
  · simp at h

omit [DecidableEq τ] in
theorem servedTask_waits (h : servedTask k mode call = some t) :
    rtosPortIsKernelAwareIsr k mode = true ∧ t ∈ k.tasks ∧ (k.tcb t).state = .blocked := by
  unfold servedTask at h
  split at h
  · obtain ⟨hisr, hwaits⟩ := guardedWaiter_waits h
    exact ⟨hisr.1, hwaits⟩
  · obtain ⟨hisr, hwaits⟩ := guardedWaiter_waits h
    exact ⟨hisr.1, hwaits⟩
  · obtain ⟨hisr, hwaits⟩ := guardedWaiter_waits h
    exact ⟨hisr.1, hwaits⟩
  · simp at h

/-- A call that serves a task returns RTOS_OK and leaves it awake with RTOS_OK. -/
theorem served_returns {exception : Word} (hexception : exception ≠ 0) {priority : Nat}
    (hserved : servedTask k (.handler exception priority) call = some t) :
    (rtosCall k (.handler exception priority) call).2 = .returned .ok ∧
      Kept (leaveWait .ok (k.tcb t))
        ((rtosCall k (.handler exception priority) call).1.tcb t) := by
  have hserves := handler_servesOrKeeps (k := k) hexception priority call t
  rwa [ServesOrKeeps, if_pos hserved] at hserves

end Service

end Stm32f411.HandlerCalls
