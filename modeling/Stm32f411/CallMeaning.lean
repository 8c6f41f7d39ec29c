import Stm32f411.KernelMeaning

/-!
The statements of `rtos_ipc.c` compute its functions, and with them every call.
-/

namespace Stm32f411.CallMeaning

open Stm32f411.RtosTypes
open Stm32f411.RtosKernel
open Stm32f411.RtosIpc
open Stm32f411.RtosSystem
open Stm32f411.RtosCallSpec
open Stm32f411.QueueStorage
open Stm32f411.StatementPrograms
open Stm32f411.StatementPrograms.Code
open Stm32f411.SectionCode
open Stm32f411.KernelMeaning

variable {τ ι : Type}

variable {k : Kernel τ ι}

/-- A byte loop into a buffer. The source may be the same block: what is copied is read
before it is overwritten. -/
theorem run_copyToBuffer (byte : Kernel τ ι → Nat → Byte) (buffer : BufferPtr)
    (bytes : Nat → Byte) (source length : Nat) (k : Kernel τ ι)
    (hbyte : ∀ i, byte (k.setBuffer buffer
      (rtosCopyBytes (k.memory buffer) 0 bytes source i)) i = bytes (source + i)) :
    (copyBytesCode byte (putBuffer buffer) length).run k =
      some ((), k.setBuffer buffer (rtosCopyBytes (k.memory buffer) 0 bytes source length)) := by
  have hloop := run_forEach_range (n := length)
    (fun index => do putBuffer buffer index (← get fun k => byte k index))
    (fun i => k.setBuffer buffer (rtosCopyBytes (k.memory buffer) 0 bytes source i))
    (by
      intro i _
      simp only [run_bind, run_get, Option.bind_some, hbyte, putBuffer, run_modify]
      simp [Kernel.setBuffer, rtosCopyBytes])
  simpa [copyBytesCode, rtosCopyBytes, Kernel.setBuffer] using hloop

/-- A byte loop into the storage of a queue. -/
theorem run_copyToStorage [DecidableEq ι] (byte : Kernel τ ι → Nat → Byte) {p : ι} {q : Queue}
    (bytes : Nat → Byte) (target length : Nat) {k : Kernel τ ι} (hobj : k.objects p = .queue q)
    (hbyte : ∀ i, byte (k.setObject p (.queue { q with
      storage := rtosCopyBytes q.storage target bytes 0 i })) i = bytes i) :
    (copyBytesCode byte (putStorage p target) length).run k =
      some ((), k.setObject p (.queue { q with
        storage := rtosCopyBytes q.storage target bytes 0 length })) := by
  have hloop := run_forEach_range (n := length)
    (fun index => do putStorage p target index (← get fun k => byte k index))
    (fun i => k.setObject p (.queue { q with
      storage := rtosCopyBytes q.storage target bytes 0 i }))
    (by
      intro i _
      simp only [run_bind, run_get, Option.bind_some, hbyte, putStorage, modifyQueue, run_modify]
      simp [Kernel.setObject, rtosCopyBytes])
  have hstart : k.setObject p (.queue q) = k := by
    rw [Kernel.setObject, ← hobj, Function.update_eq_self]
  simpa [copyBytesCode, rtosCopyBytes, hstart] using hloop

theorem run_modifyQueue [DecidableEq ι] {p : ι} {q : Queue} {k : Kernel τ ι}
    (hobj : k.objects p = .queue q) (f : Queue → Queue) :
    (modifyQueue p f).run k = some ((), k.setObject p (.queue (f q))) := by
  simp [modifyQueue, hobj]

@[simp] theorem run_modifyQueue_setObject [DecidableEq ι] (p : ι) (q : Queue) (k : Kernel τ ι)
    (f : Queue → Queue) : (modifyQueue p f).run (k.setObject p (.queue q)) =
      some ((), k.setObject p (.queue (f q))) := by
  rw [run_modifyQueue (q := q) (by simp)]
  simp [Kernel.setObject]

theorem lookAt_queue {p : ι} {q : Queue} {k : Kernel τ ι} (hobj : k.objects p = .queue q) :
    (lookAt fun k => (k.objects p).queue?).run k = some (q, k) :=
  run_lookAt (by simp [hobj])

theorem run_queuePush [DecidableEq ι] {p : ι} {q : Queue} {sender : Option τ}
    {bytes : Kernel τ ι → Nat → Byte} {k : Kernel τ ι} (hobj : k.objects p = .queue q)
    (hbytes : ∀ object, bytes (k.setObject p object) = bytes k) :
    (queuePushCode p sender bytes).run k = some ((), pushItem k sender p q (bytes k)) := by
  have hcopy := run_copyToStorage bytes (bytes k) (q.tail * q.itemSize).toNat q.itemSize.toNat
    hobj (fun i => by rw [hbytes])
  simp only [queuePushCode, run_bind, lookAt_queue hobj, run_get, Option.bind_some, hcopy]
  simp only [run_modifyQueue_setObject, Option.bind_some, run_mark]
  rfl

theorem run_queuePop [DecidableEq ι] {p : ι} {q : Queue} {receiver : Option τ} {item : BufferPtr}
    {k : Kernel τ ι} (hobj : k.objects p = .queue q) :
    (queuePopCode p receiver item).run k = some ((), popItem k receiver p q item) := by
  have hcopy := run_copyToBuffer (headByte p) item q.storage (q.head * q.itemSize).toNat
    q.itemSize.toNat k (fun i => by simp [headByte, hobj])
  simp only [queuePopCode, run_bind, lookAt_queue hobj, run_get, Option.bind_some, hcopy]
  rw [run_modifyQueue (q := q) (by simpa using hobj)]
  simp only [run_modifyQueue_setObject, Option.bind_some, run_mark]
  simp [popItem, rtosQueuePop]

variable [DecidableEq τ]

theorem run_handItem (caller : Option τ) (p : ι) (q : Queue) (item : BufferPtr) (receiver : τ)
    (k : Kernel τ ι) : (handItemCode caller p q item receiver).run k =
      some ((), handItem k caller p q item receiver) := by
  unfold handItemCode
  simp only [run_bind, run_get, Option.bind_some]
  cases hbuffer : (k.tcb receiver).waitBuffer with
  | none => simp [handItem, setWaitBytes, hbuffer]
  | some buffer =>
      have hcopy := run_copyToBuffer (fun k => k.memory item) buffer (k.memory item) 0
        q.itemSize.toNat k (by
          intro i
          rcases eq_or_ne item buffer with rfl | hne
          · simp [copyBytes_apply]
          · simp [hne])
      simp only [run_bind, hcopy, Option.bind_some, run_get, run_mark, run_wakeTask]
      simp [handItem, setWaitBytes, waitBytes, hbuffer]

theorem run_queueSendCommon [DecidableEq ι]
    {caller : Option τ} {p : ι} {q : Queue} {item : BufferPtr}
    {k : Kernel τ ι} (hobj : k.objects p = .queue q) :
    (queueSendCommonCode caller p item).run k =
      some ((rtosQueueSendCommon k caller p q item).2,
        (rtosQueueSendCommon k caller p q item).1) := by
  unfold queueSendCommonCode rtosQueueSendCommon
  simp only [run_bind, lookAt_queue hobj, run_findWaiter, Option.bind_some]
  cases rtosKernelFindWaiter k .queueReceive p with
  | some receiver => simp [run_handItem]
  | none =>
      simp only [run_ite, run_bind, run_pure]
      rw [run_queuePush hobj fun _ => rfl]
      split <;> rfl

theorem run_queueReceiveCommon [DecidableEq ι]
    {caller : Option τ} {p : ι} {q : Queue} {item : BufferPtr}
    {k : Kernel τ ι} (hobj : k.objects p = .queue q) :
    (queueReceiveCommonCode caller p item).run k =
      some ((rtosQueueReceiveCommon k caller p q item).2,
        (rtosQueueReceiveCommon k caller p q item).1) := by
  unfold queueReceiveCommonCode rtosQueueReceiveCommon
  simp only [run_bind, lookAt_queue hobj, Option.bind_some, run_ite, run_queuePop hobj,
    run_findWaiter, run_pure]
  split
  · rfl
  · cases rtosKernelFindWaiter (popItem k caller p q item) .queueSend p with
    | none => rfl
    | some sender =>
        have hpopped : (popItem k caller p q item).objects p =
            .queue (rtosQueuePop q (k.memory item)).1 := by simp [popItem]
        simp only [run_bind]
        rw [run_queuePush hpopped fun _ => rfl]
        simp

omit [DecidableEq τ] in
theorem run_map {α β : Type} (f : α → β) (c : KernelCode τ ι α) (k : Kernel τ ι) :
    (f <$> c).run k = (c.run k).map fun result => (f result.1, result.2) := by
  change (c >>= fun a => pure (f a)).run k = _
  rw [run_bind]
  cases c.run k <;> rfl

theorem run_semaphoreGiveCommon [DecidableEq ι] {p : ι} {s : Semaphore} {k : Kernel τ ι}
    (hobj : k.objects p = .semaphore s) :
    (semaphoreGiveCommonCode p).run k =
      some ((rtosSemaphoreGiveCommon k p s).2, (rtosSemaphoreGiveCommon k p s).1) := by
  unfold semaphoreGiveCommonCode rtosSemaphoreGiveCommon
  simp only [run_bind, run_findWaiter, Option.bind_some]
  cases rtosKernelFindWaiter k .semaphore p with
  | some waiter =>
      simp only [run_bind, run_wakeTask, run_mark, run_maybePreempt, Option.bind_some, run_pure]
  | none =>
      simp only [run_bind]
      rw [run_lookAt (by simp [hobj]; rfl)]
      simp only [Option.bind_some, run_ite, run_pure, run_bind, run_assignObject]
      split <;> rfl

theorem run_semaphoreTake [DecidableEq ι] {self : τ} {p : ι} {s : Semaphore} {timeoutTicks : Word}
    {k : Kernel τ ι} (hobj : k.objects p = .semaphore s) :
    (semaphoreTakeCode self p timeoutTicks).run k = some (
      if s.count ≠ 0 then (.returned .ok,
        (k.setObject p (.semaphore { s with count := s.count - 1 })).record (.took p self))
      else if timeoutTicks = 0 then (.returned .errBusy, k)
      else (.suspended, (rtosKernelBlockCurrent k .semaphore p none timeoutTicks).1)) := by
  unfold semaphoreTakeCode
  rw [run_bind, run_lookAt (a := s) (by simp [hobj])]
  simp only [Option.bind_some, run_ite, run_bind, run_assignObject, run_mark, run_pure,
    run_blockCurrent]
  split
  · rfl
  · split <;> rfl

theorem run_holdMutex [DecidableEq ι] (p : ι) (owner : τ) (k : Kernel τ ι) :
    (holdMutex p owner).run k = some ((), ((k.setObject p (.mutex ⟨some owner⟩)).modifyTask owner
      fun t => { t with mutexHoldCount := t.mutexHoldCount + 1 }).record (.locked p owner)) :=
  rfl

theorem run_mutexLock [DecidableEq ι] {self : τ} {p : ι} {m : Mutex τ} {timeoutTicks : Word}
    {k : Kernel τ ι} (hobj : k.objects p = .mutex m) :
    (mutexLockCode self p timeoutTicks).run k = some (match m.owner with
      | none => (.returned .ok, ((k.setObject p (.mutex ⟨some self⟩)).modifyTask self
          fun t => { t with mutexHoldCount := t.mutexHoldCount + 1 }).record (.locked p self))
      | some owner =>
          if owner = self then (.returned .errBusy, k)
          else if timeoutTicks = 0 then (.returned .errBusy, k)
          else (.suspended, rtosKernelRecomputePriorities
            (rtosKernelBlockCurrent k .mutex p none timeoutTicks).1)) := by
  unfold mutexLockCode
  rw [run_bind, run_lookAt (a := m) (by simp [hobj])]
  simp only [Option.bind_some]
  cases m.owner with
  | none => rfl
  | some owner =>
      simp only [run_ite, run_bind, run_pure, run_blockCurrent, Option.bind_some,
        run_recomputePriorities]
      split
      · rfl
      · split <;> rfl

theorem modifyTask_eq_self {k : Kernel τ ι} {task : τ} {f : RtosTask ι → RtosTask ι}
    (h : f (k.tcb task) = k.tcb task) : k.modifyTask task f = k := by
  rw [Kernel.modifyTask, h, Function.update_eq_self]

theorem modifyTask_congr {k : Kernel τ ι} {task : τ} {f g : RtosTask ι → RtosTask ι}
    (h : f (k.tcb task) = g (k.tcb task)) : k.modifyTask task f = k.modifyTask task g := by
  rw [Kernel.modifyTask, h, Kernel.modifyTask]

theorem run_releaseHold (p : ι) (self : τ) (k : Kernel τ ι) :
    (releaseHoldCode p self).run k = some ((), releaseHold k p self) := by
  unfold releaseHoldCode releaseHold
  simp only [run_bind, run_get, Option.bind_some, run_ite, run_assign]
  by_cases hzero : (k.tcb self).mutexHoldCount = 0
  · rw [if_neg (by simpa using hzero), modifyTask_eq_self (by cases h : k.tcb self; simp_all)]
    rfl
  · have hheld : k.modifyTask self (fun t => { t with mutexHoldCount :=
        if t.mutexHoldCount ≠ 0 then t.mutexHoldCount - 1 else t.mutexHoldCount }) =
          k.modifyTask self fun t => { t with mutexHoldCount := t.mutexHoldCount - 1 } :=
      modifyTask_congr (by simp only [ne_eq, hzero, not_false_eq_true, if_true])
    rw [if_pos hzero, hheld]
    rfl

theorem run_passOn [DecidableEq ι] (p : ι) (waiter : Option τ) (k : Kernel τ ι) :
    (passOnCode p waiter).run k = some ((), match waiter with
      | some waiter => grantHold k p waiter
      | none => k.setObject p (.mutex ⟨none⟩)) := by
  cases waiter with
  | none => rfl
  | some waiter =>
      simp only [passOnCode, run_bind, run_holdMutex, Option.bind_some, run_wakeTask]
      rfl

theorem run_mutexUnlock [DecidableEq ι] {self : τ} {p : ι} {m : Mutex τ} {k : Kernel τ ι}
    (hobj : k.objects p = .mutex m) :
    (mutexUnlockCode self p).run k = some (
      if m.owner ≠ some self then (.errNotOwner, k)
      else (.ok, match rtosKernelFindWaiter (releaseHold k p self) .mutex p with
        | some waiter => rtosMaybePreempt (rtosKernelRecomputePriorities
            (grantHold (releaseHold k p self) p waiter)) (some waiter)
        | none => rtosMaybePreempt (rtosKernelRecomputePriorities
            ((releaseHold k p self).setObject p (.mutex ⟨none⟩))) none)) := by
  unfold mutexUnlockCode
  rw [run_bind, run_lookAt (a := m) (by simp [hobj])]
  simp only [Option.bind_some, run_ite, run_bind, run_pure, run_releaseHold, run_findWaiter,
    run_passOn, run_recomputePriorities, run_maybePreempt]
  split
  · rfl
  · cases rtosKernelFindWaiter (releaseHold k p self) .mutex p <;> rfl

theorem run_taskDelay (self : τ) (ticks : Word) (k : Kernel τ ι) :
    (taskDelayCode self ticks).run k = some (.suspended,
      rtosPortPendContextSwitch (k.modifyTask self fun t =>
        { t with wakeTick := k.tick + ticks, waitForever := false, state := .delayed })) := by
  simp only [taskDelayCode, run_bind, run_get, run_assign, Option.bind_some,
    modifyTask_modifyTask, run_pendContextSwitch, run_pure]

theorem run_queueTryOrWait {waitType : WaitType} {common : KernelCode τ ι Status}
    {result : Kernel τ ι × Status} {p : ι} {item : BufferPtr} {timeoutTicks : Word}
    {k : Kernel τ ι} (hcommon : common.run k = some (result.2, result.1)) :
    (queueTryOrWaitCode waitType common p item timeoutTicks).run k = some (
      if result.2 = .errBusy ∧ timeoutTicks ≠ 0 then
        (.suspended, (rtosKernelBlockCurrent result.1 waitType p (some item) timeoutTicks).1)
      else (.returned result.2, result.1)) := by
  simp only [queueTryOrWaitCode, run_bind, hcommon, Option.bind_some, run_ite, run_pure,
    run_blockCurrent]
  split <;> rfl

omit [DecidableEq τ] in
/-- What the thread-mode tests tell a section. -/
theorem callerOf_apiValid {k : Kernel τ ι} {mode : Mode} (hmode : HandlerNumbered mode)
    (h : rtosKernelThreadApiValid k mode = true) :
    ∃ self, k.currentTask = some self ∧ callerOf k mode = some self := by
  have hcurrent := h
  simp only [rtosKernelThreadApiValid, Bool.and_eq_true] at hcurrent
  obtain ⟨self, hself⟩ := Option.isSome_iff_exists.mp hcurrent.2
  obtain ⟨rfl, _, _⟩ := threadCall_of_valid hmode (by simp [h]) hself
  exact ⟨self, hself, hself⟩

variable [DecidableEq ι]

/-- The section of `call` does what the call does. -/
def Computes (k : Kernel τ ι) (mode : Mode) (call : Call ι) : Prop :=
  (callCode (callerOf k mode) call).run k =
    some ((rtosCall k mode call).2, (rtosCall k mode call).1)

variable {mode : Mode}

theorem taskDelay_computes (hmode : HandlerNumbered mode) {ticks : Word}
    (hzero : ticks ≠ 0) (hvalid : rtosKernelThreadApiValid k mode = true)
    (htime : rtosTimeoutValid ticks = true) (hforever : ticks ≠ rtosWaitForever) :
    Computes k mode (.taskDelay ticks) := by
  obtain ⟨self, hself, hcaller⟩ := callerOf_apiValid hmode hvalid
  rw [Computes, hcaller]
  simp only [callCode, run_taskDelay, rtosCall, rtosTaskDelay, hzero, hvalid, htime, hforever]
  simp [hself]

theorem semaphoreTake_computes (hmode : HandlerNumbered mode) {p : ι} {s : Semaphore}
    {timeoutTicks : Word} (hobj : k.objects p = .semaphore s)
    (htime : rtosTimeoutValid timeoutTicks = true)
    (hvalid : rtosKernelThreadApiValid k mode = true) :
    Computes k mode (.semaphoreTake (some p) timeoutTicks) := by
  obtain ⟨self, hself, hcaller⟩ := callerOf_apiValid hmode hvalid
  rw [Computes, hcaller]
  simp only [callCode, run_semaphoreTake hobj, rtosCall, rtosSemaphoreTake, hobj,
    Object.semaphore?_semaphore, hvalid, htime, hself, Bool.true_eq_false, if_false]
  split
  · rfl
  · split <;> rfl

theorem semaphoreGive_computes {p : ι} {s : Semaphore} {call : Call ι}
    (hcall : call = .semaphoreGive (some p) ∧ rtosKernelThreadApiValid k mode = true ∨
      call = .semaphoreGiveFromIsr (some p) ∧ rtosPortIsKernelAwareIsr k mode = true)
    (hobj : k.objects p = .semaphore s) : Computes k mode call := by
  rcases hcall with ⟨rfl, hvalid⟩ | ⟨rfl, hvalid⟩
  · simp [Computes, callCode, run_map, run_semaphoreGiveCommon hobj, rtosCall, withStatus,
      rtosSemaphoreGive, semaphoreGiveWhen, hobj, hvalid]
  · simp [Computes, callCode, run_map, run_semaphoreGiveCommon hobj, rtosCall, withStatus,
      rtosSemaphoreGiveFromIsr, semaphoreGiveWhen, hobj, hvalid]

theorem mutexLock_computes (hmode : HandlerNumbered mode) {p : ι} {m : Mutex τ}
    {timeoutTicks : Word} (hobj : k.objects p = .mutex m)
    (htime : rtosTimeoutValid timeoutTicks = true)
    (hvalid : rtosKernelThreadApiValid k mode = true) :
    Computes k mode (.mutexLock (some p) timeoutTicks) := by
  obtain ⟨self, hself, hcaller⟩ := callerOf_apiValid hmode hvalid
  rw [Computes, hcaller]
  simp only [callCode, run_mutexLock hobj, rtosCall, rtosMutexLock, hobj,
    Object.mutex?_mutex, hvalid, htime, hself, Bool.true_eq_false, if_false]
  cases m.owner with
  | none => rfl
  | some owner =>
      simp only
      split
      · rfl
      · split <;> rfl

theorem mutexUnlock_computes (hmode : HandlerNumbered mode) {p : ι} {m : Mutex τ}
    (hobj : k.objects p = .mutex m) (hvalid : rtosKernelThreadApiValid k mode = true) :
    Computes k mode (.mutexUnlock (some p)) := by
  obtain ⟨self, hself, hcaller⟩ := callerOf_apiValid hmode hvalid
  rw [Computes, hcaller]
  simp only [callCode, run_map, run_mutexUnlock hobj, rtosCall, withStatus, rtosMutexUnlock, hobj,
    Object.mutex?_mutex, hvalid, hself, Bool.true_eq_false, if_false, Option.map_some]
  split
  · rfl
  · cases rtosKernelFindWaiter (releaseHold k p self) .mutex p <;> rfl

omit [DecidableEq ι] in
/-- The thread-mode send and receive, by what they try. -/
theorem queueTryOrWait_computes {waitType : WaitType} {p : ι} {q : Queue} {item : BufferPtr}
    {timeoutTicks : Word}
    {common : Kernel τ ι → Option τ → ι → Queue → BufferPtr → Kernel τ ι × Status}
    {code : KernelCode τ ι Status} (hobj : k.objects p = .queue q)
    (htime : rtosTimeoutValid timeoutTicks = true)
    (hvalid : rtosKernelThreadApiValid k mode = true)
    (hcommon : code.run k = some ((common k k.currentTask p q item).2,
      (common k k.currentTask p q item).1)) :
    (queueTryOrWaitCode waitType code p item timeoutTicks).run k =
      some ((queueTryOrWait k mode waitType common (some p) (some item) timeoutTicks).2,
        (queueTryOrWait k mode waitType common (some p) (some item) timeoutTicks).1) := by
  rw [run_queueTryOrWait hcommon]
  simp only [queueTryOrWait, hobj, Object.queue?_queue, htime, hvalid, Bool.true_eq_false,
    if_false]
  split <;> rfl

omit [DecidableEq τ] [DecidableEq ι] in
theorem queueTryFromIsr_computes {p : ι} {q : Queue} {item : BufferPtr}
    {common : Kernel τ ι → Option τ → ι → Queue → BufferPtr → Kernel τ ι × Status}
    {code : KernelCode τ ι Status} (hobj : k.objects p = .queue q)
    (hvalid : rtosPortIsKernelAwareIsr k mode = true)
    (hcommon : code.run k = some ((common k none p q item).2, (common k none p q item).1)) :
    (Outcome.returned <$> code).run k =
      some ((withStatus (queueTryFromIsr k mode common (some p) (some item))).2,
        (withStatus (queueTryFromIsr k mode common (some p) (some item))).1) := by
  simp [run_map, hcommon, withStatus, queueTryFromIsr, hobj, hvalid]

/-- The section of a call does what the call does, for a call that gets there. -/
theorem callCode_computes (hmode : HandlerNumbered mode) {call : Call ι}
    (h : callTests k mode call = true) : Computes k mode call := by
  unfold callTests at h
  split at h
  · simp only [Bool.and_eq_true, decide_eq_true_eq] at h
    exact taskDelay_computes hmode h.1.1.1 h.1.1.2 h.1.2 h.2
  · simp only [Bool.and_eq_true] at h
    obtain ⟨s, hs⟩ := Option.isSome_iff_exists.mp h.1.1
    exact semaphoreTake_computes hmode (Object.semaphore?_eq_some.mp hs) h.1.2 h.2
  · simp only [Bool.and_eq_true] at h
    obtain ⟨s, hs⟩ := Option.isSome_iff_exists.mp h.1
    exact semaphoreGive_computes (.inl ⟨rfl, h.2⟩) (Object.semaphore?_eq_some.mp hs)
  · simp only [Bool.and_eq_true] at h
    obtain ⟨s, hs⟩ := Option.isSome_iff_exists.mp h.1
    exact semaphoreGive_computes (.inr ⟨rfl, h.2⟩) (Object.semaphore?_eq_some.mp hs)
  · simp only [Bool.and_eq_true] at h
    obtain ⟨m, hm⟩ := Option.isSome_iff_exists.mp h.1.1
    exact mutexLock_computes hmode (Object.mutex?_eq_some.mp hm) h.1.2 h.2
  · simp only [Bool.and_eq_true] at h
    obtain ⟨m, hm⟩ := Option.isSome_iff_exists.mp h.1
    exact mutexUnlock_computes hmode (Object.mutex?_eq_some.mp hm) h.2
  · simp only [Bool.and_eq_true] at h
    obtain ⟨q, hq⟩ := Option.isSome_iff_exists.mp h.1.1
    obtain ⟨self, hself, hcaller⟩ := callerOf_apiValid hmode h.2
    have hobj := Object.queue?_eq_some.mp hq
    rw [Computes, hcaller, ← hself]
    exact queueTryOrWait_computes hobj h.1.2 h.2 (run_queueSendCommon hobj)
  · simp only [Bool.and_eq_true] at h
    obtain ⟨q, hq⟩ := Option.isSome_iff_exists.mp h.1.1
    obtain ⟨self, hself, hcaller⟩ := callerOf_apiValid hmode h.2
    have hobj := Object.queue?_eq_some.mp hq
    rw [Computes, hcaller, ← hself]
    exact queueTryOrWait_computes hobj h.1.2 h.2 (run_queueReceiveCommon hobj)
  · simp only [Bool.and_eq_true] at h
    obtain ⟨q, hq⟩ := Option.isSome_iff_exists.mp h.1
    have hobj := Object.queue?_eq_some.mp hq
    rw [Computes, callerOf_isr (by simp [h.2])]
    exact queueTryFromIsr_computes hobj h.2 (run_queueSendCommon hobj)
  · simp only [Bool.and_eq_true] at h
    obtain ⟨q, hq⟩ := Option.isSome_iff_exists.mp h.1
    have hobj := Object.queue?_eq_some.mp hq
    rw [Computes, callerOf_isr (by simp [h.2])]
    exact queueTryFromIsr_computes hobj h.2 (run_queueReceiveCommon hobj)
  · cases h

end Stm32f411.CallMeaning
