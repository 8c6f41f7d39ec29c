import Stm32f411.RtosKernelSpec
import Stm32f411.RtosSystem

/-!
Everything one API call can do. `CallEffect` has one case for each way through the ten
entry points, with the guards under which it is taken; the invariants of the kernel are
proved by cases on it.
-/

namespace Stm32f411.RtosCallSpec

open Stm32f411.RtosTypes
open Stm32f411.RtosKernel
open Stm32f411.RtosIpc
open Stm32f411.RtosSystem
open Stm32f411.RtosKernelSpec

variable {τ ι : Type}

/-- What a call that may sleep sleeps on: wait type, object, buffer and timeout. -/
def callWait : Call ι → Option (WaitType × ι × Option BufferPtr × Word)
  | .semaphoreTake (some p) timeoutTicks => some (.semaphore, p, none, timeoutTicks)
  | .mutexLock (some p) timeoutTicks => some (.mutex, p, none, timeoutTicks)
  | .queueSend (some p) (some item) timeoutTicks =>
      some (.queueSend, p, some item, timeoutTicks)
  | .queueReceive (some p) (some item) timeoutTicks =>
      some (.queueReceive, p, some item, timeoutTicks)
  | _ => none

def callGives : Call ι → Option ι
  | .semaphoreGive p => p
  | .semaphoreGiveFromIsr p => p
  | _ => none

def callSends : Call ι → Option (ι × BufferPtr)
  | .queueSend (some p) (some item) _ => some (p, item)
  | .queueSendFromIsr (some p) (some item) => some (p, item)
  | _ => none

def callReceives : Call ι → Option (ι × BufferPtr)
  | .queueReceive (some p) (some item) _ => some (p, item)
  | .queueReceiveFromIsr (some p) (some item) => some (p, item)
  | _ => none

/-- The current task after `rtos_kernel_block_current`. -/
@[simps -fullyApplied]
def sleepOn [DecidableEq τ] (k : Kernel τ ι) (self : τ) (waitType : WaitType) (object : ι)
    (buffer : Option BufferPtr) (timeoutTicks : Word) : Kernel τ ι :=
  { k with
    tcb := Function.update k.tcb self
      (enterWait k waitType object buffer timeoutTicks (k.tcb self))
    waitSequence := k.waitSequence + 1
    pended := true }

/-- The state of the object that sends a semaphore or queue call to sleep. -/
def MustWait [DecidableEq ι] (k : Kernel τ ι) : WaitType → ι → Prop
  | .semaphore, p => ∃ s, k.objects p = .semaphore s ∧ s.count = 0
  | .queueSend, p => ∃ q, k.objects p = .queue q ∧ q.capacity ≤ q.count ∧
      rtosKernelFindWaiter k .queueReceive p = none
  | .queueReceive, p => ∃ q, k.objects p = .queue q ∧ q.count = 0
  | _, _ => False

theorem mustWait_matches [DecidableEq ι] {k : Kernel τ ι} {waitType : WaitType} {p : ι}
    (h : MustWait k waitType p) : waitType.matches (k.objects p) := by
  cases waitType with
  | none => exact h
  | mutex => exact h.elim
  | semaphore =>
      obtain ⟨s, hobj, _⟩ := h
      simp [hobj]
  | queueSend =>
      obtain ⟨q, hobj, _⟩ := h
      simp [hobj]
  | queueReceive =>
      obtain ⟨q, hobj, _⟩ := h
      simp [hobj]

theorem callWait_buffer {call : Call ι} {waitType : WaitType} {p : ι}
    {buffer : Option BufferPtr} {timeoutTicks : Word}
    (h : callWait call = some (waitType, p, buffer, timeoutTicks))
    (htype : waitType = .queueSend ∨ waitType = .queueReceive) : ∃ b, buffer = some b := by
  unfold callWait at h
  split at h <;> simp at h <;> grind

/-- A call made by the running task. -/
structure ThreadCall (k : Kernel τ ι) (mode : Mode) (task : τ) : Prop where
  mode_eq : mode = .thread
  running : k.running = true
  current : k.currentTask = some task

inductive CallEffect [DecidableEq τ] [DecidableEq ι]
    (k : Kernel τ ι) (mode : Mode) : Call ι → Kernel τ ι → Outcome → Prop
  | refused {call : Call ι} {result : Status} :
      result ≠ .ok → result ≠ .errTimeout → CallEffect k mode call k (.returned result)
  | ignored {call : Call ι} :
      call = .taskYield ∨ call = .taskDelay 0 → CallEffect k mode call k (.returned .ok)
  | yielded {call : Call ι} :
      call = .taskYield ∨ call = .taskDelay 0 → k.running = true →
      CallEffect k mode call (rtosPortPendContextSwitch k) (.returned .ok)
  | delayed {self : τ} {ticks : Word} :
      ThreadCall k mode self → ticks ≠ 0 → ticks ≤ int32Max →
      CallEffect k mode (.taskDelay ticks)
        (rtosPortPendContextSwitch (k.modifyTask self fun t =>
          { t with wakeTick := k.tick + ticks, waitForever := false, state := .delayed }))
        .suspended
  | slept {self : τ} {call : Call ι} {waitType : WaitType} {p : ι}
      {buffer : Option BufferPtr} {timeoutTicks : Word} :
      ThreadCall k mode self →
      callWait call = some (waitType, p, buffer, timeoutTicks) →
      timeoutTicks ≠ 0 → rtosTimeoutValid timeoutTicks = true → MustWait k waitType p →
      CallEffect k mode call (sleepOn k self waitType p buffer timeoutTicks) .suspended
  | sleptOnMutex {self owner : τ} {p : ι} {m : Mutex τ} {timeoutTicks : Word} :
      ThreadCall k mode self → timeoutTicks ≠ 0 → rtosTimeoutValid timeoutTicks = true →
      k.objects p = .mutex m → m.owner = some owner → owner ≠ self →
      CallEffect k mode (.mutexLock (some p) timeoutTicks)
        (rtosKernelRecomputePriorities (sleepOn k self .mutex p none timeoutTicks)) .suspended
  | took {self : τ} {p : ι} {s : Semaphore} {timeoutTicks : Word} :
      ThreadCall k mode self → k.objects p = .semaphore s → s.count ≠ 0 →
      CallEffect k mode (.semaphoreTake (some p) timeoutTicks)
        ((k.setObject p (.semaphore { s with count := s.count - 1 })).record (.took p self))
        (.returned .ok)
  | gave {call : Call ι} {p : ι} {s : Semaphore} :
      callGives call = some p → k.objects p = .semaphore s →
      rtosKernelFindWaiter k .semaphore p = none → s.count < s.maximumCount →
      CallEffect k mode call
        (k.setObject p (.semaphore { s with count := s.count + 1 })) (.returned .ok)
  | gaveTo {call : Call ι} {p : ι} {s : Semaphore} {waiter : τ} :
      callGives call = some p → k.objects p = .semaphore s →
      rtosKernelFindWaiter k .semaphore p = some waiter →
      CallEffect k mode call
        (rtosMaybePreempt ((k.modifyTask waiter (leaveWait .ok)).record (.took p waiter))
          (some waiter)) (.returned .ok)
  | locked {self : τ} {p : ι} {m : Mutex τ} {timeoutTicks : Word} :
      ThreadCall k mode self → rtosTimeoutValid timeoutTicks = true →
      k.objects p = .mutex m → m.owner = none →
      CallEffect k mode (.mutexLock (some p) timeoutTicks)
        (((k.setObject p (.mutex ⟨some self⟩)).modifyTask self fun t =>
          { t with mutexHoldCount := t.mutexHoldCount + 1 }).record (.locked p self))
        (.returned .ok)
  | unlocked {self : τ} {p : ι} {m : Mutex τ} :
      ThreadCall k mode self → k.objects p = .mutex m → m.owner = some self →
      rtosKernelFindWaiter (releaseHold k p self) .mutex p = none →
      CallEffect k mode (.mutexUnlock (some p))
        (rtosKernelRecomputePriorities ((releaseHold k p self).setObject p (.mutex ⟨none⟩)))
        (.returned .ok)
  | unlockedTo {self waiter : τ} {p : ι} {m : Mutex τ} :
      ThreadCall k mode self → k.objects p = .mutex m → m.owner = some self →
      rtosKernelFindWaiter (releaseHold k p self) .mutex p = some waiter →
      CallEffect k mode (.mutexUnlock (some p))
        (rtosMaybePreempt
          (rtosKernelRecomputePriorities (grantHold (releaseHold k p self) p waiter))
          (some waiter)) (.returned .ok)
  | sent {call : Call ι} {p : ι} {q : Queue} {item : BufferPtr} :
      callSends call = some (p, item) → k.objects p = .queue q →
      rtosKernelFindWaiter k .queueReceive p = none → q.count < q.capacity →
      CallEffect k mode call (pushItem k (callerOf k mode) p q (k.memory item))
        (.returned .ok)
  | sentTo {call : Call ι} {p : ι} {q : Queue} {item : BufferPtr} {receiver : τ} :
      callSends call = some (p, item) → k.objects p = .queue q →
      rtosKernelFindWaiter k .queueReceive p = some receiver →
      CallEffect k mode call
        (rtosMaybePreempt (handItem k (callerOf k mode) p q item receiver) (some receiver))
        (.returned .ok)
  | received {call : Call ι} {p : ι} {q : Queue} {item : BufferPtr} :
      callReceives call = some (p, item) → k.objects p = .queue q → q.count ≠ 0 →
      rtosKernelFindWaiter (popItem k (callerOf k mode) p q item) .queueSend p = none →
      CallEffect k mode call (popItem k (callerOf k mode) p q item) (.returned .ok)
  | receivedFrom {call : Call ι} {p : ι} {q : Queue} {item : BufferPtr} {sender : τ} :
      callReceives call = some (p, item) → k.objects p = .queue q → q.count ≠ 0 →
      rtosKernelFindWaiter (popItem k (callerOf k mode) p q item) .queueSend p =
        some sender →
      CallEffect k mode call
        (rtosMaybePreempt
          ((pushItem (popItem k (callerOf k mode) p q item) (some sender) p
            (rtosQueuePop q (k.memory item)).1
            (waitBytes (popItem k (callerOf k mode) p q item) sender)).modifyTask sender
              (leaveWait .ok)) (some sender)) (.returned .ok)

section Cases

variable {k k' : Kernel τ ι} {mode : Mode}

/-- A handler never passes for Thread mode. -/
def HandlerNumbered (mode : Mode) : Prop :=
  ∀ exception priority, mode = .handler exception priority → exception ≠ 0

theorem threadCall_of_valid (hmode : HandlerNumbered mode)
    (h : ¬rtosKernelThreadApiValid k mode = false) {self : τ}
    (hself : k.currentTask = some self) : ThreadCall k mode self := by
  simp only [rtosKernelThreadApiValid, Bool.not_eq_false, Bool.and_eq_true,
    decide_eq_true_eq] at h
  refine ⟨?_, h.1.1, hself⟩
  cases mode with
  | thread => rfl
  | handler exception priority => exact absurd h.1.2 (hmode _ _ rfl)

theorem callerOf_isr (h : ¬rtosPortIsKernelAwareIsr k mode = false) :
    callerOf k mode = none := by
  cases mode with
  | thread => simp [rtosPortIsKernelAwareIsr] at h
  | handler exception priority => rfl

variable [DecidableEq τ]

theorem blockCurrent_sleepOn {self : τ} (hself : k.currentTask = some self)
    {timeoutTicks : Word} (htime : rtosTimeoutValid timeoutTicks = true)
    (waitType : WaitType) (p : ι) (buffer : Option BufferPtr) :
    (rtosKernelBlockCurrent k waitType p buffer timeoutTicks).1 =
      sleepOn k self waitType p buffer timeoutTicks :=
  blockCurrent_eq hself htime waitType p buffer

variable [DecidableEq ι]

theorem taskYield_effect {call : Call ι} (hcall : call = .taskYield ∨ call = .taskDelay 0) :
    CallEffect k mode call (rtosTaskYield k mode) (.returned .ok) := by
  unfold rtosTaskYield
  split
  · next h => exact .yielded hcall h.1
  · exact .ignored hcall

theorem taskDelay_effect (hmode : HandlerNumbered mode) (ticks : Word) :
    CallEffect k mode (.taskDelay ticks) (rtosTaskDelay k mode ticks).1
      (rtosTaskDelay k mode ticks).2 := by
  unfold rtosTaskDelay
  split
  · next h =>
      subst h
      exact taskYield_effect (Or.inr rfl)
  · next hzero =>
      split
      · exact .refused (by simp) (by simp)
      · next hvalid =>
          simp only [not_or] at hvalid
          split
          · exact .refused (by simp) (by simp)
          · next self hself =>
              refine .delayed (threadCall_of_valid hmode hvalid.1 hself) hzero ?_
              have htime := hvalid.2.1
              simp only [rtosTimeoutValid, Bool.or_eq_false_iff, decide_eq_false_iff_not,
                not_and_or, not_not, hvalid.2.2, false_or] at htime
              exact htime

theorem semaphoreTake_effect (hmode : HandlerNumbered mode) (semaphore : Option ι)
    (timeoutTicks : Word) :
    CallEffect k mode (.semaphoreTake semaphore timeoutTicks)
      (rtosSemaphoreTake k mode semaphore timeoutTicks).1
      (rtosSemaphoreTake k mode semaphore timeoutTicks).2 := by
  unfold rtosSemaphoreTake
  split
  · exact .refused (by simp) (by simp)
  · next p =>
      split
      · exact .refused (by simp) (by simp)
      · next s hs =>
          have hobj := Object.semaphore?_eq_some.mp hs
          split
          · exact .refused (by simp) (by simp)
          · next htime =>
              split
              · exact .refused (by simp) (by simp)
              · next hvalid =>
                  split
                  · exact .refused (by simp) (by simp)
                  · next self hself =>
                      have hthread := threadCall_of_valid hmode hvalid hself
                      split
                      · next hcount => exact .took hthread hobj hcount
                      · next hcount =>
                          split
                          · exact .refused (by simp) (by simp)
                          · next hzero =>
                              have htime' : rtosTimeoutValid timeoutTicks = true := by
                                simpa using htime
                              simp only [blockCurrent_sleepOn hself htime']
                              exact .slept hthread rfl hzero htime'
                                ⟨s, hobj, by simpa using hcount⟩

theorem semaphoreGiveWhen_effect {call : Call ι} {semaphore : Option ι}
    (hcall : callGives call = semaphore) (valid : Bool) :
    CallEffect k mode call (semaphoreGiveWhen k valid semaphore).1
      (.returned (semaphoreGiveWhen k valid semaphore).2) := by
  unfold semaphoreGiveWhen
  split
  · exact .refused (by simp) (by simp)
  · next p =>
      split
      · exact .refused (by simp) (by simp)
      · next s hs =>
          have hobj := Object.semaphore?_eq_some.mp hs
          split
          · exact .refused (by simp) (by simp)
          · unfold rtosSemaphoreGiveCommon
            split
            · next waiter hfind => exact .gaveTo hcall hobj hfind
            · next hfind =>
                split
                · exact .refused (by simp) (by simp)
                · next hmax => exact .gave hcall hobj hfind (by simpa using hmax)

theorem mutexLock_effect (hmode : HandlerNumbered mode) (mutex : Option ι)
    (timeoutTicks : Word) :
    CallEffect k mode (.mutexLock mutex timeoutTicks)
      (rtosMutexLock k mode mutex timeoutTicks).1
      (rtosMutexLock k mode mutex timeoutTicks).2 := by
  unfold rtosMutexLock
  split
  · exact .refused (by simp) (by simp)
  · next p =>
      split
      · exact .refused (by simp) (by simp)
      · next m hm =>
          have hobj := Object.mutex?_eq_some.mp hm
          split
          · exact .refused (by simp) (by simp)
          · next htime =>
              split
              · exact .refused (by simp) (by simp)
              · next hvalid =>
                  split
                  · exact .refused (by simp) (by simp)
                  · next self hself =>
                      have hthread := threadCall_of_valid hmode hvalid hself
                      split
                      · next howner => exact .locked hthread (by simpa using htime) hobj howner
                      · next owner howner =>
                          split
                          · exact .refused (by simp) (by simp)
                          · next hother =>
                              split
                              · exact .refused (by simp) (by simp)
                              · next hzero =>
                                  have htime' : rtosTimeoutValid timeoutTicks = true := by
                                    simpa using htime
                                  simp only [blockCurrent_sleepOn hself htime']
                                  exact .sleptOnMutex hthread hzero htime' hobj howner hother

theorem mutexUnlock_effect (hmode : HandlerNumbered mode) (mutex : Option ι) :
    CallEffect k mode (.mutexUnlock mutex) (rtosMutexUnlock k mode mutex).1
      (.returned (rtosMutexUnlock k mode mutex).2) := by
  unfold rtosMutexUnlock
  split
  · exact .refused (by simp) (by simp)
  · next p =>
      split
      · exact .refused (by simp) (by simp)
      · next m hm =>
          have hobj := Object.mutex?_eq_some.mp hm
          split
          · exact .refused (by simp) (by simp)
          · next hvalid =>
              split
              · exact .refused (by simp) (by simp)
              · next self hself =>
                  have hthread := threadCall_of_valid hmode hvalid hself
                  split
                  · exact .refused (by simp) (by simp)
                  · next howner =>
                      have howner' : m.owner = some self := by simpa using howner
                      dsimp only
                      split
                      · next waiter hfind => exact .unlockedTo hthread hobj howner' hfind
                      · next hfind =>
                          simpa [rtosMaybePreempt, rtosKernelShouldPreempt] using
                            CallEffect.unlocked hthread hobj howner' hfind

theorem queueSendCommon_effect (call : Call ι) {p : ι} {q : Queue} {item : BufferPtr}
    {caller : Option τ} (hcaller : callerOf k mode = caller)
    (hcall : callSends call = some (p, item)) (hobj : k.objects p = .queue q) :
    (rtosQueueSendCommon k caller p q item = (k, .errBusy) ∧ q.capacity ≤ q.count ∧
        rtosKernelFindWaiter k .queueReceive p = none) ∨
      ((rtosQueueSendCommon k caller p q item).2 = .ok ∧
        CallEffect k mode call (rtosQueueSendCommon k caller p q item).1 (.returned .ok)) := by
  subst hcaller
  unfold rtosQueueSendCommon
  split
  · next receiver hfind => exact Or.inr ⟨rfl, .sentTo hcall hobj hfind⟩
  · next hfind =>
      split
      · next hfull => exact Or.inl ⟨rfl, hfull, hfind⟩
      · next hfull => exact Or.inr ⟨rfl, .sent hcall hobj hfind (by simpa using hfull)⟩

theorem queueReceiveCommon_effect (call : Call ι) {p : ι} {q : Queue} {item : BufferPtr}
    {caller : Option τ} (hcaller : callerOf k mode = caller)
    (hcall : callReceives call = some (p, item)) (hobj : k.objects p = .queue q) :
    (rtosQueueReceiveCommon k caller p q item = (k, .errBusy) ∧ q.count = 0) ∨
      ((rtosQueueReceiveCommon k caller p q item).2 = .ok ∧
        CallEffect k mode call (rtosQueueReceiveCommon k caller p q item).1
          (.returned .ok)) := by
  subst hcaller
  unfold rtosQueueReceiveCommon
  split
  · next hempty => exact Or.inl ⟨rfl, hempty⟩
  · next hempty =>
      dsimp only
      split
      · next sender hfind => exact Or.inr ⟨rfl, .receivedFrom hcall hobj hempty hfind⟩
      · next hfind => exact Or.inr ⟨rfl, .received hcall hobj hempty hfind⟩

/-- Both thread-mode queue calls: the common part succeeds, is busy and sleeps, or is
busy and fails. -/
theorem queueTryOrWait_effect (hmode : HandlerNumbered mode) {call : Call ι}
    {waitType : WaitType}
    {common : Kernel τ ι → Option τ → ι → Queue → BufferPtr → Kernel τ ι × Status}
    {queue : Option ι} {item : Option BufferPtr} {timeoutTicks : Word}
    (hwait : ∀ p b, queue = some p → item = some b →
      callWait call = some (waitType, p, some b, timeoutTicks))
    (hcommon : ∀ p b q self, queue = some p → item = some b → ThreadCall k mode self →
      k.objects p = .queue q →
      (common k (some self) p q b = (k, .errBusy) ∧ MustWait k waitType p) ∨
        ((common k (some self) p q b).2 = .ok ∧
          CallEffect k mode call (common k (some self) p q b).1 (.returned .ok))) :
    CallEffect k mode call
      (queueTryOrWait k mode waitType common queue item timeoutTicks).1
      (queueTryOrWait k mode waitType common queue item timeoutTicks).2 := by
  unfold queueTryOrWait
  split
  · next p b =>
      split
      · exact .refused (by simp) (by simp)
      · next q hq =>
          have hobj := Object.queue?_eq_some.mp hq
          split
          · exact .refused (by simp) (by simp)
          · next htime =>
              split
              · exact .refused (by simp) (by simp)
              · next hvalid =>
                  obtain ⟨self, hself⟩ : ∃ self, k.currentTask = some self := by
                    simp only [rtosKernelThreadApiValid, Bool.not_eq_false,
                      Bool.and_eq_true] at hvalid
                    exact Option.isSome_iff_exists.mp hvalid.2
                  have hthread := threadCall_of_valid hmode hvalid hself
                  have htime' : rtosTimeoutValid timeoutTicks = true := by simpa using htime
                  dsimp only
                  rw [hself]
                  rcases hcommon p b q self rfl rfl hthread hobj with
                    ⟨hbusy, hmust⟩ | ⟨hok, heffect⟩
                  · rw [hbusy]
                    split
                    · next hsleep =>
                        simp only [blockCurrent_sleepOn hself htime']
                        exact .slept hthread (hwait p b rfl rfl) hsleep.2 htime' hmust
                    · exact .refused (by simp) (by simp)
                  · simpa [hok] using heffect
  · exact .refused (by simp) (by simp)

theorem queueTryFromIsr_effect {call : Call ι}
    {common : Kernel τ ι → Option τ → ι → Queue → BufferPtr → Kernel τ ι × Status}
    {queue : Option ι} {item : Option BufferPtr}
    (hcommon : ∀ p b q, queue = some p → item = some b → callerOf k mode = none →
      k.objects p = .queue q →
      common k none p q b = (k, .errBusy) ∨
        ((common k none p q b).2 = .ok ∧
          CallEffect k mode call (common k none p q b).1 (.returned .ok))) :
    CallEffect k mode call (queueTryFromIsr k mode common queue item).1
      (.returned (queueTryFromIsr k mode common queue item).2) := by
  unfold queueTryFromIsr
  split
  · next p b =>
      split
      · exact .refused (by simp) (by simp)
      · next q hq =>
          split
          · exact .refused (by simp) (by simp)
          · next hisr =>
              rcases hcommon p b q rfl rfl (callerOf_isr hisr)
                  (Object.queue?_eq_some.mp hq) with hbusy | ⟨hok, heffect⟩
              · rw [hbusy]
                exact .refused (by simp) (by simp)
              · rw [hok]
                exact heffect
  · exact .refused (by simp) (by simp)

omit [DecidableEq τ] [DecidableEq ι] in
theorem callerOf_thread {self : τ} (h : ThreadCall k mode self) :
    callerOf k mode = some self := by
  obtain ⟨rfl, _, hself⟩ := h
  exact hself

theorem CallEffect.threadCall {k' : Kernel τ ι} {call : Call ι}
    (h : CallEffect k mode call k' .suspended) : ∃ self, ThreadCall k mode self := by
  cases h with
  | delayed hthread _ _ => exact ⟨_, hthread⟩
  | slept hthread _ _ _ _ => exact ⟨_, hthread⟩
  | sleptOnMutex hthread _ _ _ _ _ => exact ⟨_, hthread⟩

/-- Every call does one of the things listed. -/
theorem rtosCall_effect (hmode : HandlerNumbered mode) (call : Call ι) :
    CallEffect k mode call (rtosCall k mode call).1 (rtosCall k mode call).2 := by
  cases call with
  | taskYield => exact taskYield_effect (Or.inl rfl)
  | taskDelay ticks => exact taskDelay_effect hmode ticks
  | semaphoreTake semaphore timeoutTicks =>
      exact semaphoreTake_effect hmode semaphore timeoutTicks
  | semaphoreGive semaphore => exact semaphoreGiveWhen_effect rfl _
  | semaphoreGiveFromIsr semaphore => exact semaphoreGiveWhen_effect rfl _
  | mutexLock mutex timeoutTicks => exact mutexLock_effect hmode mutex timeoutTicks
  | mutexUnlock mutex => exact mutexUnlock_effect hmode mutex
  | queueSend queue item timeoutTicks =>
      refine queueTryOrWait_effect hmode ?_ ?_
      · rintro p b rfl rfl
        rfl
      · rintro p b q self rfl rfl hthread hobj
        rcases queueSendCommon_effect (.queueSend (some p) (some b) timeoutTicks)
            (callerOf_thread hthread) rfl hobj with
          ⟨hbusy, hfull, hfind⟩ | hok
        · exact Or.inl ⟨hbusy, q, hobj, hfull, hfind⟩
        · exact Or.inr hok
  | queueReceive queue item timeoutTicks =>
      refine queueTryOrWait_effect hmode ?_ ?_
      · rintro p b rfl rfl
        rfl
      · rintro p b q self rfl rfl hthread hobj
        rcases queueReceiveCommon_effect (.queueReceive (some p) (some b) timeoutTicks)
            (callerOf_thread hthread) rfl hobj with
          ⟨hbusy, hempty⟩ | hok
        · exact Or.inl ⟨hbusy, q, hobj, hempty⟩
        · exact Or.inr hok
  | queueSendFromIsr queue item =>
      apply queueTryFromIsr_effect
      rintro p b q rfl rfl hcaller hobj
      rcases queueSendCommon_effect (.queueSendFromIsr (some p) (some b)) hcaller rfl
          hobj with ⟨hbusy, _⟩ | hok
      · exact Or.inl hbusy
      · exact Or.inr hok
  | queueReceiveFromIsr queue item =>
      apply queueTryFromIsr_effect
      rintro p b q rfl rfl hcaller hobj
      rcases queueReceiveCommon_effect (.queueReceiveFromIsr (some p) (some b)) hcaller rfl
          hobj with ⟨hbusy, _⟩ | hok
      · exact Or.inl hbusy
      · exact Or.inr hok

/-- No call registers a task, starts the kernel, switches tasks or moves the clock. -/
structure SameFrame (k k' : Kernel τ ι) : Prop where
  tasks : k'.tasks = k.tasks
  running : k'.running = k.running
  currentTask : k'.currentTask = k.currentTask
  tick : k'.tick = k.tick

omit [DecidableEq τ] [DecidableEq ι] in
theorem sameFrame_maybePreempt (h : SameFrame k k') (t : Option τ) :
    SameFrame k (rtosMaybePreempt k' t) :=
  ⟨by rw [maybePreempt_tasks, h.tasks], by rw [maybePreempt_running, h.running],
    by rw [maybePreempt_currentTask, h.currentTask], by rw [maybePreempt_tick, h.tick]⟩

theorem CallEffect.frame {call : Call ι} {outcome : Outcome}
    (h : CallEffect k mode call k' outcome) : SameFrame k k' := by
  cases h with
  | gaveTo _ _ _ =>
      refine sameFrame_maybePreempt ?_ _
      exact ⟨rfl, rfl, rfl, rfl⟩
  | unlockedTo _ _ _ _ =>
      refine sameFrame_maybePreempt ?_ _
      exact ⟨rfl, rfl, rfl, rfl⟩
  | sentTo _ _ _ =>
      refine sameFrame_maybePreempt ?_ _
      constructor <;> simp [handItem]
  | receivedFrom _ _ _ _ =>
      refine sameFrame_maybePreempt ?_ _
      exact ⟨rfl, rfl, rfl, rfl⟩
  | _ => exact ⟨rfl, rfl, rfl, rfl⟩

end Cases

section Tasks

/-- A TCB changed at most in its effective priority and its hold count. -/
def Kept (t t' : RtosTask ι) : Prop :=
  ∃ priority holds, t' = { t with effectivePriority := priority, mutexHoldCount := holds }

theorem Kept.refl (t : RtosTask ι) : Kept t t :=
  ⟨t.effectivePriority, t.mutexHoldCount, rfl⟩

theorem Kept.trans {t₁ t₂ t₃ : RtosTask ι} (h₁ : Kept t₁ t₂) (h₂ : Kept t₂ t₃) :
    Kept t₁ t₃ := by
  obtain ⟨_, _, rfl⟩ := h₁
  obtain ⟨priority, holds, rfl⟩ := h₂
  exact ⟨priority, holds, rfl⟩

theorem Kept.leaveWait {t t' : RtosTask ι} (h : Kept t t') (result : Status) :
    Kept (leaveWait result t) (leaveWait result t') := by
  obtain ⟨priority, holds, rfl⟩ := h
  exact ⟨priority, holds, rfl⟩

theorem isWaiter_kept [DecidableEq ι] {k k' : Kernel τ ι} {t : τ} (h : Kept (k.tcb t) (k'.tcb t))
    (waitType : WaitType) (p : ι) : isWaiter k' waitType p t = isWaiter k waitType p t := by
  obtain ⟨_, _, h⟩ := h
  simp [isWaiter, h]

variable [DecidableEq τ]

theorem kept_recompute (k : Kernel τ ι) (t : τ) :
    Kept (k.tcb t) ((rtosKernelRecomputePriorities k).tcb t) :=
  ⟨recomputedPriority k t, (k.tcb t).mutexHoldCount, rfl⟩

theorem kept_holds (k : Kernel τ ι) (w : τ) (holds : RtosTask ι → BitVec 8) (t : τ) :
    Kept (k.tcb t)
      ((k.modifyTask w fun u => { u with mutexHoldCount := holds u }).tcb t) := by
  rcases eq_or_ne t w with rfl | ht
  · exact ⟨(k.tcb t).effectivePriority, holds (k.tcb t), by simp⟩
  · simpa [ht] using Kept.refl (k.tcb t)

theorem kept_take [DecidableEq ι] (k : Kernel τ ι) (p : ι) (m : Object τ) (w t : τ) :
    Kept (k.tcb t) (((k.setObject p m).modifyTask w
      fun u => { u with mutexHoldCount := u.mutexHoldCount + 1 }).tcb t) :=
  kept_holds (k.setObject p m) w (fun u => u.mutexHoldCount + 1) t

theorem kept_release (k : Kernel τ ι) (p : ι) (w t : τ) :
    Kept (k.tcb t) ((releaseHold k p w).tcb t) :=
  kept_holds k w (fun u => if u.mutexHoldCount ≠ 0 then u.mutexHoldCount - 1
    else u.mutexHoldCount) t

variable [DecidableEq ι]

/-- What a direct hand-over does to the TCB of the new owner. -/
theorem handOver_waiter (k : Kernel τ ι) (p : ι) (self waiter : τ) :
    Kept (leaveWait .ok (k.tcb waiter)) ((rtosKernelRecomputePriorities
      (grantHold (releaseHold k p self) p waiter)).tcb waiter) := by
  have hgranted := (kept_release k p self waiter).trans
    (kept_take (releaseHold k p self) p (.mutex ⟨some waiter⟩) waiter waiter)
  refine (hgranted.leaveWait .ok).trans (Kept.trans ?_ (kept_recompute _ _))
  simpa [grantHold] using Kept.refl _

theorem handOver_rest (k : Kernel τ ι) (p : ι) (self : τ) {waiter t : τ} (ht : t ≠ waiter) :
    Kept (k.tcb t) ((rtosKernelRecomputePriorities
      (grantHold (releaseHold k p self) p waiter)).tcb t) := by
  have hgranted := (kept_release k p self t).trans
    (kept_take (releaseHold k p self) p (.mutex ⟨some waiter⟩) waiter t)
  refine hgranted.trans (Kept.trans ?_ (kept_recompute _ _))
  simpa [grantHold, ht] using Kept.refl _

/-- What a call does to one TCB. -/
inductive TaskEffect (k : Kernel τ ι) (mode : Mode) (call : Call ι) (t : τ) :
    RtosTask ι → Outcome → Prop
  | kept {t' : RtosTask ι} {outcome : Outcome} :
      Kept (k.tcb t) t' → TaskEffect k mode call t t' outcome
  | woken {t' : RtosTask ι} {waitType : WaitType} {p : ι} :
      t ∈ k.tasks → isWaiter k waitType p t = true →
      Kept (leaveWait .ok (k.tcb t)) t' → TaskEffect k mode call t t' (.returned .ok)
  | delayed {ticks : Word} :
      ThreadCall k mode t → call = .taskDelay ticks → ticks ≠ 0 → ticks ≤ int32Max →
      TaskEffect k mode call t
        { k.tcb t with wakeTick := k.tick + ticks, waitForever := false, state := .delayed }
        .suspended
  | slept {t' : RtosTask ι} {waitType : WaitType} {p : ι} {buffer : Option BufferPtr}
      {timeoutTicks : Word} :
      ThreadCall k mode t → callWait call = some (waitType, p, buffer, timeoutTicks) →
      timeoutTicks ≠ 0 → rtosTimeoutValid timeoutTicks = true →
      Kept (enterWait k waitType p buffer timeoutTicks (k.tcb t)) t' →
      TaskEffect k mode call t t' .suspended

variable {k k' : Kernel τ ι} {mode : Mode}

omit [DecidableEq τ] in
theorem wakes_one {f : Kernel τ ι} {w t : τ} {waitType : WaitType} {p : ι} {call : Call ι}
    (hfind : w ∈ k.tasks ∧ isWaiter k waitType p w = true)
    (hw : Kept (leaveWait .ok (k.tcb w)) (f.tcb w))
    (hrest : ∀ u, u ≠ w → Kept (k.tcb u) (f.tcb u)) :
    TaskEffect k mode call t (f.tcb t) (.returned .ok) := by
  rcases eq_or_ne t w with rfl | htw
  · exact .woken hfind.1 hfind.2 hw
  · exact .kept (hrest t htw)

omit [DecidableEq τ] in
theorem findWaiter_waits {k : Kernel τ ι} {waitType : WaitType} {p : ι} {w : τ}
    (h : rtosKernelFindWaiter k waitType p = some w) :
    w ∈ k.tasks ∧ isWaiter k waitType p w = true :=
  ⟨(findWaiter_eq_some h).1, (findWaiter_eq_some h).2.1⟩

theorem CallEffect.task {call : Call ι} {outcome : Outcome}
    (h : CallEffect k mode call k' outcome) (t : τ) :
    TaskEffect k mode call t (k'.tcb t) outcome := by
  cases h with
  | refused _ _ => exact .kept (.refl _)
  | ignored _ => exact .kept (.refl _)
  | yielded _ _ => exact .kept (.refl _)
  | @delayed self ticks hthread hzero hmax =>
      rcases eq_or_ne t self with rfl | ht
      · simpa using TaskEffect.delayed hthread rfl hzero hmax
      · exact .kept (by simpa [ht] using Kept.refl _)
  | @slept self _ _ _ _ _ hthread hwait hzero hvalid _ =>
      rcases eq_or_ne t self with rfl | ht
      · exact .slept hthread hwait hzero hvalid (by simpa using Kept.refl _)
      · exact .kept (by simpa [ht] using Kept.refl _)
  | @sleptOnMutex self _ _ _ _ hthread hzero hvalid _ _ _ =>
      rcases eq_or_ne t self with rfl | ht
      · refine .slept hthread rfl hzero hvalid (Kept.trans ?_ (kept_recompute _ _))
        simpa using Kept.refl _
      · refine .kept (Kept.trans ?_ (kept_recompute _ _))
        simpa [ht] using Kept.refl _
  | took _ _ _ => exact .kept (.refl _)
  | gave _ _ _ _ => exact .kept (.refl _)
  | gaveTo _ _ hfind =>
      refine wakes_one (findWaiter_waits hfind) ?_ fun u hu => ?_
      · simpa using Kept.refl _
      · simpa [hu] using Kept.refl _
  | locked _ _ _ _ => exact .kept (kept_take k _ _ _ t)
  | @unlocked self p _ _ _ _ _ =>
      exact .kept ((kept_release k p self t).trans (kept_recompute _ t))
  | @unlockedTo self waiter p _ _ _ _ hfind =>
      obtain ⟨hw, hwaits⟩ := findWaiter_waits hfind
      rw [isWaiter_kept (kept_release k p self waiter)] at hwaits
      refine wakes_one ⟨hw, hwaits⟩ ?_ fun u hu => ?_
      · rw [maybePreempt_tcb]
        exact handOver_waiter k p self waiter
      · rw [maybePreempt_tcb]
        exact handOver_rest k p self hu
  | sent _ _ _ _ => exact .kept (.refl _)
  | sentTo _ _ hfind =>
      refine wakes_one (findWaiter_waits hfind) ?_ fun u hu => ?_
      · simpa [handItem] using Kept.refl _
      · simpa [handItem, hu] using Kept.refl _
  | received _ _ _ _ => exact .kept (.refl _)
  | receivedFrom _ _ _ hfind =>
      refine wakes_one (findWaiter_waits hfind) ?_ fun u hu => ?_
      · simpa [pushItem, popItem] using Kept.refl _
      · simpa [pushItem, popItem, hu] using Kept.refl _

/-- Only a sleeping task is woken, and only the caller goes to sleep. -/
theorem CallEffect.untouched {call : Call ι} {outcome : Outcome}
    (h : CallEffect k mode call k' outcome) {t : τ} (hcaller : ¬ThreadCall k mode t)
    (hawake : (k.tcb t).state ≠ .blocked) : Kept (k.tcb t) (k'.tcb t) := by
  have htask := h.task t
  generalize k'.tcb t = t' at htask
  cases htask with
  | kept hkept => exact hkept
  | woken _ hwaits _ => exact absurd (isWaiter_iff.mp hwaits).1 hawake
  | delayed hcall _ _ _ => exact absurd hcall hcaller
  | slept hcall _ _ _ _ => exact absurd hcall hcaller

theorem CallEffect.blocked {call : Call ι} {outcome : Outcome}
    (h : CallEffect k mode call k' outcome) {t : τ} (hblocked : (k'.tcb t).state = .blocked) :
    (k.tcb t).state = .blocked ∨
      ThreadCall k mode t ∧ (callWait call).isSome = true ∧ outcome = .suspended := by
  have htask := h.task t
  generalize k'.tcb t = t' at htask hblocked
  cases htask with
  | kept hkept =>
      obtain ⟨_, _, rfl⟩ := hkept
      exact Or.inl hblocked
  | woken _ _ hkept =>
      obtain ⟨_, _, rfl⟩ := hkept
      simp [leaveWait] at hblocked
  | delayed _ _ _ _ => simp at hblocked
  | slept hcall hwait _ _ _ => exact Or.inr ⟨hcall, by simp [hwait], rfl⟩

end Tasks

end Stm32f411.RtosCallSpec
