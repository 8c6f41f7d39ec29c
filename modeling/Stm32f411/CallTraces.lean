import Stm32f411.OpenSpans
import Stm32f411.PriorityInheritance

/-!
What a call stands for in the history of a run, and what one call adds to it: what the
caller gets or gives, and what a sleeping task gets that the call serves.
-/

namespace Stm32f411.CallTraces

open Stm32f411.OpenSpans
open Stm32f411.LabelledRuns
open Stm32f411.RtosTypes
open Stm32f411.RtosKernel
open Stm32f411.RtosIpc
open Stm32f411.RtosSystem
open Stm32f411.RtosKernelSpec
open Stm32f411.RtosBootSpec
open Stm32f411.RtosCallSpec
open Stm32f411.RtosStepSpec
open Stm32f411.KernelSoundness

variable {τ ι β : Type}

/-- The calls of one caller, as spans of the history. -/
def callMark [DecidableEq τ] (caller : Option τ) : Event τ ι → Mark (Call ι × List Byte)
  | .called c call data => if c = caller then .opens (call, data) else .inside
  | .returned c _ _ _ => if c = caller then .closes else .inside
  | _ => .inside

/-- The life of an object since it was last initialised. -/
def initMark [DecidableEq ι] (p : ι) : Event τ ι → Mark ObjectInit
  | .initialised q kind => if q = p then .opens kind else .inside
  | _ => .inside

/-- What one caller gets or gives, with as much of an item as `see` shows. -/
inductive Effect (ι β : Type)
  | took (semaphore : ι)
  | locked (mutex : ι)
  | unlocked (mutex : ι)
  | accepted (queue : ι) (item : β)
  | delivered (queue : ι) (item : β)

def effectOf [DecidableEq τ]
    (see : List Byte → β) (caller : Option τ) : Event τ ι → Option (Effect ι β)
  | .took p t => if some t = caller then some (.took p) else none
  | .locked p t => if some t = caller then some (.locked p) else none
  | .unlocked p t => if some t = caller then some (.unlocked p) else none
  | .accepted p sender item => if sender = caller then some (.accepted p (see item)) else none
  | .delivered p receiver item =>
      if receiver = caller then some (.delivered p (see item)) else none
  | _ => none

def effectsOf [DecidableEq τ]
    (see : List Byte → β) (caller : Option τ) (events : List (Event τ ι)) :
    List (Effect ι β) :=
  events.filterMap (effectOf see caller)

/-- What a call that returns RTOS_OK stands for, given the caller's item on entry and on
return. -/
def callEffects (see : List Byte → β) (before after : List Byte) :
    Call ι → List (Effect ι β)
  | .semaphoreTake (some p) _ => [.took p]
  | .mutexLock (some p) _ => [.locked p]
  | .mutexUnlock (some p) => [.unlocked p]
  | .queueSend (some p) _ _ => [.accepted p (see before)]
  | .queueSendFromIsr (some p) _ => [.accepted p (see before)]
  | .queueReceive (some p) _ _ => [.delivered p (see after)]
  | .queueReceiveFromIsr (some p) _ => [.delivered p (see after)]
  | _ => []

/-- Every call that returned did what its result says. -/
def CallsExact [DecidableEq τ] (see : List Byte → β) (log : List (Event τ ι)) : Prop :=
  ∀ before after caller call result data,
    log = before ++ .returned caller call result data :: after →
    ∃ entry body, openSpan (callMark caller) before = some ((call, entry), body) ∧
      effectsOf see caller body =
        if result = .ok then callEffects see entry data call else []

section Logs

variable [DecidableEq τ]
variable {see : List Byte → β} {caller : Option τ} {log more : List (Event τ ι)}

theorem effectsOf_append (events more : List (Event τ ι)) :
    effectsOf see caller (events ++ more) =
      effectsOf see caller events ++ effectsOf see caller more :=
  List.filterMap_append

theorem callMark_inside {event : Event τ ι} (h : ¬IsMark event) :
    callMark caller event = .inside := by
  cases event <;> simp_all [callMark, IsMark]

theorem CallsExact.snoc (h : CallsExact see log) {event : Event τ ι}
    (hlast : ∀ c call result data, event = .returned c call result data →
      ∃ entry body, openSpan (callMark c) log = some ((call, entry), body) ∧
        effectsOf see c body = if result = .ok then callEffects see entry data call else []) :
    CallsExact see (log ++ [event]) := by
  intro before after c call result data hlog
  rcases List.eq_nil_or_concat after with rfl | ⟨rest, last, rfl⟩
  · obtain ⟨rfl, hevent⟩ := List.append_inj' hlog rfl
    exact hlast c call result data (List.singleton_inj.mp hevent)
  · rw [List.concat_eq_append, ← List.cons_append, ← List.append_assoc] at hlog
    exact h before rest c call result data (List.append_inj' hlog rfl).1

theorem CallsExact.append (h : CallsExact see log)
    (hmore : ∀ event ∈ more, ¬IsMark event) : CallsExact see (log ++ more) := by
  induction more generalizing log with
  | nil => simpa using h
  | cons event more ih =>
      have hevent : CallsExact see (log ++ [event]) := by
        apply h.snoc
        rintro c call result data rfl
        exact absurd (show IsMark (.returned c call result data) from trivial)
          (hmore _ (by simp))
      simpa using ih hevent fun e he => hmore e (by simp [he])

end Logs

section Traces

/-- A sleeping task is served: it is awake with RTOS_OK, and gets what it waits for. -/
inductive Served [DecidableEq τ] [DecidableEq ι]
    (see : List Byte → β) (k k' : Kernel τ ι) (events : List (Event τ ι))
    (t : τ) : Prop
  | intro {waitType : WaitType} {p : ι} :
      isWaiter k waitType p t = true → Kept (leaveWait .ok (k.tcb t)) (k'.tcb t) →
      (∀ call timeoutTicks,
        callWait call = some (waitType, p, (k.tcb t).waitBuffer, timeoutTicks) →
        effectsOf see (some t) events =
          callEffects see (callData k' call) (callData k' call) call) →
      Served see k k' events t

/-- What one call adds to the history. -/
structure CallTrace [DecidableEq τ] [DecidableEq ι]
    (see : List Byte → β) (k : Kernel τ ι) (mode : Mode) (call : Call ι)
    (k' : Kernel τ ι) (outcome : Outcome) (events : List (Event τ ι)) : Prop where
  log : k'.log = k.log ++ events
  unmarked : ∀ event ∈ events, ¬IsMark event
  own : effectsOf see (callerOf k mode) events =
    if outcome = .returned .ok then callEffects see (callData k call) (callData k' call) call
    else []
  others : ∀ t, callerOf k mode ≠ some t →
    (effectsOf see (some t) events = [] ∧ Kept (k.tcb t) (k'.tcb t)) ∨
      Served see k k' events t

variable {P : Platform τ} {see : List Byte → β} {k k' : Kernel τ ι} {mode : Mode}
variable {call : Call ι} {outcome : Outcome}

theorem callEffects_gives {p : ι} (h : callGives call = some p) (before after : List Byte) :
    callEffects see before after call = [] := by
  cases call <;> simp_all [callGives, callEffects]

theorem callEffects_sends {p : ι} {item : BufferPtr} (h : callSends call = some (p, item))
    (before after : List Byte) :
    callEffects see before after call = [.accepted p (see before)] := by
  unfold callSends at h
  split at h <;> simp_all [callEffects]

theorem callEffects_receives {p : ι} {item : BufferPtr}
    (h : callReceives call = some (p, item)) (before after : List Byte) :
    callEffects see before after call = [.delivered p (see after)] := by
  unfold callReceives at h
  split at h <;> simp_all [callEffects]

theorem callItem_sends {p : ι} {item : BufferPtr} (h : callSends call = some (p, item)) :
    callItem call = some (p, item) := by
  unfold callSends at h
  split at h <;> simp_all [callItem]

theorem callItem_receives {p : ι} {item : BufferPtr}
    (h : callReceives call = some (p, item)) : callItem call = some (p, item) := by
  unfold callReceives at h
  split at h <;> simp_all [callItem]

theorem callData_item {p : ι} {item : BufferPtr} {q : Queue}
    (h : callItem call = some (p, item)) (hobj : k.objects p = .queue q) :
    callData k call = Kernel.itemBytes (k.memory item) q := by
  simp [callData, h, hobj]

/-- A call that gives nobody anything. -/
theorem CallTrace.silent [DecidableEq τ] [DecidableEq ι] (hlog : k'.log = k.log)
    (hown : outcome = .returned .ok →
      callEffects see (callData k call) (callData k' call) call = [])
    (hkept : ∀ t, callerOf k mode ≠ some t → Kept (k.tcb t) (k'.tcb t)) :
    CallTrace see k mode call k' outcome [] := by
  refine ⟨by simpa using hlog, by simp, ?_, fun t ht => Or.inl ⟨rfl, hkept t ht⟩⟩
  split
  · next hok => exact (hown hok).symm
  · rfl

/-- A waiter is not the caller: one sleeps and the other runs. -/
theorem waiter_ne_caller [DecidableEq ι]
    (hcaller : CallerRuns P k mode) {waitType : WaitType} {p : ι}
    {waiter : τ} (hwaits : isWaiter k waitType p waiter = true) :
    callerOf k mode ≠ some waiter := by
  intro hself
  cases mode with
  | thread =>
      have hrunning := (hcaller.thread rfl waiter hself).1
      rw [(isWaiter_iff.mp hwaits).1] at hrunning
      simp at hrunning
  | handler exception priority => simp [callerOf] at hself

/-- A call that acts for its caller alone. -/
theorem CallTrace.alone [DecidableEq τ] [DecidableEq ι]
    {events : List (Event τ ι)} (hlog : k'.log = k.log ++ events)
    (hunmarked : ∀ event ∈ events, ¬IsMark event)
    (hown : effectsOf see (callerOf k mode) events =
      callEffects see (callData k call) (callData k' call) call)
    (hothers : ∀ t, callerOf k mode ≠ some t → effectsOf see (some t) events = [])
    (hkept : ∀ t, Kept (k.tcb t) (k'.tcb t)) :
    CallTrace see k mode call k' (.returned .ok) events :=
  ⟨hlog, hunmarked, by simpa using hown, fun t ht => Or.inl ⟨hothers t ht, hkept t⟩⟩

/-- A call that also serves one waiter. -/
theorem CallTrace.serving [DecidableEq τ] [DecidableEq ι]
    {events : List (Event τ ι)} {waitType : WaitType} {p : ι}
    {waiter : τ} (hlog : k'.log = k.log ++ events)
    (hunmarked : ∀ event ∈ events, ¬IsMark event)
    (hown : effectsOf see (callerOf k mode) events =
      callEffects see (callData k call) (callData k' call) call)
    (hwaits : isWaiter k waitType p waiter = true)
    (hwoken : Kept (leaveWait .ok (k.tcb waiter)) (k'.tcb waiter))
    (heffect : ∀ call timeoutTicks,
      callWait call = some (waitType, p, (k.tcb waiter).waitBuffer, timeoutTicks) →
      effectsOf see (some waiter) events =
        callEffects see (callData k' call) (callData k' call) call)
    (hothers : ∀ t, callerOf k mode ≠ some t → t ≠ waiter →
      effectsOf see (some t) events = [] ∧ Kept (k.tcb t) (k'.tcb t)) :
    CallTrace see k mode call k' (.returned .ok) events := by
  refine ⟨hlog, hunmarked, by simpa using hown, fun t ht => ?_⟩
  rcases eq_or_ne t waiter with rfl | hne
  · exact Or.inr (.intro hwaits hwoken heffect)
  · exact Or.inl (hothers t ht hne)

theorem callWait_semaphore {p : ι} {buffer : Option BufferPtr} {timeoutTicks : Word}
    (h : callWait call = some (.semaphore, p, buffer, timeoutTicks)) :
    call = .semaphoreTake (some p) timeoutTicks := by
  unfold callWait at h
  split at h <;> simp_all

theorem callWait_mutex {p : ι} {buffer : Option BufferPtr} {timeoutTicks : Word}
    (h : callWait call = some (.mutex, p, buffer, timeoutTicks)) :
    call = .mutexLock (some p) timeoutTicks := by
  unfold callWait at h
  split at h <;> simp_all

theorem callWait_queueSend {p : ι} {buffer : Option BufferPtr} {timeoutTicks : Word}
    (h : callWait call = some (.queueSend, p, buffer, timeoutTicks)) :
    ∃ item, buffer = some item ∧ call = .queueSend (some p) (some item) timeoutTicks := by
  unfold callWait at h
  split at h <;> simp_all
  exact ⟨_, h.2.1.symm⟩

theorem callWait_queueReceive {p : ι} {buffer : Option BufferPtr} {timeoutTicks : Word}
    (h : callWait call = some (.queueReceive, p, buffer, timeoutTicks)) :
    ∃ item, buffer = some item ∧ call = .queueReceive (some p) (some item) timeoutTicks := by
  unfold callWait at h
  split at h <;> simp_all
  exact ⟨_, h.2.1.symm⟩

theorem callData_popItem [DecidableEq ι] {p : ι} {q : Queue} {item : BufferPtr}
    (hcall : callItem call = some (p, item)) (caller : Option τ) :
    callData (popItem k caller p q item) call =
      Kernel.itemBytes (rtosQueuePop q (k.memory item)).2 q := by
  rw [callData_item hcall (popItem_object k caller p q item)]
  simp [popItem, Kernel.itemBytes, rtosQueuePop]

theorem callData_pushItem [DecidableEq ι]
    {p : ι} {item : BufferPtr} (hcall : callItem call = some (p, item))
    (sender : Option τ) (q : Queue) (bytes : Nat → Byte) :
    callData (pushItem k sender p q bytes) call = Kernel.itemBytes (k.memory item) q := by
  rw [callData_item hcall (pushItem_object k sender p q bytes)]
  rfl

theorem callData_congr (hobjects : k'.objects = k.objects) (hmemory : k'.memory = k.memory) :
    callData k' call = callData k call := by
  simp only [callData, hobjects, hmemory]

theorem ne_of_not_caller {self t : τ} (hthread : ThreadCall k mode self)
    (ht : callerOf k mode ≠ some t) : t ≠ self := by
  rintro rfl
  exact ht (callerOf_thread hthread)

variable [DecidableEq τ] [DecidableEq ι]

theorem trace_gaveTo (hcaller : CallerRuns P k mode) {p : ι} {waiter : τ}
    (hcall : callGives call = some p)
    (hfind : rtosKernelFindWaiter k .semaphore p = some waiter) :
    ∃ events, CallTrace see k mode call
      (rtosMaybePreempt ((k.modifyTask waiter (leaveWait .ok)).record (.took p waiter))
        (some waiter)) (.returned .ok) events := by
  have hwaits := (findWaiter_waits hfind).2
  have hother := waiter_ne_caller hcaller hwaits
  refine ⟨[.took p waiter], .serving (by simp) (by simp [IsMark]) ?_ hwaits
    (by simpa using Kept.refl _) ?_ ?_⟩
  · simp [effectsOf, effectOf, hother.symm, callEffects_gives hcall]
  · intro call timeoutTicks hwait
    rw [callWait_semaphore hwait]
    simp [effectsOf, effectOf, callEffects]
  · intro t _ hne
    exact ⟨by simp [effectsOf, effectOf, hne.symm], by simpa [hne] using Kept.refl _⟩

theorem trace_unlockedTo (hcaller : CallerRuns P k mode) {p : ι} {self waiter : τ}
    (hthread : ThreadCall k mode self)
    (hfind : rtosKernelFindWaiter (releaseHold k p self) .mutex p = some waiter) :
    ∃ events, CallTrace see k mode (.mutexUnlock (some p))
      (rtosMaybePreempt
        (rtosKernelRecomputePriorities (grantHold (releaseHold k p self) p waiter))
        (some waiter)) (.returned .ok) events := by
  have hself := callerOf_thread hthread
  have hwaits := (findWaiter_waits hfind).2
  rw [isWaiter_kept (kept_release k p self waiter)] at hwaits
  have hother : self ≠ waiter := by
    rintro rfl
    exact waiter_ne_caller hcaller hwaits hself
  refine ⟨[.unlocked p self, .locked p waiter], .serving
    (by simp [grantHold, releaseHold]) (by simp [IsMark]) ?_ hwaits ?_ ?_ ?_⟩
  · simp [effectsOf, effectOf, hself, hother.symm, callEffects]
  · rw [maybePreempt_tcb]
    exact handOver_waiter k p self waiter
  · intro call timeoutTicks hwait
    rw [callWait_mutex hwait]
    simp [effectsOf, effectOf, hother, callEffects]
  · intro t ht hne
    rw [maybePreempt_tcb]
    refine ⟨?_, handOver_rest k p self hne⟩
    rw [hself] at ht
    simp [effectsOf, effectOf, hne.symm, show self ≠ t by simpa using ht]

theorem trace_sentTo (hcaller : CallerRuns P k mode) {p : ι} {q : Queue} {item : BufferPtr}
    {receiver : τ} (hcall : callSends call = some (p, item)) (hobj : k.objects p = .queue q)
    (hfind : rtosKernelFindWaiter k .queueReceive p = some receiver) :
    ∃ events, CallTrace see k mode call
      (rtosMaybePreempt (handItem k (callerOf k mode) p q item receiver) (some receiver))
      (.returned .ok) events := by
  have hwaits := (findWaiter_waits hfind).2
  have hother := waiter_ne_caller hcaller hwaits
  refine ⟨_, .serving ((maybePreempt_log _).trans (handItem_log k _ p q item receiver))
    (by simp [IsMark]) ?_ hwaits (by simpa [handItem] using Kept.refl _) ?_ ?_⟩
  · simp [effectsOf, effectOf, hother.symm, callEffects_sends hcall,
      callData_item (callItem_sends hcall) hobj]
  · intro call timeoutTicks hwait
    obtain ⟨b, hb, rfl⟩ := callWait_queueReceive hwait
    have hdata := callData_item (k := handItem k (callerOf k mode) p q item receiver)
      (show callItem (.queueReceive (some p) (some b) timeoutTicks) = some (p, b) from rfl)
      (by rw [handItem_objects, hobj])
    rw [handItem_memory hb] at hdata
    simp [effectsOf, effectOf, hother, callEffects, ← hdata,
      callData_congr (maybePreempt_objects _) (maybePreempt_memory _)]
  · intro t ht hne
    exact ⟨by simp [effectsOf, effectOf, hne.symm, ht],
      by simpa [handItem, hne] using Kept.refl _⟩

theorem trace_receivedFrom (hcaller : CallerRuns P k mode) {p : ι} {q : Queue}
    {item : BufferPtr} {sender : τ} (hcall : callReceives call = some (p, item))
    (hfind : rtosKernelFindWaiter (popItem k (callerOf k mode) p q item) .queueSend p =
      some sender) :
    ∃ events, CallTrace see k mode call
      (rtosMaybePreempt
        ((pushItem (popItem k (callerOf k mode) p q item) (some sender) p
          (rtosQueuePop q (k.memory item)).1
          (waitBytes (popItem k (callerOf k mode) p q item) sender)).modifyTask sender
            (leaveWait .ok)) (some sender)) (.returned .ok) events := by
  have hwaits : isWaiter k .queueSend p sender = true := (findWaiter_waits hfind).2
  have hother := waiter_ne_caller hcaller hwaits
  have hdata : ∀ c b, callItem c = some (p, b) → callData (rtosMaybePreempt
      ((pushItem (popItem k (callerOf k mode) p q item) (some sender) p
        (rtosQueuePop q (k.memory item)).1
        (waitBytes (popItem k (callerOf k mode) p q item) sender)).modifyTask sender
          (leaveWait .ok)) (some sender)) c =
      Kernel.itemBytes ((popItem k (callerOf k mode) p q item).memory b) q := by
    intro c b hc
    rw [callData_congr (maybePreempt_objects _) (maybePreempt_memory _)]
    exact callData_pushItem (k := popItem k (callerOf k mode) p q item) hc (some sender)
      (rtosQueuePop q (k.memory item)).1
      (waitBytes (popItem k (callerOf k mode) p q item) sender)
  refine ⟨_, .serving ((maybePreempt_log _).trans (refill_log k _ p q item sender _))
    (by simp [IsMark]) ?_ hwaits (by simpa using Kept.refl _) ?_ ?_⟩
  · rw [hdata call item (callItem_receives hcall)]
    simp [effectsOf, effectOf, hother.symm, callEffects_receives hcall, popItem]
  · intro call timeoutTicks hwait
    obtain ⟨b, hb, rfl⟩ := callWait_queueSend hwait
    rw [hdata _ b rfl]
    simp [effectsOf, effectOf, hother, callEffects, waitBytes, hb]
  · intro t ht hne
    exact ⟨by simp [effectsOf, effectOf, hne.symm, ht],
      by simpa [hne] using Kept.refl _⟩

theorem CallEffect.trace (see : List Byte → β) (hcaller : CallerRuns P k mode)
    (h : CallEffect k mode call k' outcome) :
    ∃ events, CallTrace see k mode call k' outcome events := by
  cases h with
  | refused hok _ =>
      exact ⟨[], .silent rfl (fun h => absurd (Outcome.returned.inj h) hok)
        fun _ _ => .refl _⟩
  | ignored hcall =>
      exact ⟨[], .silent rfl (fun _ => by rcases hcall with rfl | rfl <;> rfl)
        fun _ _ => .refl _⟩
  | yielded hcall _ =>
      exact ⟨[], .silent rfl (fun _ => by rcases hcall with rfl | rfl <;> rfl)
        fun _ _ => .refl _⟩
  | @delayed self _ hthread _ _ =>
      refine ⟨[], .silent rfl (by simp) fun t ht => ?_⟩
      have hne := ne_of_not_caller hthread ht
      simpa [hne] using Kept.refl _
  | @slept self _ _ _ _ _ hthread _ _ _ _ =>
      refine ⟨[], .silent rfl (by simp) fun t ht => ?_⟩
      have hne := ne_of_not_caller hthread ht
      simpa [hne] using Kept.refl _
  | @sleptOnMutex self _ _ _ _ hthread _ _ _ _ _ =>
      refine ⟨[], .silent rfl (by simp) fun t ht => ?_⟩
      have hne := ne_of_not_caller hthread ht
      refine Kept.trans ?_ (kept_recompute _ _)
      simpa [hne] using Kept.refl _
  | @took self p _ _ hthread _ _ =>
      have hself := callerOf_thread hthread
      refine ⟨[.took p self], .alone rfl (by simp [IsMark]) ?_ ?_ fun t => .refl _⟩
      · simp [effectsOf, effectOf, hself, callEffects]
      · intro t ht
        simpa [effectsOf, effectOf, hself] using ht
  | gave hcall _ _ _ =>
      exact ⟨[], .silent rfl (fun _ => callEffects_gives hcall _ _) fun _ _ => .refl _⟩
  | gaveTo hcall _ hfind => exact trace_gaveTo hcaller hcall hfind
  | @locked self p _ _ hthread _ _ _ =>
      have hself := callerOf_thread hthread
      refine ⟨[.locked p self], .alone rfl (by simp [IsMark]) ?_ ?_ fun t => kept_take k _ _ _ t⟩
      · simp [effectsOf, effectOf, hself, callEffects]
      · intro t ht
        simpa [effectsOf, effectOf, hself] using ht
  | @unlocked self p _ hthread _ _ _ =>
      have hself := callerOf_thread hthread
      refine ⟨[.unlocked p self], .alone rfl (by simp [IsMark]) ?_ ?_ fun t =>
        (kept_release k p self t).trans (kept_recompute _ t)⟩
      · simp [effectsOf, effectOf, hself, callEffects]
      · intro t ht
        simpa [effectsOf, effectOf, hself] using ht
  | unlockedTo hthread _ _ hfind => exact trace_unlockedTo hcaller hthread hfind
  | @sent _ p q item hcall hobj _ _ =>
      refine ⟨[.accepted p (callerOf k mode) (Kernel.itemBytes (k.memory item) q)],
        .alone rfl (by simp [IsMark]) ?_ ?_ fun t => .refl _⟩
      · simp [effectsOf, effectOf, callEffects_sends hcall,
          callData_item (callItem_sends hcall) hobj]
      · intro t ht
        simpa [effectsOf, effectOf] using ht
  | sentTo hcall hobj hfind => exact trace_sentTo hcaller hcall hobj hfind
  | @received _ p q item hcall hobj _ _ =>
      refine ⟨[.delivered p (callerOf k mode)
          (Kernel.itemBytes (rtosQueuePop q (k.memory item)).2 q)],
        .alone rfl (by simp [IsMark]) ?_ ?_ fun t => .refl _⟩
      · simp [effectsOf, effectOf, callEffects_receives hcall,
          callData_popItem (callItem_receives hcall)]
      · intro t ht
        simpa [effectsOf, effectOf] using ht
  | receivedFrom hcall _ _ hfind => exact trace_receivedFrom hcaller hcall hfind

end Traces

end Stm32f411.CallTraces
