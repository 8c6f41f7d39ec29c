import Stm32f411.CallHistory

/-!
Calls that fail. One that fails at once changes nothing; one that sleeps and times out has
nothing done for it while it sleeps, and cannot be served afterwards.
-/

namespace Stm32f411.FailedCalls

open Stm32f411.LabelledRuns
open Stm32f411.RtosTypes
open Stm32f411.RtosKernel
open Stm32f411.RtosIpc
open Stm32f411.RtosSystem
open Stm32f411.RtosKernelSpec
open Stm32f411.RtosBootSpec
open Stm32f411.RtosCallSpec
open Stm32f411.RtosStepSpec
open Stm32f411.KernelSoundness
open Stm32f411.CallTraces
open Stm32f411.CallHistory

variable {τ ι : Type} [DecidableEq ι]

/-- The object a call names. -/
def callObject : Call ι → Option ι
  | .taskYield => none
  | .taskDelay _ => none
  | .semaphoreTake semaphore _ => semaphore
  | .semaphoreGive semaphore => semaphore
  | .semaphoreGiveFromIsr semaphore => semaphore
  | .mutexLock mutex _ => mutex
  | .mutexUnlock mutex => mutex
  | .queueSend queue _ _ => queue
  | .queueReceive queue _ _ => queue
  | .queueSendFromIsr queue _ => queue
  | .queueReceiveFromIsr queue _ => queue

/-- A step that writes to `buffer` as the application does, or as the buffer of a task
other than `t`: of the caller, or of a sleeping receiver that is served. -/
def WritesForOther (t : τ) (buffer : BufferPtr) (k : Kernel τ ι) : Op τ ι → Prop
  | .write target _ => target = buffer
  | .call mode call => callerOf k mode ≠ some t ∧
      ((∃ p, callReceives call = some (p, buffer)) ∨
        ∃ p item receiver, callSends call = some (p, item) ∧
          rtosKernelFindWaiter k .queueReceive p = some receiver ∧ receiver ≠ t ∧
          (k.tcb receiver).waitBuffer = some buffer)
  | _ => False

/-- A step in which nothing is done for the wait of `t`: it is given nothing and nothing is
taken from it, objects change through the calls of others, and its buffer is written to
for others only. -/
structure Unserved [DecidableEq τ] (t : τ) (call : Call ι) (w : World τ ι) (op : Op τ ι)
    (w' : World τ ι) : Prop where
  events : ∃ more, w'.log = w.log ++ more ∧ effectsOf id (some t) more = []
  grants : ∀ p, (w'.objects p).owner? = some t → (w.objects p).owner? = some t
  objects : ∀ p, w'.objects p ≠ w.objects p → ∃ mode other, op = .call mode other ∧
    callerOf w.toKernel mode ≠ some t ∧ callObject other = some p
  buffer : ∀ p buffer, callItem call = some (p, buffer) →
    w'.memory buffer ≠ w.memory buffer → WritesForOther t buffer w.toKernel op
  woken : (w.tcb t).state = .blocked → (w'.tcb t).state ≠ .blocked → op = .tick

/-- The steps during which `t` stays in `call`. -/
def InCallSteps [DecidableEq τ]
    (P : Platform τ) (t : τ) (call : Call ι) (w : World τ ι) (op : Op τ ι)
    (w' : World τ ι) : Prop :=
  step P w op = some w' ∧ w'.inCall t = some call

def UnservedSteps [DecidableEq τ]
    (P : Platform τ) (t : τ) (call : Call ι) (w : World τ ι) (op : Op τ ι)
    (w' : World τ ι) : Prop :=
  InCallSteps P t call w op w' ∧ Unserved t call w op w'

/-- The wait of `t` is over for good: no operation finds it, and it has its result. -/
def WaitOver (k : Kernel τ ι) (t : τ) (result : Status) : Prop :=
  (∀ waitType p, rtosKernelFindWaiter k waitType p ≠ some t) ∧ (k.tcb t).waitResult = result

/-- A wait that ends in a time-out: unserved throughout, ended by a tick that changes no
object and no buffer, and beyond service from then on. -/
structure TimedOut [DecidableEq τ] (P : Platform τ) (t : τ) (call : Call ι) (w : World τ ι)
    (ops : List (Op τ ι)) (w' : World τ ι) : Prop where
  unserved : Run (UnservedSteps P t call) w ops w'
  ticked : ∃ before after s s', ops = before ++ .tick :: after ∧
    Run (InCallSteps P t call) w before s ∧ step P s .tick = some s' ∧
    Run (InCallSteps P t call) s' after w' ∧ (s.tcb t).state = .blocked ∧
    s'.objects = s.objects ∧ s'.memory = s.memory ∧
    ∀ later x, Run (InCallSteps P t call) s' later x → WaitOver x.toKernel t .errTimeout

section Refused

variable {k k' : Kernel τ ι} {mode : Mode} {call : Call ι} {result : Status}

/-- A call that fails without sleeping leaves everything as it was. -/
theorem CallEffect.failed [DecidableEq τ] (h : CallEffect k mode call k' (.returned result))
    (hfail : result ≠ .ok) : k' = k := by
  cases h with
  | refused _ _ => rfl
  | ignored _ => exact absurd rfl hfail
  | yielded _ _ => exact absurd rfl hfail
  | took _ _ _ => exact absurd rfl hfail
  | gave _ _ _ _ => exact absurd rfl hfail
  | gaveTo _ _ _ => exact absurd rfl hfail
  | locked _ _ _ _ => exact absurd rfl hfail
  | unlocked _ _ _ _ => exact absurd rfl hfail
  | unlockedTo _ _ _ _ => exact absurd rfl hfail
  | sent _ _ _ _ => exact absurd rfl hfail
  | sentTo _ _ _ => exact absurd rfl hfail
  | received _ _ _ _ => exact absurd rfl hfail
  | receivedFrom _ _ _ _ => exact absurd rfl hfail

theorem semaphoreInit_failed (k : Kernel τ ι) (semaphore : Option ι)
    (initialCount maximumCount : Word)
    (hfail : (rtosSemaphoreInit k semaphore initialCount maximumCount).2 ≠ .ok) :
    (rtosSemaphoreInit k semaphore initialCount maximumCount).1 = k := by
  revert hfail
  unfold rtosSemaphoreInit
  repeat' split
  all_goals first
    | exact fun _ => rfl
    | exact fun hfail => absurd rfl hfail

theorem mutexInit_failed (k : Kernel τ ι) (mutex : Option ι)
    (hfail : (rtosMutexInit k mutex).2 ≠ .ok) : (rtosMutexInit k mutex).1 = k := by
  revert hfail
  unfold rtosMutexInit
  repeat' split
  all_goals first
    | exact fun _ => rfl
    | exact fun hfail => absurd rfl hfail

theorem queueInit_failed (k : Kernel τ ι) (queue : Option ι)
    (storage : Option (Nat → Byte)) (capacity itemSize : Word)
    (hfail : (rtosQueueInit k queue storage capacity itemSize).2 ≠ .ok) :
    (rtosQueueInit k queue storage capacity itemSize).1 = k := by
  revert hfail
  unfold rtosQueueInit
  repeat' split
  all_goals first
    | exact fun _ => rfl
    | exact fun hfail => absurd rfl hfail

end Refused

section Objects

variable {P : Platform τ} {k k' : Kernel τ ι} {mode : Mode} {call : Call ι}
variable {outcome : Outcome}

omit [DecidableEq ι] in
theorem callObject_gives {p : ι} (h : callGives call = some p) : callObject call = some p := by
  cases call <;> simp_all [callGives, callObject]

omit [DecidableEq ι] in
theorem callObject_sends {p : ι} {item : BufferPtr} (h : callSends call = some (p, item)) :
    callObject call = some p := by
  unfold callSends at h
  split at h <;> simp_all [callObject]

omit [DecidableEq ι] in
theorem callObject_receives {p : ι} {item : BufferPtr}
    (h : callReceives call = some (p, item)) : callObject call = some p := by
  unfold callReceives at h
  split at h <;> simp_all [callObject]

theorem update_ne {objects : ι → Object τ} {p q : ι} {object : Object τ}
    (h : Function.update objects q object p ≠ objects p) : p = q := by
  by_contra hne
  exact h (Function.update_of_ne hne _ _)

variable [DecidableEq τ]

/-- A call changes no object but the one it names. -/
theorem CallEffect.objects (h : CallEffect k mode call k' outcome) {p : ι}
    (hchanged : k'.objects p ≠ k.objects p) : callObject call = some p := by
  cases h with
  | refused _ _ => exact absurd rfl hchanged
  | ignored _ => exact absurd rfl hchanged
  | yielded _ _ => exact absurd rfl hchanged
  | delayed _ _ _ => exact absurd rfl hchanged
  | slept _ _ _ _ _ => exact absurd rfl hchanged
  | sleptOnMutex _ _ _ _ _ _ => exact absurd rfl hchanged
  | took _ _ _ =>
      obtain rfl := update_ne hchanged
      rfl
  | gave hcall _ _ _ =>
      obtain rfl := update_ne hchanged
      exact callObject_gives hcall
  | gaveTo _ _ _ =>
      rw [maybePreempt_objects] at hchanged
      exact absurd rfl hchanged
  | locked _ _ _ _ =>
      obtain rfl := update_ne hchanged
      rfl
  | unlocked _ _ _ _ =>
      obtain rfl := update_ne hchanged
      rfl
  | unlockedTo _ _ _ _ =>
      rw [maybePreempt_objects] at hchanged
      obtain rfl := update_ne hchanged
      rfl
  | sent hcall _ _ _ =>
      obtain rfl := update_ne hchanged
      exact callObject_sends hcall
  | sentTo _ _ _ =>
      rw [maybePreempt_objects, handItem_objects] at hchanged
      exact absurd rfl hchanged
  | received hcall _ _ _ =>
      obtain rfl := update_ne hchanged
      exact callObject_receives hcall
  | @receivedFrom _ q queue item sender hcall _ _ _ =>
      rw [maybePreempt_objects] at hchanged
      by_contra hother
      rw [callObject_receives hcall] at hother
      have hne : p ≠ q := fun he => hother (congrArg some he.symm)
      exact hchanged (by simp [pushItem, popItem, hne])

/-- A call makes a task the owner of a mutex only if the task calls or is woken. -/
theorem CallEffect.grants (h : CallEffect k mode call k' outcome) {t : τ} {p : ι}
    (hcaller : callerOf k mode ≠ some t)
    (hasleep : (k.tcb t).state = .blocked → (k'.tcb t).state = .blocked)
    (howner : (k'.objects p).owner? = some t) : (k.objects p).owner? = some t := by
  rcases em (k'.objects p = k.objects p) with hsame | hchanged
  · rwa [hsame] at howner
  have hset : ∀ {q : ι} {base : ι → Object τ} (object : Object τ),
      (∀ r, r ≠ q → base r = k.objects r) → k'.objects = Function.update base q object →
      object.owner? = some t := by
    intro q base object hbase hobjects
    rw [hobjects] at hchanged howner
    rcases eq_or_ne p q with rfl | hne
    · simpa using howner
    · rw [Function.update_of_ne hne, hbase p hne] at hchanged
      exact absurd rfl hchanged
  have hkeep : ∀ q r : ι, r ≠ q → k.objects r = k.objects r := fun _ _ _ => rfl
  cases h with
  | took _ _ _ => simpa using hset (.semaphore _) (hkeep _) rfl
  | gave _ _ _ _ => simpa using hset (.semaphore _) (hkeep _) rfl
  | @locked self _ _ _ hthread _ _ _ =>
      have hself : self = t := by simpa using hset (.mutex ⟨some self⟩) (hkeep _) rfl
      exact absurd (hself ▸ callerOf_thread hthread) hcaller
  | unlocked _ _ _ _ => simpa using hset (.mutex ⟨none⟩) (hkeep _) rfl
  | @unlockedTo self waiter q _ _ _ _ hfind =>
      have hwaiter : waiter = t := by
        simpa using hset (.mutex ⟨some waiter⟩) (hkeep q) (maybePreempt_objects _)
      subst hwaiter
      obtain ⟨_, hwaits⟩ := findWaiter_waits hfind
      rw [isWaiter_kept (kept_release k q self waiter)] at hwaits
      have hblocked := hasleep (isWaiter_iff.mp hwaits).1
      rw [maybePreempt_tcb] at hblocked
      obtain ⟨_, _, hwoken⟩ := handOver_waiter k q self waiter
      simp [hwoken, leaveWait] at hblocked
  | sent _ _ _ _ => simpa using hset (.queue _) (hkeep _) rfl
  | received _ _ _ _ => simpa using hset (.queue _) (hkeep _) rfl
  | @receivedFrom _ q queue item sender _ _ _ _ =>
      have hpopped : ∀ r, r ≠ q →
          (popItem k (callerOf k mode) q queue item).objects r = k.objects r := by
        intro r hr
        simp [popItem, hr]
      simpa using hset (.queue _) hpopped (maybePreempt_objects _)
  | _ => exact absurd (by simp [handItem_objects, maybePreempt_objects]) hchanged

/-- A call writes to its own item buffer or to that of the receiver it serves. -/
theorem CallEffect.buffers (h : CallEffect k mode call k' outcome) {buffer : BufferPtr}
    (hchanged : k'.memory buffer ≠ k.memory buffer) :
    (∃ p, callReceives call = some (p, buffer)) ∨
      ∃ p item receiver, callSends call = some (p, item) ∧
        rtosKernelFindWaiter k .queueReceive p = some receiver ∧
        (k.tcb receiver).waitBuffer = some buffer ∧ (k'.tcb receiver).state ≠ .blocked := by
  have hset : ∀ {target : BufferPtr} {bytes : Nat → Byte},
      k'.memory = Function.update k.memory target bytes → target = buffer := by
    intro target bytes hmemory
    rw [hmemory] at hchanged
    by_contra hne
    exact hchanged (Function.update_of_ne (Ne.symm hne) _ _)
  cases h with
  | @sentTo _ p q item receiver hcall _ hfind =>
      refine Or.inr ⟨p, item, receiver, hcall, hfind, ?_, by simp [handItem, leaveWait]⟩
      cases hbuffer : (k.tcb receiver).waitBuffer with
      | none =>
          rw [maybePreempt_memory] at hchanged
          simp [handItem, setWaitBytes, hbuffer] at hchanged
      | some target =>
          congr 1
          apply hset
          rw [maybePreempt_memory]
          simp [handItem, setWaitBytes, hbuffer]
          rfl
  | received hcall _ _ _ =>
      obtain rfl := hset rfl
      exact Or.inl ⟨_, hcall⟩
  | receivedFrom hcall _ _ _ =>
      obtain rfl := hset (maybePreempt_memory _)
      exact Or.inl ⟨_, hcall⟩
  | _ => exact absurd (by simp [maybePreempt_memory, releaseHold, grantHold, pushItem]) hchanged

end Objects

section Waits

variable {P : Platform τ} {w w' : World τ ι} {t : τ} {call : Call ι} {op : Op τ ι}

/-- `t` sleeps on what `call` waits for. -/
def Waiting (k : Kernel τ ι) (t : τ) (call : Call ι) : Prop :=
  ∃ waitType p timeoutTicks,
    callWait call = some (waitType, p, (k.tcb t).waitBuffer, timeoutTicks) ∧
      isWaiter k waitType p t = true

/-- `t` is awake again, with its result. -/
def Awake (k : Kernel τ ι) (t : τ) (result : Status) : Prop :=
  (k.tcb t).state ≠ .blocked ∧ (k.tcb t).waitResult = result

theorem Waiting.blocked {k : Kernel τ ι} (h : Waiting k t call) :
    (k.tcb t).state = .blocked := by
  obtain ⟨_, _, _, _, hwaits⟩ := h
  exact (isWaiter_iff.mp hwaits).1

theorem Waiting.same {k k' : Kernel τ ι} (h : Waiting k t call)
    (hsame : SameWait (k.tcb t) (k'.tcb t)) : Waiting k' t call := by
  obtain ⟨waitType, p, timeoutTicks, hcall, hwaits⟩ := h
  refine ⟨waitType, p, timeoutTicks, ?_, ?_⟩
  · rwa [hsame.waitBuffer]
  · rwa [hsame.isWaiter]

omit [DecidableEq ι] in
theorem Awake.same {k k' : Kernel τ ι} {result : Status} (h : Awake k t result)
    (hsame : SameWait (k.tcb t) (k'.tcb t)) : Awake k' t result :=
  ⟨fun hb => h.1 (hsame.blocked.mp hb), hsame.waitResult.trans h.2⟩

theorem Awake.over {k : Kernel τ ι} {result : Status} (h : Awake k t result) :
    WaitOver k t result :=
  ⟨fun _ _ hfind => h.1 (isWaiter_iff.mp (findWaiter_waits hfind).2).1, h.2⟩

variable [DecidableEq τ]

/-- Outside calls only the application writes to a buffer. -/
theorem quiet_memory (hstep : step P w op = some w') (hquiet : IsQuiet op) :
    w'.memory = w.memory ∨ ∃ buffer bytes, op = .write buffer bytes ∧
      w'.memory = Function.update w.memory buffer bytes := by
  have hplaced : ∀ {k k' : Kernel τ ι}, ObjectPlaced k k' → k'.memory = k.memory := by
    rintro k k' (rfl | ⟨_, _, _, _, _, _, rfl⟩)
    · rfl
    · rfl
  cases op with
  | init config =>
      obtain rfl := Option.some.inj hstep
      left
      rcases init_cases P w.toKernel config with hsame | hboot
      · simp [hsame]
      · obtain ⟨_, _, _, hk'⟩ := hboot.rest
        simp [hk']
  | taskCreate task function argument stack stackWords priority =>
      obtain rfl := Option.some.inj hstep
      left
      rcases taskCreate_cases P w.toKernel task function argument stack stackWords priority
        with hsame | ⟨_, _, _, _, k', hadd, hk'⟩
      · simp [hsame]
      · obtain ⟨_, rfl⟩ := hadd.rest
        simp [hk']
  | semaphoreInit semaphore initialCount maximumCount =>
      obtain rfl := Option.some.inj hstep
      exact Or.inl (hplaced (semaphoreInit_cases _ _ _ _))
  | mutexInit mutex =>
      obtain rfl := Option.some.inj hstep
      exact Or.inl (hplaced (mutexInit_cases _ _))
  | queueInit queue storage capacity itemSize =>
      obtain rfl := Option.some.inj hstep
      exact Or.inl (hplaced (queueInit_cases _ _ _ _ _))
  | start hookRegistered tickConfigured =>
      obtain rfl := Option.some.inj hstep
      left
      rcases start_cases w.toKernel hookRegistered tickConfigured with
        hsame | ⟨_, _, hk'⟩ | hstart
      · simp [hsame]
      · simp [hk']
      · obtain ⟨_, _, _, _, _, hk'⟩ := hstart.rest
        simp [hk']
  | call mode call => exact hquiet.elim
  | resume => exact hquiet.elim
  | taskReturn =>
      obtain ⟨_, _, _, _, rfl⟩ := taskReturn_step hstep
      exact Or.inl rfl
  | tick => exact hquiet.elim
  | pendSV stackValid =>
      obtain ⟨_, k', hschedule, rfl⟩ := pendSV_step hstep
      obtain ⟨_, hswitch⟩ := schedule_ok hschedule
      obtain ⟨_, rfl⟩ := hswitch.rest
      exact Or.inl rfl
  | write buffer bytes =>
      obtain rfl := Option.some.inj hstep
      exact Or.inr ⟨buffer, bytes, rfl, rfl⟩

/-- A step in which nothing happens to any object or buffer. -/
theorem Unserved.idle (hlog : w'.log = w.log) (hobjects : w'.objects = w.objects)
    (hmemory : ∀ p buffer, callItem call = some (p, buffer) →
      w'.memory buffer ≠ w.memory buffer → WritesForOther t buffer w.toKernel op)
    (hwoken : (w.tcb t).state = .blocked → (w'.tcb t).state ≠ .blocked → op = .tick) :
    Unserved t call w op w' := by
  refine ⟨⟨[], by simpa using hlog, rfl⟩, ?_, ?_, hmemory, hwoken⟩
  · intro p howner
    rwa [hobjects] at howner
  · intro p hchanged
    rw [hobjects] at hchanged
    exact absurd rfl hchanged

/-- What a step can do to a task that stays in its call. -/
inductive WaitStep (t : τ) (call : Call ι) (w : World τ ι) (op : Op τ ι)
    (w' : World τ ι) : Prop
  | same : SameWait (w.tcb t) (w'.tcb t) → Unserved t call w op w' → WaitStep t call w op w'
  | timedOut : op = .tick → (w.tcb t).state = .blocked → Awake w'.toKernel t .errTimeout →
      w'.objects = w.objects → w'.memory = w.memory → Unserved t call w op w' →
      WaitStep t call w op w'
  | served : (w.tcb t).state = .blocked → Awake w'.toKernel t .ok → WaitStep t call w op w'

theorem WaitStep.ticked (hs : Sound P w.toKernel) (hrun : w.running = true)
    (ht : t ∈ w.tasks) :
    WaitStep t call w .tick { w with toKernel := sysTickHandler w.toKernel } := by
  obtain ⟨tcb, pended, hframe⟩ := sysTickHandler_frame w.toKernel
  have hidle : Unserved t call w .tick { w with toKernel := sysTickHandler w.toKernel } := by
    refine .idle (by simp [hframe]) (by simp [hframe]) (fun _ _ _ hchanged => ?_) fun _ _ => rfl
    exact absurd (by simp [hframe]) hchanged
  rcases tick_wait hs hrun ht with hwait | ⟨hblocked, _, _, hout⟩
  · exact .same hwait hidle
  · refine .timedOut rfl hblocked ?_ (by simp [hframe]) (by simp [hframe]) hidle
    constructor
    · simp [hout, leaveWait]
    · simp [hout, leaveWait]

theorem WaitStep.quiet {k' : Kernel τ ι} (hrun : w.running = true) (hop : IsQuiet op)
    (hstep : step P w op = some { w with toKernel := k' })
    (hquiet : QuietStep P w.toKernel k') :
    WaitStep t call w op { w with toKernel := k' } := by
  obtain ⟨hlog, _, _, hwait⟩ := QuietStep.sameWait hquiet hrun
  refine .same (hwait t) (.idle hlog ?_ ?_ ?_)
  · rcases hquiet.objects with ⟨hobjects, _⟩ | ⟨_, _, _, hstopped, _, _⟩
    · exact hobjects
    · simp [hrun] at hstopped
  · intro p buffer _ hchanged
    rcases quiet_memory hstep hop with hsame | ⟨target, bytes, rfl, hwrite⟩
    · exact absurd (congrFun hsame buffer) hchanged
    · by_contra hother
      rw [hwrite] at hchanged
      exact hchanged (Function.update_of_ne (Ne.symm hother) _ _)
  · intro hblocked hawake
    exact absurd ((hwait t).blocked.mpr hblocked) hawake

/-- A call made by somebody else serves the task or does nothing for it. -/
theorem WaitStep.called {mode : Mode} {other : Call ι} {k' : Kernel τ ι} {outcome : Outcome}
    {last : List (Event τ ι)} (hruns : CallerRuns P w.toKernel mode)
    (hcaller : callerOf w.toKernel mode ≠ some t)
    (heffect : CallEffect (callEntered w.toKernel mode other) mode other k' outcome)
    (hlast : effectsOf id (some t) last = []) (hlog : w'.log = k'.log ++ last)
    (htcb : w'.tcb = k'.tcb) (hobjects : w'.objects = k'.objects)
    (hmemory : w'.memory = k'.memory) : WaitStep t call w (.call mode other) w' := by
  obtain ⟨events, htrace⟩ := CallEffect.trace id (hruns.record _) heffect
  rcases htrace.others t hcaller with ⟨hnone, hkept⟩ | ⟨hwaits, ⟨_, _, hwoken⟩, _⟩
  · have hwait : SameWait (w.tcb t) (w'.tcb t) := by
      rw [htcb]
      exact .of_kept hkept
    refine .same hwait ⟨⟨.called (callerOf w.toKernel mode) other (callData w.toKernel other) ::
        (events ++ last), ?_, ?_⟩, ?_, ?_, ?_, ?_⟩
    · rw [hlog, htrace.log]
      simp
    · show effectsOf id (some t) (events ++ last) = []
      rw [effectsOf_append, hnone, hlast]
      rfl
    · intro p howner
      rw [hobjects] at howner
      refine CallEffect.grants heffect hcaller (fun hblocked => ?_) howner
      rw [← htcb]
      exact hwait.blocked.mpr hblocked
    · intro p hchanged
      rw [hobjects] at hchanged
      exact ⟨mode, other, rfl, hcaller, CallEffect.objects heffect hchanged⟩
    · intro p buffer _ hchanged
      rw [hmemory] at hchanged
      refine ⟨hcaller, (CallEffect.buffers heffect hchanged).imp_right ?_⟩
      rintro ⟨q, item, receiver, hsends, hfind, hbuffer, hawake⟩
      refine ⟨q, item, receiver, hsends, hfind, ?_, hbuffer⟩
      rintro rfl
      rw [← htcb] at hawake
      exact hawake (hwait.blocked.mpr (isWaiter_iff.mp (findWaiter_waits hfind).2).1)
    · intro hblocked hawake
      exact absurd (hwait.blocked.mpr hblocked) hawake
  · refine .served (isWaiter_iff.mp hwaits).1 ?_
    constructor
    · simp [htcb, hwoken, leaveWait]
    · simp [htcb, hwoken, leaveWait]

theorem waitStep (hs : Sound P w.toKernel) (hrun : w.running = true) (ht : t ∈ w.tasks)
    (hin : w.inCall t = some call) (hstep : InCallSteps P t call w op w') :
    WaitStep t call w op w' := by
  cases step_system hstep.1 with
  | ticked => exact .ticked hs hrun ht
  | quiet hop hquiet => exact .quiet hrun hop hstep.1 hquiet
  | @returned mode other k' result hruns hfree heffect =>
      have hnone : effectsOf id (some t) [.returned (callerOf w.toKernel mode) other result
          (callData k' other)] = [] := rfl
      refine .called hruns ?_ heffect hnone rfl rfl rfl rfl
      intro hself
      simp [hfree t hself] at hin
  | @suspended mode other k' self hruns hthread hfree heffect =>
      have hnone : effectsOf (ι := ι) id (some t) [] = [] := rfl
      refine .called hruns ?_ heffect hnone (by simp) rfl rfl rfl
      rw [callerOf_thread hthread]
      intro hself
      obtain rfl := Option.some.inj hself
      simp [hfree] at hin
  | @resumed self other _ _ _ =>
      have hne : t ≠ self := by
        rintro rfl
        simpa [resumeStep] using hstep.2
      refine .same (.of_kept (.refl _)) ⟨⟨[_], rfl, rfl⟩, fun _ => id, ?_, ?_, ?_⟩
      · exact fun p hchanged => absurd rfl hchanged
      · exact fun p buffer _ hchanged => absurd rfl hchanged
      · exact fun hblocked hawake => absurd hblocked hawake

theorem Awake.step {result : Status} (h : Awake w.toKernel t result)
    (hwait : WaitStep t call w op w') :
    Awake w'.toKernel t result ∧ Unserved t call w op w' := by
  cases hwait with
  | same hsame hunserved => exact ⟨h.same hsame, hunserved⟩
  | timedOut _ hblocked _ _ _ _ => exact absurd hblocked h.1
  | served hblocked _ => exact absurd hblocked h.1

end Waits

variable [DecidableEq τ]

section Runs

variable {P : Platform τ} {w w' : World τ ι} {t : τ} {call : Call ι} {ops : List (Op τ ι)}

/-- A state of a run during which `t` stays in `call`. -/
structure Staying (P : Platform τ) (t : τ) (call : Call ι) (w : World τ ι) : Prop where
  reached : Reached P w
  inCall : w.inCall t = some call

theorem Staying.step {op : Op τ ι} (h : Staying P t call w)
    (hstep : InCallSteps P t call w op w') :
    Staying P t call w' ∧ WaitStep t call w op w' := by
  have htraced := reached_traced h.reached
  refine ⟨⟨h.reached.step hstep.1, hstep.2⟩, ?_⟩
  exact waitStep (reached_sound h.reached) (htraced.running h.inCall)
    (htraced.member t call h.inCall) h.inCall hstep

theorem Awake.run {result : Status} (hw : Staying P t call w)
    (h : Awake w.toKernel t result) (hrun : Run (InCallSteps P t call) w ops w') :
    Staying P t call w' ∧ Awake w'.toKernel t result ∧
      Run (UnservedSteps P t call) w ops w' := by
  induction hrun with
  | nil => exact ⟨hw, h, .nil⟩
  | snoc _ hlast ih =>
      obtain ⟨hs, hawake, hrest⟩ := ih
      obtain ⟨hs', hwait⟩ := hs.step hlast
      obtain ⟨hawake', hunserved⟩ := hawake.step hwait
      exact ⟨hs', hawake', hrest.snoc ⟨hlast, hunserved⟩⟩

theorem TimedOut.snoc {op : Op τ ι} {w'' : World τ ι} (h : TimedOut P t call w ops w')
    (hstep : UnservedSteps P t call w' op w'') :
    TimedOut P t call w (ops ++ [op]) w'' := by
  obtain ⟨before, after, s, s', rfl, hbefore, htick, hafter, hrest⟩ := h.ticked
  refine ⟨h.unserved.snoc hstep, before, after ++ [op], s, s', ?_, hbefore, htick,
    hafter.snoc hstep.1, hrest⟩
  simp

/-- A task that stays in its call still waits, was served, or was timed out. -/
theorem Waiting.run (hw : Staying P t call w) (h : Waiting w.toKernel t call)
    (hrun : Run (InCallSteps P t call) w ops w') :
    Staying P t call w' ∧
      ((Waiting w'.toKernel t call ∧ Run (UnservedSteps P t call) w ops w') ∨
        Awake w'.toKernel t .ok ∨
        (Awake w'.toKernel t .errTimeout ∧ TimedOut P t call w ops w')) := by
  induction hrun with
  | nil => exact ⟨hw, Or.inl ⟨h, .nil⟩⟩
  | @snoc ops s s' op hrest hlast ih =>
      obtain ⟨hs, hphase⟩ := ih
      obtain ⟨hs', hwait⟩ := hs.step hlast
      refine ⟨hs', ?_⟩
      rcases hphase with ⟨hwaiting, hunserved⟩ | hserved | ⟨hawake, htimed⟩
      · cases hwait with
        | same hsame hnow =>
            exact Or.inl ⟨hwaiting.same hsame, hunserved.snoc ⟨hlast, hnow⟩⟩
        | served _ hawake => exact Or.inr (Or.inl hawake)
        | timedOut hop hblocked hawake hobjects hmemory hnow =>
            subst hop
            refine Or.inr (Or.inr ⟨hawake, hunserved.snoc ⟨hlast, hnow⟩, ops, [], s, s', rfl,
              hrest, hlast.1, .nil, hblocked, hobjects, hmemory, ?_⟩)
            intro later x hlater
            exact (hawake.run hs' hlater).2.1.over
      · exact Or.inr (Or.inl (hserved.step hwait).1)
      · obtain ⟨hawake', hnow⟩ := hawake.step hwait
        exact Or.inr (Or.inr ⟨hawake', htimed.snoc ⟨hlast, hnow⟩⟩)

/-- The step that sends a task to sleep in a call leaves it waiting. -/
theorem waiting_of_call {mode : Mode} (hw : Reached P w)
    (hcall : step P w (.call mode call) = some w') (hfree : w.inCall t = none)
    (hin : w'.inCall t = some call) (hwait : (callWait call).isSome = true) :
    Staying P t call w' ∧ Waiting w'.toKernel t call := by
  refine ⟨⟨hw.step hcall, hin⟩, ?_⟩
  cases step_system hcall with
  | quiet hquiet _ => exact hquiet.elim
  | returned _ _ _ => simp [hfree] at hin
  | @suspended _ _ k' self hruns hthread _ heffect =>
      have hself : t = self := by
        by_contra hne
        simp [hne, hfree] at hin
      subst hself
      have hentered : ThreadCall (callEntered w.toKernel mode call) mode t :=
        ⟨hthread.mode_eq, hthread.running, hthread.current⟩
      rcases (CallEffect.asleep heffect hentered).2 with ⟨ticks, rfl, _⟩ | hwaiting
      · simp [callWait] at hwait
      · obtain ⟨waitType, p, timeoutTicks, hcalled, hwaits⟩ := hwaiting
        exact ⟨waitType, p, timeoutTicks, hcalled, hwaits⟩

/-- A semaphore, mutex or queue call that fails at once leaves the kernel as it was, and
one that sleeps and returns RTOS_ERR_TIMEOUT had nothing done for it. -/
theorem failed_call_no_effect (hw : Reached P w) :
    (∀ mode call k' result, HandlerNumbered mode →
      rtosCall w.toKernel mode call = (k', .returned result) → result ≠ .ok →
      k' = w.toKernel) ∧
    (∀ semaphore initialCount maximumCount,
      (rtosSemaphoreInit w.toKernel semaphore initialCount maximumCount).2 ≠ .ok →
      (rtosSemaphoreInit w.toKernel semaphore initialCount maximumCount).1 = w.toKernel) ∧
    (∀ mutex, (rtosMutexInit w.toKernel mutex).2 ≠ .ok →
      (rtosMutexInit w.toKernel mutex).1 = w.toKernel) ∧
    (∀ queue storage capacity itemSize,
      (rtosQueueInit w.toKernel queue storage capacity itemSize).2 ≠ .ok →
      (rtosQueueInit w.toKernel queue storage capacity itemSize).1 = w.toKernel) ∧
    ∀ mode t call w₁ ops w₂ w₃ data, step P w (.call mode call) = some w₁ →
      w.inCall t = none → w₁.inCall t = some call → (callWait call).isSome = true →
      Run (InCallSteps P t call) w₁ ops w₂ → step P w₂ .resume = some w₃ →
      w₃.log = w₂.log ++ [.returned (some t) call .errTimeout data] →
      TimedOut P t call w₁ ops w₂ := by
  refine ⟨?_, semaphoreInit_failed w.toKernel, mutexInit_failed w.toKernel,
    queueInit_failed w.toKernel, ?_⟩
  · intro mode call k' result hmode hresult hfail
    have heffect := rtosCall_effect (k := w.toKernel) hmode call
    rw [hresult] at heffect
    exact CallEffect.failed heffect hfail
  · intro mode t call w₁ ops w₂ w₃ data hcall hfree hin hwait hrun hresume hlog
    obtain ⟨hstaying, hwaiting⟩ := waiting_of_call hw hcall hfree hin hwait
    obtain ⟨_, hphase⟩ := hwaiting.run hstaying hrun
    have hresult : (w₂.tcb t).state = .running ∧ (w₂.tcb t).waitResult = .errTimeout := by
      cases step_system hresume with
      | quiet hquiet _ => exact hquiet.elim
      | @resumed self other _ hstate _ =>
          simp only [resumeStep, Kernel.record, List.append_cancel_left_eq, List.cons.injEq,
            Event.returned.injEq, Option.some.injEq, and_true] at hlog
          obtain ⟨rfl, rfl, hresult, _⟩ := hlog
          refine ⟨hstate, ?_⟩
          cases other <;> simp_all [resumeResult]
    rcases hphase with ⟨hwaits, _⟩ | ⟨_, hok⟩ | ⟨_, htimed⟩
    · simp [hwaits.blocked] at hresult
    · simp [hok] at hresult
    · exact htimed

/-- Task 2 takes the empty semaphore and times out in the next tick. -/
def timedOutRun : List (Op Nat Nat) :=
  demoBoot ++ [.call .thread (.semaphoreTake (some 1) 1)]

theorem failed_call_no_effect_demo :
    TimedOut demoPlatform 2 (.semaphoreTake (some 1) 1) (demoRun timedOutRun)
      [.pendSV true, .tick, .pendSV true]
      (demoRun (timedOutRun ++ [.pendSV true] ++ [.tick] ++ [.pendSV true])) := by
  have hcall := demoRun_step demoBoot (.call .thread (.semaphoreTake (some 1) 1)) (by decide)
  have hswitch := demoRun_step timedOutRun (.pendSV true) (by decide)
  have htick := demoRun_step (timedOutRun ++ [.pendSV true]) .tick (by decide)
  have hback := demoRun_step (timedOutRun ++ [.pendSV true] ++ [.tick]) (.pendSV true)
    (by decide)
  have hresume := demoRun_step
    (timedOutRun ++ [.pendSV true] ++ [.tick] ++ [.pendSV true]) .resume (by decide)
  have hrun : Run (InCallSteps demoPlatform 2 (.semaphoreTake (some 1) 1))
      (demoRun timedOutRun) [.pendSV true, .tick, .pendSV true] _ :=
    ((Run.single ⟨hswitch, by decide⟩).snoc ⟨htick, by decide⟩).snoc ⟨hback, by decide⟩
  exact (failed_call_no_effect (demoRun_reached demoBoot)).2.2.2.2 .thread 2 _ _ _ _ _ []
    hcall (by decide) (by decide) rfl hrun hresume (by decide)

end Runs

end Stm32f411.FailedCalls
