import Stm32f411.CallTraces

/-!
Every call judged by the history of the run. Between its entry and its return a call of a
task takes, locks, accepts or delivers exactly what its result says, whether it acted at
once or slept and was served by somebody else.
-/

namespace Stm32f411.CallHistory

open Stm32f411.OpenSpans
open Stm32f411.LabelledRuns
open Stm32f411.RtosTypes
open Stm32f411.RtosKernel
open Stm32f411.RtosIpc
open Stm32f411.RtosSystem
open Stm32f411.RtosKernelSpec
open Stm32f411.RtosBootSpec
open Stm32f411.RtosCallSpec
open Stm32f411.RtosStepSpec
open Stm32f411.KernelSoundness
open Stm32f411.CallTraces

variable {τ ι β : Type} [DecidableEq τ]

section Pending

variable {P : Platform τ} {see : List Byte → β} {k k' : Kernel τ ι} {t : τ} {call : Call ι}
variable {entry : List Byte} {body events : List (Event τ ι)}

/-- How far a suspended call has come. -/
inductive Progress [DecidableEq ι] (see : List Byte → β) (k : Kernel τ ι) (t : τ) (call : Call ι)
    (entry : List Byte) (body : List (Event τ ι)) : Prop
  | waiting {waitType : WaitType} {p : ι} {timeoutTicks : Word} :
      callWait call = some (waitType, p, (k.tcb t).waitBuffer, timeoutTicks) →
      isWaiter k waitType p t = true → effectsOf see (some t) body = [] →
      see entry = see (callData k call) → Progress see k t call entry body
  | served : (callWait call).isSome → (k.tcb t).state ≠ .blocked →
      (k.tcb t).waitResult = .ok →
      effectsOf see (some t) body = callEffects see entry (callData k call) call →
      Progress see k t call entry body
  | timedOut : (callWait call).isSome → (k.tcb t).state ≠ .blocked →
      (k.tcb t).waitResult = .errTimeout → effectsOf see (some t) body = [] →
      Progress see k t call entry body
  | delayed {ticks : Word} : call = .taskDelay ticks → (k.tcb t).state ≠ .blocked →
      effectsOf see (some t) body = [] → Progress see k t call entry body

def Pending [DecidableEq ι] (see : List Byte → β) (k : Kernel τ ι) (t : τ) (call : Call ι) : Prop :=
  ∃ entry body, openSpan (callMark (some t)) k.log = some ((call, entry), body) ∧
    Progress see k t call entry body

/-- What `see` shows of the caller's item stays, unless an item is delivered. -/
def ItemKept (see : List Byte → β) (k k' : Kernel τ ι) (t : τ) (call : Call ι)
    (events : List (Event τ ι)) : Prop :=
  see (callData k' call) = see (callData k call) ∨
    ∃ p item, .delivered p (some t) item ∈ events

/-- The fields of a TCB that a suspended call depends on. -/
structure SameWait (t t' : RtosTask ι) : Prop where
  blocked : t'.state = .blocked ↔ t.state = .blocked
  waitType : t'.waitType = t.waitType
  waitObject : t'.waitObject = t.waitObject
  waitBuffer : t'.waitBuffer = t.waitBuffer
  waitResult : t'.waitResult = t.waitResult

theorem SameWait.of_kept {t t' : RtosTask ι} (h : Kept t t') : SameWait t t' := by
  obtain ⟨_, _, rfl⟩ := h
  exact ⟨Iff.rfl, rfl, rfl, rfl, rfl⟩

omit [DecidableEq τ] in
theorem SameWait.isWaiter [DecidableEq ι]
    (h : SameWait (k.tcb t) (k'.tcb t)) (waitType : WaitType) (p : ι) :
    isWaiter k' waitType p t = isWaiter k waitType p t := by
  rw [Bool.eq_iff_iff, isWaiter_iff, isWaiter_iff, h.blocked, h.waitType, h.waitObject]

theorem callEffects_congr {before before' after after' : List Byte}
    (hbefore : see before' = see before) (hafter : see after' = see after) :
    callEffects see before' after' call = callEffects see before after call := by
  unfold callEffects
  rw [hbefore, hafter]

/-- A call that obtains an item does not depend on what its buffer held before. -/
theorem callEffects_delivered {before before' after : List Byte} {p : ι} {item : β}
    (h : .delivered p item ∈ callEffects see before after call) :
    callEffects see before' after call = callEffects see before after call := by
  unfold callEffects at h ⊢
  split at h <;> simp_all

theorem mem_effectsOf {event : Event τ ι} {caller : Option τ} {effect : Effect ι β}
    (hevent : event ∈ events) (heffect : effectOf see caller event = some effect) :
    effect ∈ effectsOf see caller events :=
  List.mem_filterMap.mpr ⟨event, hevent, heffect⟩

variable [DecidableEq ι]

theorem Progress.kept (h : Progress see k t call entry body)
    (hnone : effectsOf see (some t) events = []) (hwait : SameWait (k.tcb t) (k'.tcb t))
    (hitem : ItemKept see k k' t call events) :
    Progress see k' t call entry (body ++ events) := by
  have hdata : see (callData k' call) = see (callData k call) := by
    rcases hitem with hsame | ⟨p, item, hmem⟩
    · exact hsame
    · have heffect : .delivered p (see item) ∈ effectsOf see (some t) events :=
        mem_effectsOf hmem (by simp [effectOf])
      simp [hnone] at heffect
  cases h with
  | waiting hcall hwaits hbody hentry =>
      rw [← hwait.waitBuffer] at hcall
      rw [← hwait.isWaiter] at hwaits
      refine .waiting hcall hwaits ?_ (hentry.trans hdata.symm)
      rw [effectsOf_append, hbody, hnone]
      rfl
  | served hcall hstate hresult hbody =>
      refine .served hcall (fun hb => hstate (hwait.blocked.mp hb))
        (hwait.waitResult.trans hresult) ?_
      rw [effectsOf_append, hbody, hnone, List.append_nil]
      exact (callEffects_congr rfl hdata).symm
  | timedOut hcall hstate hresult hbody =>
      refine .timedOut hcall (fun hb => hstate (hwait.blocked.mp hb))
        (hwait.waitResult.trans hresult) ?_
      rw [effectsOf_append, hbody, hnone]
      rfl
  | delayed hcall hstate hbody =>
      refine .delayed hcall (fun hb => hstate (hwait.blocked.mp hb)) ?_
      rw [effectsOf_append, hbody, hnone]
      rfl

/-- Only a waiting call can be served, and it then has what it waits for. -/
theorem Progress.serve (h : Progress see k t call entry body)
    (hserved : Served see k k' events t) (hitem : ItemKept see k k' t call events) :
    Progress see k' t call entry (body ++ events) := by
  obtain ⟨hwaits, hwoken, heffect⟩ := hserved
  have hw := isWaiter_iff.mp hwaits
  obtain ⟨_, _, hwoken⟩ := hwoken
  cases h with
  | served _ hstate _ _ => exact absurd hw.1 hstate
  | timedOut _ hstate _ _ => exact absurd hw.1 hstate
  | delayed _ hstate _ => exact absurd hw.1 hstate
  | waiting hcall hwaits' hbody hentry =>
      have hw' := isWaiter_iff.mp hwaits'
      obtain rfl := hw.2.1.symm.trans hw'.2.1
      obtain rfl := Option.some.inj (hw.2.2.symm.trans hw'.2.2)
      have hevents := heffect call _ hcall
      refine .served (by simp [hcall]) ?_ ?_ ?_
      · rw [hwoken]
        simp [leaveWait]
      · rw [hwoken]
        rfl
      · rw [effectsOf_append, hbody, hevents, List.nil_append]
        rcases hitem with hsame | ⟨q, item, hmem⟩
        · exact callEffects_congr (hsame.trans hentry.symm) rfl
        · have hdelivered : .delivered q (see item) ∈ effectsOf see (some t) events :=
            mem_effectsOf hmem (by simp [effectOf])
          rw [hevents] at hdelivered
          exact (callEffects_delivered hdelivered).symm

theorem Progress.timeOut (h : Progress see k t call entry body)
    (hblocked : (k.tcb t).state = .blocked) (hstate : (k'.tcb t).state ≠ .blocked)
    (hresult : (k'.tcb t).waitResult = .errTimeout) : Progress see k' t call entry body := by
  cases h with
  | waiting hcall _ hbody _ => exact .timedOut (by simp [hcall]) hstate hresult hbody
  | served _ hs _ _ => exact absurd hblocked hs
  | timedOut _ hs _ _ => exact absurd hblocked hs
  | delayed _ hs _ => exact absurd hblocked hs

/-- A call whose task runs again is over, with the result it returns. -/
theorem Progress.finished (h : Progress see k t call entry body)
    (hstate : (k.tcb t).state ≠ .blocked) :
    effectsOf see (some t) body =
      if resumeResult (k.tcb t) call = .ok then callEffects see entry (callData k call) call
      else [] := by
  have hresume : (callWait call).isSome → resumeResult (k.tcb t) call = (k.tcb t).waitResult := by
    intro hcall
    cases call <;> simp_all [callWait, resumeResult]
  cases h with
  | waiting _ hwaits _ _ => exact absurd (isWaiter_iff.mp hwaits).1 hstate
  | served hcall _ hresult hbody => rw [hresume hcall, hresult, if_pos rfl, hbody]
  | timedOut hcall _ hresult hbody => rw [hresume hcall, hresult, if_neg (by simp), hbody]
  | delayed hcall _ hbody =>
      subst hcall
      rw [hbody]
      simp [callEffects]

theorem Pending.extend (h : Pending see k t call) (events : List (Event τ ι))
    (hlog : k'.log = k.log ++ events)
    (hinside : ∀ event ∈ events, callMark (some t) event = .inside)
    (hprogress : ∀ entry body, Progress see k t call entry body →
      Progress see k' t call entry (body ++ events)) : Pending see k' t call := by
  obtain ⟨entry, body, hspan, hp⟩ := h
  refine ⟨entry, body ++ events, ?_, hprogress entry body hp⟩
  rw [hlog]
  exact openSpan_inside hspan hinside

end Pending

section Steps

variable {P : Platform τ} {see : List Byte → β} {k k' : Kernel τ ι} {w w' : World τ ι}

theorem tickTask_sameWait {now : Word} {t : RtosTask ι}
    (h : tickDecision now t ≠ .timeOut) : SameWait t (tickTask now t) := by
  unfold tickTask
  cases hd : tickDecision now t with
  | skip => exact .of_kept (.refl t)
  | ready => exact ⟨by simp [tickDecision_ready hd], rfl, rfl, rfl, rfl⟩
  | timeOut => exact absurd hd h

/-- A tick times a wait out or leaves it alone. -/
theorem tick_wait {t : τ} (hs : Sound P k) (hrun : k.running = true) (ht : t ∈ k.tasks) :
    SameWait (k.tcb t) ((sysTickHandler k).tcb t) ∨
      (k.tcb t).state = .blocked ∧
        Kept (leaveWait .errTimeout (k.tcb t)) ((sysTickHandler k).tcb t) := by
  obtain ⟨priority, htcb⟩ := (sysTickHandler_running hrun hs.nodup).2 t ht
  have hprio : Kept (tickTask (k.tick + 1) (k.tcb t)) ((sysTickHandler k).tcb t) :=
    ⟨priority, _, htcb⟩
  rcases eq_or_ne (tickDecision (k.tick + 1) (k.tcb t)) .timeOut with hd | hd
  · rw [tickTask, hd] at hprio
    exact Or.inr ⟨(tickDecision_timeOut hd).1, hprio⟩
  · have hsame := tickTask_sameWait hd
    have hkept := SameWait.of_kept hprio
    exact Or.inl ⟨hkept.blocked.trans hsame.blocked, hkept.waitType.trans hsame.waitType,
      hkept.waitObject.trans hsame.waitObject, hkept.waitBuffer.trans hsame.waitBuffer,
      hkept.waitResult.trans hsame.waitResult⟩

variable [DecidableEq ι]

theorem Progress.tick {t : τ} {call : Call ι} {entry : List Byte}
    {body : List (Event τ ι)} (h : Progress see k t call entry body) (hs : Sound P k)
    (hrun : k.running = true) (ht : t ∈ k.tasks) :
    Progress see (sysTickHandler k) t call entry body := by
  rcases tick_wait hs hrun ht with hwait | ⟨hblocked, _, _, hout⟩
  · obtain ⟨tcb, _, hframe⟩ := sysTickHandler_frame k
    have hdata : callData (sysTickHandler k) call = callData k call :=
      callData_congr (by rw [hframe]) (by rw [hframe])
    have hnone : effectsOf see (some t) ([] : List (Event τ ι)) = [] := rfl
    simpa using h.kept hnone hwait (Or.inl (by rw [hdata]))
  · refine h.timeOut hblocked ?_ ?_
    · rw [hout]
      simp [leaveWait]
    · rw [hout]
      rfl

/-- While the kernel runs, a step that is no call leaves every wait alone. -/
theorem QuietStep.sameWait (h : QuietStep P k k') (hrun : k.running = true) :
    k'.log = k.log ∧ k'.tasks = k.tasks ∧ k'.running = true ∧
      ∀ t, SameWait (k.tcb t) (k'.tcb t) := by
  cases h.running hrun with
  | unchanged => exact ⟨rfl, rfl, hrun, fun _ => .of_kept (.refl _)⟩
  | @terminated self _ hstate _ =>
      refine ⟨rfl, rfl, hrun, fun t => ?_⟩
      rcases eq_or_ne t self with rfl | hne
      · exact ⟨by simp [hstate], by simp, by simp, by simp, by simp⟩
      · simpa [hne] using SameWait.of_kept (.refl _)
  | switched hswitch =>
      have htcb := hswitch.tcb_eq
      have hblocked := hswitch.blocked
      obtain ⟨_, _, _, _, hk'⟩ := hswitch
      refine ⟨by simp [hk'], by simp [hk'], by simp [hk', hrun], fun t => ?_⟩
      exact ⟨hblocked t, by rw [htcb], by rw [htcb], by rw [htcb], by rw [htcb]⟩
  | wrote => exact ⟨rfl, rfl, hrun, fun _ => .of_kept (.refl _)⟩

/-- A step only ever adds to the history. -/
theorem system_log {op : Op τ ι} (hstep : SystemStep P w op w') :
    ∃ more, w'.log = w.log ++ more := by
  cases hstep with
  | ticked =>
      obtain ⟨_, _, hframe⟩ := sysTickHandler_frame w.toKernel
      exact ⟨[], by simp [hframe]⟩
  | quiet _ hquiet =>
      rcases hquiet.objects with ⟨_, hlog⟩ | ⟨_, _, _, _, _, rfl⟩
      · exact ⟨[], by simpa using hlog⟩
      · exact ⟨_, rfl⟩
  | returned hruns _ heffect =>
      obtain ⟨events, htrace⟩ := CallEffect.trace (fun _ => ()) (hruns.record _) heffect
      exact ⟨_, by simp [htrace.log, List.append_assoc]; rfl⟩
  | suspended hruns _ _ heffect =>
      obtain ⟨events, htrace⟩ := CallEffect.trace (fun _ => ()) (hruns.record _) heffect
      exact ⟨_, by simp [htrace.log, List.append_assoc]; rfl⟩
  | resumed _ _ _ => exact ⟨_, rfl⟩

/-- The item buffers of suspended tasks keep what `see` shows of them, except that a step
may deliver an item. -/
def DataKept (see : List Byte → β) (w w' : World τ ι) : Prop :=
  ∀ t call, w.inCall t = some call →
    ItemKept see w.toKernel w'.toKernel t call (w'.log.drop w.log.length)

/-- Every call in the history is exact, and every suspended one will be. -/
structure Traced (see : List Byte → β) (w : World τ ι) : Prop where
  exact : CallsExact see w.log
  stopped : w.running = false → ∀ t, w.inCall t = none
  member : ∀ t call, w.inCall t = some call → t ∈ w.tasks
  pending : ∀ t call, w.inCall t = some call → Pending see w.toKernel t call

theorem Traced.running (h : Traced see w) {t : τ} {call : Call ι}
    (hcall : w.inCall t = some call) : w.running = true := by
  cases hrun : w.running with
  | true => rfl
  | false => simp [h.stopped hrun t] at hcall

theorem Traced.tick (h : Traced see w) (hs : Sound P w.toKernel) :
    Traced see { w with toKernel := sysTickHandler w.toKernel } := by
  obtain ⟨tcb, pended, hframe⟩ := sysTickHandler_frame w.toKernel
  constructor
  · rw [hframe]
    exact h.exact
  · rw [hframe]
    exact h.stopped
  · rw [hframe]
    exact h.member
  · intro t call hcall
    refine (h.pending t call hcall).extend [] (by rw [hframe]; simp) (by simp)
      fun entry body hp => ?_
    simpa using hp.tick hs (h.running hcall) (h.member t call hcall)

theorem Traced.quiet (h : Traced see w) (hquiet : QuietStep P w.toKernel k')
    (hkept : DataKept see w { w with toKernel := k' }) :
    Traced see { w with toKernel := k' } := by
  constructor
  · rcases hquiet.objects with ⟨_, hlog⟩ | ⟨p, object, kind, _, _, rfl⟩
    · show CallsExact see k'.log
      rw [hlog]
      exact h.exact
    · exact h.exact.snoc (by simp)
  · intro hoff t
    cases hrun : w.running with
    | false => exact h.stopped hrun t
    | true =>
        obtain ⟨_, _, hrun', _⟩ := QuietStep.sameWait hquiet hrun
        simp [hrun'] at hoff
  · intro t call hcall
    obtain ⟨_, htasks, _, _⟩ := QuietStep.sameWait hquiet (h.running hcall)
    show t ∈ k'.tasks
    rw [htasks]
    exact h.member t call hcall
  · intro t call hcall
    obtain ⟨hlog, _, _, hwait⟩ := QuietStep.sameWait hquiet (h.running hcall)
    have hitem := hkept t call hcall
    refine (h.pending t call hcall).extend [] (by simpa using hlog) (by simp)
      fun entry body hp => ?_
    apply hp.kept rfl (hwait t)
    simpa [hlog] using hitem

/-- A suspended task that is not the caller is served by the call or left alone. -/
theorem Pending.call {mode : Mode} {c call : Call ι} {outcome : Outcome} {t : τ}
    {events : List (Event τ ι)} (h : Pending see k t call) (last : List (Event τ ι))
    (hother : callerOf k mode ≠ some t)
    (htrace : CallTrace see (callEntered k mode c) mode c k' outcome events)
    (hlast : ∀ event ∈ last,
      callMark (some t) event = .inside ∧ effectOf see (some t) event = none)
    {final : Kernel τ ι} (hlog : final.log = k'.log ++ last) (htcb : final.tcb = k'.tcb)
    (hdata : ∀ c, callData final c = callData k' c)
    (hitem : ItemKept see k final t call (final.log.drop k.log.length)) :
    Pending see final t call := by
  have hfinal : final.log = k.log ++
      (.called (callerOf k mode) c (callData k c) :: (events ++ last)) := by
    rw [hlog, htrace.log]
    simp [callEntered]
  rw [hfinal, List.drop_left] at hitem
  have heffects : effectsOf see (some t)
      (.called (callerOf k mode) c (callData k c) :: (events ++ last)) =
      effectsOf see (some t) events := by
    have hnone : effectsOf see (some t) last = [] :=
      List.filterMap_eq_nil_iff.mpr fun event he => (hlast event he).2
    rw [← List.singleton_append, effectsOf_append, effectsOf_append, hnone, List.append_nil]
    rfl
  refine h.extend _ hfinal ?_ fun entry body hp => ?_
  · intro event he
    rcases List.mem_cons.mp he with rfl | he
    · simp [callMark, hother]
    · rcases List.mem_append.mp he with he | he
      · exact callMark_inside (htrace.unmarked event he)
      · exact (hlast event he).1
  · rcases htrace.others t hother with ⟨hnone, hkept⟩ | hserved
    · refine hp.kept (heffects.trans hnone) (.of_kept ?_) hitem
      rw [htcb]
      exact hkept
    · obtain ⟨hwaits, hwoken, heffect⟩ := hserved
      refine hp.serve (.intro hwaits ?_ fun call' timeoutTicks hwait => ?_) hitem
      · rw [htcb]
        exact hwoken
      · rw [heffects, hdata]
        exact heffect call' timeoutTicks hwait

theorem Traced.returned (h : Traced see w) {mode : Mode} {call : Call ι} {result : Status}
    (hruns : CallerRuns P w.toKernel mode)
    (hfree : ∀ self, callerOf w.toKernel mode = some self → w.inCall self = none)
    (heffect : CallEffect (callEntered w.toKernel mode call) mode call k' (.returned result))
    (hkept : DataKept see w { w with
      toKernel := k'.record
        (.returned (callerOf w.toKernel mode) call result (callData k' call)) }) :
    Traced see { w with
      toKernel := k'.record
        (.returned (callerOf w.toKernel mode) call result (callData k' call)) } := by
  obtain ⟨events, htrace⟩ := CallEffect.trace see (hruns.record _) heffect
  have hframe := heffect.frame
  constructor
  · show CallsExact see (k'.log ++ [_])
    have hentered : CallsExact see (callEntered w.toKernel mode call).log :=
      h.exact.snoc (by simp)
    rw [htrace.log]
    apply (hentered.append htrace.unmarked).snoc
    rintro c call' result' data ⟨⟩
    refine ⟨callData w.toKernel call, events, ?_, ?_⟩
    · have hopen : openSpan (callMark (callerOf w.toKernel mode))
          (callEntered w.toKernel mode call).log =
          some ((call, callData w.toKernel call), []) :=
        openSpan_opens (by simp [callMark])
      simpa using openSpan_inside hopen fun event he => callMark_inside (htrace.unmarked event he)
    · have hown : effectsOf see (callerOf w.toKernel mode) events =
          if Outcome.returned result = .returned .ok then
            callEffects see (callData w.toKernel call) (callData k' call) call
          else [] := htrace.own
      simpa using hown
  · intro hoff
    exact h.stopped (hframe.running.symm.trans hoff)
  · intro t call' hcall
    show t ∈ k'.tasks
    rw [hframe.tasks]
    exact h.member t call' hcall
  · intro t call' hcall
    have hother : callerOf w.toKernel mode ≠ some t := by
      intro hself
      simp [hfree t hself] at hcall
    refine (h.pending t call' hcall).call [_] hother htrace ?_ rfl rfl (fun _ => rfl)
      (hkept t call' hcall)
    intro event he
    obtain rfl := List.mem_singleton.mp he
    simp [callMark, effectOf, hother]

/-- A call that puts its caller to sleep leaves it waiting as the call says. -/
theorem CallEffect.asleep {mode : Mode} {call : Call ι} {self : τ}
    (h : CallEffect k mode call k' .suspended) (hthread : ThreadCall k mode self) :
    callData k' call = callData k call ∧
      ((∃ ticks, call = .taskDelay ticks ∧ (k'.tcb self).state ≠ .blocked) ∨
        ∃ waitType p timeoutTicks,
          callWait call = some (waitType, p, (k'.tcb self).waitBuffer, timeoutTicks) ∧
          isWaiter k' waitType p self = true) := by
  cases h with
  | delayed hthread' _ _ =>
      obtain rfl := Option.some.inj (hthread.current.symm.trans hthread'.current)
      exact ⟨callData_congr rfl rfl, Or.inl ⟨_, rfl, by simp⟩⟩
  | @slept _ _ waitType p _ timeoutTicks hthread' hwait _ _ _ =>
      obtain rfl := Option.some.inj (hthread.current.symm.trans hthread'.current)
      refine ⟨callData_congr rfl rfl, Or.inr ⟨waitType, p, timeoutTicks, ?_, ?_⟩⟩
      · simpa [enterWait] using hwait
      · simp [isWaiter, enterWait]
  | @sleptOnMutex _ _ p _ timeoutTicks hthread' _ _ _ _ _ =>
      obtain rfl := Option.some.inj (hthread.current.symm.trans hthread'.current)
      refine ⟨callData_congr rfl rfl, Or.inr ⟨.mutex, p, timeoutTicks, ?_, ?_⟩⟩
      · simp [enterWait, callWait]
      · simp [isWaiter, enterWait]

theorem Traced.suspended (h : Traced see w) {mode : Mode} {call : Call ι} {self : τ}
    (hruns : CallerRuns P w.toKernel mode) (hthread : ThreadCall w.toKernel mode self)
    (hmem : self ∈ w.tasks) (hfree : w.inCall self = none)
    (heffect : CallEffect (callEntered w.toKernel mode call) mode call k' .suspended)
    (hkept : DataKept see w { w with
      toKernel := k', inCall := Function.update w.inCall self (some call) }) :
    Traced see { w with
      toKernel := k', inCall := Function.update w.inCall self (some call) } := by
  obtain ⟨events, htrace⟩ := CallEffect.trace see (hruns.record _) heffect
  have hframe := heffect.frame
  have hself := callerOf_thread hthread
  have hentered : ThreadCall (callEntered w.toKernel mode call) mode self :=
    ⟨hthread.mode_eq, hthread.running, hthread.current⟩
  constructor
  · show CallsExact see k'.log
    rw [htrace.log]
    exact (h.exact.snoc (by simp)).append htrace.unmarked
  · intro hoff
    have hrun : k'.running = true := hframe.running.trans hthread.running
    simp [hrun] at hoff
  · intro t call' hcall
    show t ∈ k'.tasks
    rw [hframe.tasks]
    rcases eq_or_ne t self with rfl | hne
    · exact hmem
    · exact h.member t call' (by simpa [hne] using hcall)
  · intro t call' hcall
    rcases eq_or_ne t self with rfl | hne
    · obtain rfl : call = call' := by simpa using hcall
      have hopen : openSpan (callMark (some t)) (callEntered w.toKernel mode call).log =
          some ((call, callData w.toKernel call), []) :=
        openSpan_opens (by simp [callMark, hself])
      have hnone : effectsOf see (some t) events = [] := by
        have hown : effectsOf see (callerOf w.toKernel mode) events = [] :=
          htrace.own.trans (if_neg (by simp))
        rwa [hself] at hown
      refine ⟨callData w.toKernel call, [] ++ events, ?_, ?_⟩
      · show openSpan _ k'.log = _
        rw [htrace.log]
        exact openSpan_inside hopen fun event he => callMark_inside (htrace.unmarked event he)
      · obtain ⟨hdata, ⟨ticks, hdelay, hstate⟩ | ⟨waitType, p, timeoutTicks, hwait, hwaits⟩⟩ :=
          CallEffect.asleep heffect hentered
        · exact .delayed hdelay hstate hnone
        · exact .waiting hwait hwaits hnone (congrArg see hdata.symm)
    · have hcall' : w.inCall t = some call' := by simpa [hne] using hcall
      have hother : callerOf w.toKernel mode ≠ some t := by
        rw [hself]
        simpa using hne.symm
      exact (h.pending t call' hcall').call [] hother htrace (by simp) (by simp) rfl
        (fun _ => rfl) (hkept t call' hcall')

theorem Traced.resumed (h : Traced see w) {self : τ} {call : Call ι}
    (hstate : (w.tcb self).state = .running) (hcall : w.inCall self = some call)
    (hkept : DataKept see w (resumeStep w self call)) :
    Traced see (resumeStep w self call) := by
  constructor
  · apply h.exact.snoc
    rintro c call' result data ⟨⟩
    obtain ⟨entry, body, hspan, hp⟩ := h.pending self call hcall
    exact ⟨entry, body, hspan, hp.finished (by rw [hstate]; simp)⟩
  · intro hoff
    have hrun : w.running = false := hoff
    simp [h.running hcall] at hrun
  · intro t call' hcall'
    rcases eq_or_ne t self with rfl | hne
    · simp [resumeStep] at hcall'
    · exact h.member t call' (by simpa [resumeStep, hne] using hcall')
  · intro t call' hcall'
    rcases eq_or_ne t self with rfl | hne
    · simp [resumeStep] at hcall'
    · have hsame : w.inCall t = some call' := by simpa [resumeStep, hne] using hcall'
      refine (h.pending t call' hsame).extend [_] rfl ?_ fun entry body hp => ?_
      · simp [callMark, hne.symm]
      · refine hp.kept rfl (.of_kept (.refl _)) ?_
        have hitem := hkept t call' hsame
        simpa [resumeStep] using hitem

theorem Traced.step (h : Traced see w) (hs : Sound P w.toKernel) {op : Op τ ι}
    (hkept : DataKept see w w') (hstep : SystemStep P w op w') : Traced see w' := by
  cases hstep with
  | ticked => exact h.tick hs
  | quiet _ hquiet => exact h.quiet hquiet hkept
  | returned hruns hfree heffect => exact h.returned hruns hfree heffect hkept
  | suspended hruns hthread hfree heffect =>
      exact h.suspended hruns hthread (hs.current_mem hthread.running hthread.current) hfree
        heffect hkept
  | resumed _ hstate hcall => exact h.resumed hstate hcall hkept

theorem Traced.reset (h : Reset w) : Traced see w := by
  refine ⟨fun before after c call result data hlog => ?_, fun _ => h.inCall, ?_, ?_⟩
  · rw [h.log] at hlog
    simp at hlog
  · intro t call hcall
    simp [h.inCall] at hcall
  · intro t call hcall
    simp [h.inCall] at hcall

/-- The steps of runs in which suspended callers' buffers are left alone. -/
def KeptSteps (see : List Byte → β) (P : Platform τ) (w : World τ ι) (op : Op τ ι)
    (w' : World τ ι) : Prop :=
  RtosSystem.step P w op = some w' ∧ DataKept see w w'

theorem kept_reached (h : Reachable (KeptSteps see P) Reset w) : Reached P w :=
  h.mono fun _ _ _ hstep => hstep.1

theorem kept_traced (h : Reachable (KeptSteps see P) Reset w) : Traced see w :=
  h.invariant (fun _ => .reset) fun _ _ _ hw htraced hstep =>
    htraced.step (reached_sound (kept_reached hw)) hstep.2 (step_system hstep.1)

/-- Without a look at the items, every run qualifies. -/
theorem reached_traced (h : Reached P w) : Traced (fun _ => ()) w :=
  kept_traced (h.mono fun _ _ _ hstep => ⟨hstep, fun _ _ _ => Or.inl rfl⟩)

end Steps

end Stm32f411.CallHistory
