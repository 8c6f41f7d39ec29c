import Stm32f411.CallHistory
import Stm32f411.KernelSoundness
import Stm32f411.KernelProcessor

/-!
The invariant of the running processor, and the steps of the system that its sections and its
other moves are.
-/

namespace Stm32f411.LiveProcessor

open Stm32f411.LabelledRuns
open Stm32f411.StatementPrograms
open Stm32f411.MaskedSections
open Stm32f411.RtosTypes
open Stm32f411.RtosKernel
open Stm32f411.RtosSystem
open Stm32f411.RtosTickSteps (outsideTick interrupts)
open Stm32f411.RtosKernelSpec
open Stm32f411.RtosCallSpec
open Stm32f411.RtosStepSpec
open Stm32f411.SectionCode
open Stm32f411.KernelMeaning
open Stm32f411.TickCode
open Stm32f411.KernelProcessor

variable {τ ι : Type} [DecidableEq τ] [DecidableEq ι]

section Live

variable {P : Platform τ} {m : SyscallPriority} {v v' : CodeWorld τ ι} {t : τ}

/-- The task is asleep in a call, or has not returned from it yet. -/
def InCall (v : CodeWorld τ ι) (t : τ) : Prop :=
  (v.inCall t).isSome = true

/-- What holds between the steps of the running system, in ticks as well. -/
structure Live (P : Platform τ) (m : SyscallPriority) (v : CodeWorld τ ι) : Prop where
  reached : Reachable (Steps (codeStep P)) CodeReset v
  running : v.running = true
  mask : v.maxSyscallPriorityMask = m.mask
  current : ∃ c ∈ v.tasks, v.currentTask = some c
  asleep : ∀ t ∈ v.tasks, (v.tcb t).state = .blocked ∨ (v.tcb t).state = .delayed → InCall v t
  woken : ∀ t, v.currentTask = some t → (v.tcb t).state = .ready → InCall v t
  code : ∀ c ∈ v.tickCode, MildCode v.tasks (InCall v) (fun _ => True) c

/-- The state of one task after somebody's call: it changes for a waiter that is woken and
for a caller that goes to sleep. -/
theorem CallEffect.state {k k' : Kernel τ ι} {mode : Mode} {call : Call ι} {outcome : Outcome}
    (h : CallEffect k mode call k' outcome) (t : τ) :
    (k'.tcb t).state = (k.tcb t).state ∨
      (t ∈ k.tasks ∧ (k.tcb t).state = .blocked ∧ (k'.tcb t).state = .ready) ∨
      (ThreadCall k mode t ∧ outcome = .suspended) := by
  have htask := h.task t
  generalize k'.tcb t = t' at htask ⊢
  cases htask with
  | kept hkept =>
      obtain ⟨_, _, rfl⟩ := hkept
      exact .inl rfl
  | woken ht hwaits hkept =>
      obtain ⟨_, _, rfl⟩ := hkept
      exact .inr (.inl ⟨ht, (isWaiter_iff.mp hwaits).1, rfl⟩)
  | delayed hcall _ _ _ => exact .inr (.inr ⟨hcall, rfl⟩)
  | slept hcall _ _ _ _ => exact .inr (.inr ⟨hcall, rfl⟩)

/-- The invariant moves to a kernel whose tasks change state only from asleep to READY, with
the tasks that were asleep or are now still in their calls. -/
theorem Live.change (h : Live P m v) (hreached : Reachable (Steps (codeStep P)) CodeReset v')
    (hrun : v'.running = v.running)
    (hmask : v'.maxSyscallPriorityMask = v.maxSyscallPriorityMask)
    (htasks : v'.tasks = v.tasks) (hcurrent : v'.currentTask = v.currentTask)
    (hcall : ∀ t, InCall v t → InCall v' t)
    (hstate : ∀ t, (v'.tcb t).state = (v.tcb t).state ∨
      (InCall v t ∧ (v'.tcb t).state = .ready) ∨ InCall v' t)
    (hcode : ∀ c ∈ v'.tickCode, MildCode v'.tasks (InCall v') (fun _ => True) c) :
    Live P m v' := by
  obtain ⟨c, hc, hcur⟩ := h.current
  refine ⟨hreached, hrun.trans h.running, hmask.trans h.mask,
    ⟨c, htasks ▸ hc, hcurrent.trans hcur⟩, ?_, ?_, hcode⟩
  · intro t ht hasleep
    rcases hstate t with hsame | ⟨_, hready⟩ | hin
    · rw [hsame] at hasleep
      exact hcall t (h.asleep t (htasks ▸ ht) hasleep)
    · simp [hready] at hasleep
    · exact hin
  · intro t hself hready
    rcases hstate t with hsame | ⟨hin, _⟩ | hin
    · rw [hsame] at hready
      exact hcall t (h.woken t (hcurrent ▸ hself) hready)
    · exact hcall t hin
    · exact hin

/-- What a step of the processor's model is in the kernel's own. -/
def opOf : Label τ Handler (SectionOp ι) (FreeOp ι) ClockOp → CodeOp τ ι
  | .op a (.call call) => .base (.call (modeOf a) call)
  | .op _ .taskReturn => .base .taskReturn
  | .op _ (.schedule stackValid) => .base (.pendSV stackValid)
  | .free a (.call call) => .base (.call (modeOf a) call)
  | .free _ .resume => .base .resume
  | .free _ (.write buffer bytes) => .base (.write buffer bytes)
  | .clock op => op.codeOp

/-- What the clock does in a step. -/
inductive ClockStep (v : CodeWorld τ ι) : CodeWorld τ ι → Prop
  | entered : v.tickCode = none → ClockStep v { v with tickCode := some sysTickCode }
  | accessed {c next : KernelCode τ ι Unit} {k' : Kernel τ ι} :
      v.tickCode = some c → c.step v.toKernel = some (next, k') →
      ClockStep v { v with toKernel := k', tickCode := some next }
  | left : ClockStep v { v with tickCode := none }

theorem clock_cases {x : ClockOp} (hstep : codeStep P v x.codeOp = some v') : ClockStep v v' := by
  cases x with
  | enter =>
      simp only [ClockOp.codeOp, codeStep] at hstep
      split at hstep
      · cases hstep
      · next hnone =>
          obtain rfl := Option.some.inj hstep
          exact .entered hnone
  | access =>
      simp only [ClockOp.codeOp, codeStep] at hstep
      split at hstep
      · next c hcode =>
          obtain ⟨⟨next, k'⟩, haccess, rfl⟩ := Option.map_eq_some_iff.mp hstep
          exact .accessed hcode haccess
      · cases hstep
  | leave =>
      simp only [ClockOp.codeOp, codeStep] at hstep
      split at hstep
      · obtain rfl := Option.some.inj hstep
        exact .left
      · cases hstep

theorem Live.configured (h : Live P m v) : configured m v = v.toKernel := by
  rw [KernelProcessor.configured, ← h.mask]

/-- The current task runs if it may run at all. -/
theorem Live.threadRuns (h : Live P m v) (hcurrent : v.currentTask = some t)
    (hmay : mayRun P v t = true) : RtosSystem.threadRuns P v.toWorld = true := by
  simp only [mayRun, Bool.and_eq_true, Bool.or_eq_true, decide_eq_true_eq] at hmay
  obtain ⟨⟨hidle, hcall⟩, hstate⟩ := hmay
  have hrunning : (v.tcb t).state = .running := by
    rcases hstate with hready | hrunning
    · have hin := h.woken t hcurrent hready
      simp [InCall, Option.isNone_iff_eq_none.mp hcall] at hin
    · exact hrunning
  simp [RtosSystem.threadRuns, hcurrent, hrunning, hidle, hcall]

theorem codeStep_base {op : Op τ ι} {w : World τ ι} (hadmits : admits v op = true)
    (hstep : RtosSystem.step P v.toWorld op = some w) :
    codeStep P v (.base op) = some { v with toWorld := w } := by
  simp [codeStep, hadmits, hstep]

omit [DecidableEq τ] [DecidableEq ι] in
/-- Outside ticks everything is admitted but the tick itself. -/
theorem admits_idle {op : Op τ ι} (hidle : v.tickCode.isNone = true)
    (hop : outsideTick op = true) : admits v op = true := by
  rw [admits, Option.isNone_iff_eq_none.mp hidle]
  exact hop

omit [DecidableEq τ] [DecidableEq ι] in
/-- Calls of handlers and writes come at any time. -/
theorem admits_interrupt {op : Op τ ι} (hop : interrupts op = true) : admits v op = true := by
  unfold admits
  cases v.tickCode with
  | none => cases op <;> simp_all [interrupts, outsideTick]
  | some _ => exact hop

theorem call_codeStep {mode : Mode} {call : Call ι} (hadmits : admits v (.call mode call) = true)
    (hmode : modeRuns P v.toWorld mode = true) :
    codeStep P v (.base (.call mode call)) =
      some { v with toWorld := callStep v.toWorld mode call } :=
  codeStep_base hadmits (by simp [RtosSystem.step, hmode])

omit [DecidableEq τ] in
theorem modeOf_numbered (a : Actor τ Handler) : HandlerNumbered (modeOf a) := by
  cases a with
  | thread t => exact fun _ _ hmode => by cases hmode
  | service handler =>
      rintro exception priority ⟨⟩
      exact handler.exception_ne
  | clock =>
      rintro exception priority ⟨⟩
      decide
  | switcher =>
      rintro exception priority ⟨⟩
      decide

omit [DecidableEq ι] in
theorem modeRuns_service (w : World τ ι) (handler : Handler) :
    modeRuns P w (modeOf (.service handler : Actor τ Handler)) = true := by
  simp only [modeOf, modeRuns, decide_eq_true_eq]
  exact handler.exception_ne

theorem callSection_codeStep {a : Actor τ Handler} {call : Call ι}
    (hadmits : admits v (.call (modeOf a) call) = true)
    (hmode : modeRuns P v.toWorld (modeOf a) = true)
    (hcaller : callerOf v.toKernel (modeOf a) = callerName a)
    (htests : callTests v.toKernel (modeOf a) call = true)
    (hrun : (callSection a call).run v = some ((), v')) :
    codeStep P v (.base (.call (modeOf a) call)) = some v' := by
  rw [run_callSection (modeOf_numbered a) hcaller htests] at hrun
  rw [← (Prod.mk.inj (Option.some.inj hrun)).2]
  exact call_codeStep hadmits hmode

theorem taskReturn_codeStep (hadmits : admits v .taskReturn = true)
    (hcurrent : v.currentTask = some t) (hruns : RtosSystem.threadRuns P v.toWorld = true)
    (hholds : (v.tcb t).mutexHoldCount = 0)
    (hrun : (onKernel (taskReturnCode t)).run v = some ((), v')) :
    codeStep P v (.base .taskReturn) = some v' := by
  simp only [run_onKernel, taskReturnCode, run_bind, run_assign, Option.bind_some,
    run_pendContextSwitch, Option.map_some] at hrun
  rw [← (Prod.mk.inj (Option.some.inj hrun)).2]
  apply codeStep_base hadmits
  simp only [RtosSystem.step, hcurrent, hruns, if_true, rtosTaskEntryTrampoline, hholds, ne_eq,
    not_true_eq_false, if_false]

theorem schedule_codeStep {stackValid : Bool} (hadmits : admits v (.pendSV stackValid) = true)
    (hrunning : v.running = true)
    (hrun : (onKernel (scheduleCode stackValid)).run v = some ((), v')) :
    codeStep P v (.base (.pendSV stackValid)) = some v' := by
  rw [run_onKernel, run_schedule] at hrun
  cases hschedule : rtosScheduleFromPendsv v.toKernel stackValid with
  | error fault => simp [hschedule] at hrun
  | ok k =>
      simp only [hschedule, Option.map_some] at hrun
      rw [← (Prod.mk.inj (Option.some.inj hrun)).2]
      apply codeStep_base hadmits
      simp only [RtosSystem.step, hrunning, if_true, hschedule]

theorem section_codeStep {a : Actor τ Handler} {o : SectionOp ι} (h : Live P m v)
    (hmay : (kernelSystem P m).mayAct v a) (htests : a = .switcher ∨ sectionTests P m v a o = true)
    (hrun : (sectionCode a o).run v = some ((), v')) : codeStep P v (opOf (.op a o)) = some v' := by
  cases a with
  | thread t =>
      obtain ⟨hcurrent, hidle⟩ := hmay
      have htests := htests.resolve_left (by simp)
      cases o with
      | call call =>
          simp only [sectionTests, Bool.and_eq_true, h.configured] at htests
          exact callSection_codeStep (admits_idle hidle rfl) (h.threadRuns hcurrent htests.1)
            hcurrent htests.2 hrun
      | taskReturn =>
          simp only [sectionTests, Bool.and_eq_true, decide_eq_true_eq] at htests
          exact taskReturn_codeStep (admits_idle hidle rfl) hcurrent
            (h.threadRuns hcurrent htests.1) htests.2 hrun
      | schedule stackValid => simp [sectionTests] at htests
  | service handler =>
      have htests := htests.resolve_left (by simp)
      cases o with
      | call call =>
          simp only [sectionTests, h.configured] at htests
          exact callSection_codeStep (admits_interrupt rfl) (modeRuns_service _ handler) rfl htests
            hrun
      | taskReturn => simp [sectionTests] at htests
      | schedule stackValid => simp [sectionTests] at htests
  | clock => simp [sectionTests] at htests
  | switcher =>
      cases o with
      | schedule stackValid => exact schedule_codeStep (admits_idle hmay rfl) h.running hrun
      | call call => simp [sectionCode] at hrun
      | taskReturn => simp [sectionCode] at hrun

theorem free_codeStep {a : Actor τ Handler} {x : FreeOp ι} (h : Live P m v)
    (hmay : (kernelSystem P m).mayAct v a) (hfree : freeStep P m v a x = some v') :
    codeStep P v (opOf (.free a x)) = some v' := by
  cases a with
  | thread t =>
      obtain ⟨hcurrent, hidle⟩ := hmay
      have hcurrent : v.currentTask = some t := hcurrent
      cases x with
      | call call =>
          simp only [freeStep, Option.ite_none_right_eq_some, Option.some.injEq] at hfree
          obtain ⟨⟨hruns, _⟩, rfl⟩ := hfree
          exact call_codeStep (admits_idle hidle rfl) (h.threadRuns hcurrent hruns)
      | resume =>
          simp only [freeStep, Option.ite_none_right_eq_some, Option.map_eq_some_iff] at hfree
          obtain ⟨hstate, call, hcall, rfl⟩ := hfree
          apply codeStep_base (admits_idle hidle rfl)
          simp [RtosSystem.step, hcurrent, hstate, hcall]
      | write buffer bytes =>
          obtain rfl := Option.some.inj hfree
          exact codeStep_base (admits_interrupt rfl) rfl
  | service handler =>
      cases x with
      | call call =>
          simp only [freeStep, Option.ite_none_right_eq_some, Option.some.injEq] at hfree
          obtain ⟨_, rfl⟩ := hfree
          exact call_codeStep (admits_interrupt rfl) (modeRuns_service _ handler)
      | resume => simp [freeStep] at hfree
      | write buffer bytes =>
          obtain rfl := Option.some.inj hfree
          exact codeStep_base (admits_interrupt rfl) rfl
  | clock => simp [freeStep] at hfree
  | switcher => simp [freeStep] at hfree

/-- Every step of the processor's model with sections in one piece is a step of the kernel. -/
theorem atomic_codeStep {l : Label τ Handler (SectionOp ι) (FreeOp ι) ClockOp} (h : Live P m v)
    (hatomic : Atomic (kernelSystem P m) v l v') : codeStep P v (opOf l) = some v' := by
  cases hatomic with
  | op hmay htests hrun => exact section_codeStep h hmay htests hrun
  | free hmay hfree => exact free_codeStep h hmay hfree
  | clock hclock => exact hclock

section Preserved

variable {w : World τ ι} {k' : Kernel τ ι}

/-- Calls of `CallEffect.state`, in the terms of `Live.change`. -/
theorem Live.called (h : Live P m v) {mode : Mode} {call : Call ι} {outcome : Outcome}
    (heffect : CallEffect (callEntered v.toKernel mode call) mode call k' outcome)
    {inCall : τ → Option (Call ι)}
    (hcalled : ∀ t, ThreadCall v.toKernel mode t → outcome = .suspended →
      (inCall t).isSome = true) (t : τ) :
    (k'.tcb t).state = (v.tcb t).state ∨
      (InCall v t ∧ (k'.tcb t).state = .ready) ∨ (inCall t).isSome = true := by
  rcases CallEffect.state heffect t with hsame | ⟨ht, hblocked, hready⟩ | ⟨hthread, hout⟩
  · exact .inl hsame
  · exact .inr (.inl ⟨h.asleep t ht (.inl hblocked), hready⟩)
  · exact .inr (.inr (hcalled t ⟨hthread.mode_eq, hthread.running, hthread.current⟩ hout))

/-- A handler under way belongs to the same tasks as before. -/
theorem Live.code_same (h : Live P m v) (htasks : v'.tasks = v.tasks)
    (hcall : v'.inCall = v.inCall) (hcode : v'.tickCode = v.tickCode) :
    ∀ c ∈ v'.tickCode, MildCode v'.tasks (InCall v') (fun _ => True) c := by
  have hin : InCall v' = InCall v := by
    funext t
    rw [InCall, hcall, InCall]
  rw [htasks, hin, hcode]
  exact h.code

theorem Live.quiet (h : Live P m v) (hstep : RunningStep P v.toKernel k')
    (hreached : Reachable (Steps (codeStep P)) CodeReset { v with toKernel := k' }) :
    Live P m { v with toKernel := k' } := by
  cases hstep with
  | unchanged => exact h
  | wrote => exact ⟨hreached, h.running, h.mask, h.current, h.asleep, h.woken, h.code⟩
  | @terminated self hcurrent _ _ =>
      refine ⟨hreached, h.running, h.mask, h.current, fun t ht hasleep => ?_,
        fun t hself hready => ?_, h.code⟩
      · rcases eq_or_ne t self with rfl | hne
        · simp [rtosPortPendContextSwitch] at hasleep
        · exact h.asleep t ht (by simpa [rtosPortPendContextSwitch, hne] using hasleep)
      · obtain rfl : t = self := Option.some.inj (hself.symm.trans hcurrent)
        simp [rtosPortPendContextSwitch] at hready
  | @switched next _ hswitch =>
      have hstate : ∀ t, (_ = TaskState.delayed ↔ _) := fun t =>
        hswitch.state_iff (by simp) (by simp) t
      have hnext := hswitch.tcb_eq next
      have hblocked := hswitch.blocked
      have hmem := hswitch.mem
      obtain ⟨_, _, _, cursor, rfl⟩ := hswitch
      refine ⟨hreached, h.running, h.mask, ⟨next, hmem, rfl⟩, fun t ht hasleep => ?_,
        fun t hself hready => ?_, h.code_same rfl rfl rfl⟩
      · exact h.asleep t ht (hasleep.imp (hblocked t).mp (hstate t).mp)
      · obtain rfl := Option.some.inj hself
        simp at hready

theorem Live.base {op : Op τ ι} {w' : World τ ι} (h : Live P m v)
    (hadmits : admits v op = true) (hop : op ≠ .tick) (hstep : SystemStep P v.toWorld op w')
    (hreached : Reachable (Steps (codeStep P)) CodeReset { v with toWorld := w' }) :
    Live P m { v with toWorld := w' } := by
  cases hstep with
  | ticked => exact absurd rfl hop
  | quiet _ hquiet => exact h.quiet (hquiet.running h.running) hreached
  | @returned mode call k' result _ _ heffect =>
      have hframe := heffect.frame
      have hsteady := CallEffect.steady heffect
      refine h.change hreached hframe.running hsteady.mask hframe.tasks hframe.currentTask
        (fun _ hin => hin) (h.called heffect fun _ _ hout => ?_)
        (h.code_same hframe.tasks rfl rfl)
      cases hout
  | @suspended mode call k' self _ hthread _ heffect =>
      have hframe := heffect.frame
      have hsteady := CallEffect.steady heffect
      have hcall : ∀ t, (v.inCall t).isSome = true →
          (Function.update v.inCall self (some call) t).isSome = true := by
        intro t hin
        rcases eq_or_ne t self with rfl | hne
        · simp
        · simpa [hne] using hin
      have hidle : v.tickCode = none := by
        cases hcode : v.tickCode with
        | none => rfl
        | some c =>
            obtain rfl := hthread.mode_eq
            simp [admits, hcode, interrupts] at hadmits
      refine h.change hreached hframe.running hsteady.mask hframe.tasks hframe.currentTask
        hcall (h.called heffect fun t hself _ => ?_) (by simp [hidle])
      obtain rfl : self = t := Option.some.inj (hthread.current.symm.trans hself.current)
      simp
  | @resumed self call hcurrent hstate hcall =>
      have hidle : v.tickCode = none := by
        cases hrun : v.tickCode with
        | none => rfl
        | some r => simp [admits, hrun, interrupts] at hadmits
      refine ⟨hreached, h.running, h.mask, h.current, fun t ht hasleep => ?_,
        fun t hself hready => ?_, by simp [hidle]⟩
      · have hne : t ≠ self := by
          rintro rfl
          have hstate : ((resumeStep v.toWorld t call).tcb t).state = .running := hstate
          simp [hstate] at hasleep
        simpa [resumeStep, InCall, hne] using h.asleep t ht hasleep
      · obtain rfl : t = self := Option.some.inj (hself.symm.trans hcurrent)
        have hstate : ((resumeStep v.toWorld t call).tcb t).state = .running := hstate
        simp [hstate] at hready

theorem Live.clock {op : ClockOp} (h : Live P m v) (hstep : codeStep P v op.codeOp = some v') :
    Live P m v' := by
  have hreached : Reachable (Steps (codeStep P)) CodeReset v' := h.reached.step hstep
  cases clock_cases hstep with
  | entered _ =>
      refine ⟨hreached, h.running, h.mask, h.current, h.asleep, h.woken, ?_⟩
      rintro c ⟨⟩
      exact mild_sysTick
  | @accessed c next k' hcode haccess =>
      obtain ⟨hrest, hchange⟩ := (h.code c hcode).step ⟨rfl, h.asleep⟩ haccess
      have hnext : ∀ rest ∈ some next, MildCode v.tasks (InCall v) (fun _ => True) rest := by
        rintro rest ⟨⟩
        exact hrest
      rcases hchange with rfl | hmild
      · exact ⟨hreached, h.running, h.mask, h.current, h.asleep, h.woken, hnext⟩
      · have hstate := hmild.state
        obtain ⟨_, _, _, rfl⟩ := hmild.frame
        exact h.change hreached rfl rfl rfl rfl (fun _ hin => hin)
          (fun t => (hstate t).imp_right Or.inl) hnext
  | left =>
      exact ⟨hreached, h.running, h.mask, h.current, h.asleep, h.woken, by simp⟩

theorem base_of_codeStep {op : Op τ ι} (h : codeStep P v (.base op) = some v') :
    admits v op = true ∧ ∃ w', RtosSystem.step P v.toWorld op = some w' ∧
      v' = { v with toWorld := w' } := by
  simp only [codeStep, Option.ite_none_right_eq_some, Option.map_eq_some_iff] at h
  obtain ⟨hadmits, w', hstep, rfl⟩ := h
  exact ⟨hadmits, w', hstep, rfl⟩

theorem Live.base_step {op : Op τ ι} (h : Live P m v) (hstep : codeStep P v (.base op) = some v') :
    Live P m v' := by
  have hreached : Reachable (Steps (codeStep P)) CodeReset v' := h.reached.step hstep
  obtain ⟨hadmits, w', hsystem, rfl⟩ := base_of_codeStep hstep
  refine h.base hadmits ?_ (step_system hsystem) hreached
  rintro rfl
  cases hrun : v.tickCode <;> simp [admits, hrun, outsideTick, interrupts] at hadmits

theorem Live.step {l : Label τ Handler (SectionOp ι) (FreeOp ι) ClockOp} (h : Live P m v)
    (hatomic : Atomic (kernelSystem P m) v l v') : Live P m v' := by
  have hstep := atomic_codeStep h hatomic
  cases l with
  | op a o => cases o <;> exact h.base_step hstep
  | free a x => cases x <;> exact h.base_step hstep
  | clock x => exact h.clock hstep

end Preserved

end Live

end Stm32f411.LiveProcessor
