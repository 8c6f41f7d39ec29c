import Stm32f411.RtosBootSpec
import Stm32f411.RtosCallSpec

/-!
Everything one step of the system can do to the kernel. An invariant of the kernel state
is proved by cases on `KernelStep`, and then holds in every reachable state.
-/

namespace Stm32f411.RtosStepSpec

open Stm32f411.RtosTypes
open Stm32f411.RtosKernel
open Stm32f411.RtosIpc
open Stm32f411.RtosSystem
open Stm32f411.RtosKernelSpec
open Stm32f411.RtosBootSpec
open Stm32f411.RtosCallSpec
open Stm32f411.LabelledRuns

variable {τ ι : Type} [DecidableEq τ]

section Switch

variable {k k' : Kernel τ ι}

/-- The task switched out is READY again if it was still RUNNING. -/
@[simps -fullyApplied]
def switchedOut (k : Kernel τ ι) : Kernel τ ι :=
  { k with
    tcb := fun t =>
      if k.currentTask = some t ∧ (k.tcb t).state = .running then
        { k.tcb t with state := .ready }
      else k.tcb t
    pended := false }

/-- A context switch to `next`. -/
structure Switched (k : Kernel τ ι) (next : τ) (k' : Kernel τ ι) : Prop where
  mem : next ∈ k.tasks
  runnable : Runnable k next
  highest : ∀ t ∈ k.tasks, Runnable k t →
    (k.tcb t).effectivePriority < rtosPriorityLevels →
    (k.tcb t).effectivePriority ≤ (k.tcb next).effectivePriority
  rest : ∃ cursor, k' = { switchedOut k with
    tcb := Function.update (switchedOut k).tcb next
      { k.tcb next with state := .running }
    rrCursor := cursor
    currentTask := some next }

theorem runnable_switchedOut {t : τ} : Runnable (switchedOut k) t ↔ Runnable k t := by
  unfold Runnable
  simp only [switchedOut_tcb]
  split
  · next h => simp [h.2]
  · rfl

theorem switchedOut_effectivePriority (t : τ) :
    ((switchedOut k).tcb t).effectivePriority = (k.tcb t).effectivePriority := by
  simp only [switchedOut_tcb]
  split <;> rfl

theorem dispatch_switchedOut (t : τ) :
    { (switchedOut k).tcb t with state := TaskState.running } =
      { k.tcb t with state := .running } := by
  simp only [switchedOut_tcb]
  split <;> rfl

/-- A switch writes the states of two tasks and nothing else in any TCB. -/
theorem Switched.tcb_eq {next : τ} (h : Switched k next k') (t : τ) :
    k'.tcb t = { k.tcb t with
      state := if t = next then .running
        else if k.currentTask = some t ∧ (k.tcb t).state = .running then .ready
        else (k.tcb t).state } := by
  obtain ⟨_, _, _, cursor, rfl⟩ := h
  rcases eq_or_ne t next with rfl | ht
  · simp
  · simp only [ht, Function.update_of_ne, ne_eq, not_false_iff, switchedOut_tcb, if_false]
    split <;> rfl

/-- A task that cannot run is not touched by a switch. -/
theorem Switched.tcb_of_not_runnable {next t : τ} (h : Switched k next k')
    (ht : ¬Runnable k t) : k'.tcb t = k.tcb t := by
  have hne : t ≠ next := by
    rintro rfl
    exact ht h.runnable
  have hstate : (k.tcb t).state ≠ .running := fun hs => ht (Or.inr hs)
  rw [h.tcb_eq]
  simp [hne, hstate]

theorem Switched.runnable_iff {next : τ} (h : Switched k next k') (t : τ) :
    Runnable k' t ↔ Runnable k t := by
  rcases eq_or_ne t next with rfl | hne
  · exact iff_of_true (Or.inr (by rw [h.tcb_eq]; simp)) h.runnable
  · unfold Runnable
    rw [h.tcb_eq]
    simp only [hne, if_false]
    split
    · next hs => simp [hs.2]
    · rfl

/-- A switch moves tasks between READY and RUNNING only. -/
theorem Switched.state_iff {next : τ} (h : Switched k next k') {state : TaskState}
    (hready : state ≠ .ready) (hrunning : state ≠ .running) (t : τ) :
    (k'.tcb t).state = state ↔ (k.tcb t).state = state := by
  have hnot : ∀ {k : Kernel τ ι}, Runnable k t → (k.tcb t).state ≠ state := by
    rintro k (hs | hs)
    · rw [hs]
      exact hready.symm
    · rw [hs]
      exact hrunning.symm
  rcases em (Runnable k t) with hr | hr
  · exact iff_of_false (hnot ((h.runnable_iff t).mpr hr)) (hnot hr)
  · rw [h.tcb_of_not_runnable hr]

theorem Switched.blocked {next : τ} (h : Switched k next k') (t : τ) :
    (k'.tcb t).state = .blocked ↔ (k.tcb t).state = .blocked :=
  h.state_iff (by simp) (by simp) t

theorem switchedOut_none (h : k.currentTask = none) :
    { k with pended := false } = switchedOut k := by
  simp [switchedOut, h]

theorem switchedOut_some {current : τ} (h : k.currentTask = some current) :
    { (if (k.tcb current).state = .running then
        k.modifyTask current fun t => { t with state := .ready }
      else k) with pended := false } = switchedOut k := by
  split
  · next hrunning =>
      simp only [switchedOut, Kernel.modifyTask, Kernel.mk.injEq, h]
      refine ⟨?_, by simp⟩
      funext t
      rcases eq_or_ne t current with rfl | ht
      · simp [hrunning]
      · simp [ht, Ne.symm ht]
  · next hrunning =>
      simp only [switchedOut, Kernel.mk.injEq, h]
      refine ⟨?_, by simp⟩
      funext t
      rcases eq_or_ne t current with rfl | ht
      · simp [hrunning]
      · simp [Ne.symm ht]

theorem schedule_eq (k : Kernel τ ι) (stackValid : Bool) :
    rtosScheduleFromPendsv k stackValid =
      if k.currentTask.isSome && !stackValid then .error ⟨.stack, k.currentTask⟩
      else match rtosSelectNext (switchedOut k) with
        | (_, none) => .error ⟨.kernelInvariant, k.currentTask⟩
        | (k, some next) =>
            .ok { k.modifyTask next fun t => { t with state := .running } with
              currentTask := some next } := by
  unfold rtosScheduleFromPendsv
  cases hcur : k.currentTask with
  | none =>
      rewrite [← switchedOut_none hcur]
      rfl
  | some current =>
      rewrite [← switchedOut_some hcur]
      rfl

/-- PendSV switches to the task that `rtos_select_next` chooses. -/
theorem schedule_selects {stackValid : Bool}
    (h : rtosScheduleFromPendsv k stackValid = .ok k') :
    (rtosSelectNext (switchedOut k)).2 = k'.currentTask := by
  rw [schedule_eq] at h
  split at h
  · simp at h
  · split at h
    · simp at h
    · next k₁ next hselect =>
        simp only [Except.ok.injEq] at h
        rw [← h, hselect]

theorem schedule_ok {stackValid : Bool}
    (h : rtosScheduleFromPendsv k stackValid = .ok k') : ∃ next, Switched k next k' := by
  rw [schedule_eq] at h
  split at h
  · simp at h
  · split at h
    · simp at h
    · next k₁ next hselect =>
        obtain ⟨⟨cursor, rfl⟩, hmem, hrun, hmax⟩ := selectNext_eq_some hselect
        refine ⟨next, hmem, runnable_switchedOut.mp hrun, ?_, cursor, ?_⟩
        · intro t ht htrun hlt
          simpa only [switchedOut_effectivePriority] using
            hmax t ht (runnable_switchedOut.mpr htrun)
              (by simpa only [switchedOut_effectivePriority] using hlt)
        · simp only [Except.ok.injEq] at h
          rw [← h, ← dispatch_switchedOut next]
          rfl

theorem trampoline_ok {self : τ} (h : rtosTaskEntryTrampoline k self = .ok k') :
    (k.tcb self).mutexHoldCount = 0 ∧
      k' = rtosPortPendContextSwitch
        (k.modifyTask self fun t => { t with state := .terminated }) := by
  unfold rtosTaskEntryTrampoline at h
  split at h
  · simp at h
  · next hcount => exact ⟨by simpa using hcount, by simpa using h.symm⟩

end Switch

/-- Who may be executing a call or a return in `mode`. -/
structure CallerRuns (P : Platform τ) (k : Kernel τ ι) (mode : Mode) : Prop where
  numbered : HandlerNumbered mode
  thread : mode = .thread → ∀ self, k.currentTask = some self →
    (k.tcb self).state = .running ∧ self ≠ P.idle

/-- The entry and return marks of calls. -/
def IsMark : Event τ ι → Prop
  | .called _ _ _ => True
  | .returned _ _ _ _ => True
  | _ => False

/-- The steps that are neither a call nor a tick. -/
inductive QuietStep [DecidableEq ι] (P : Platform τ) (k : Kernel τ ι) : Kernel τ ι → Prop
  | unchanged : QuietStep P k k
  | booted {k' : Kernel τ ι} : Booted P k k' → QuietStep P k k'
  | created {k' : Kernel τ ι} {task : τ} {priority : Nat} :
      k.initialized = true → k.running = false → priority ≠ rtosIdlePriority →
      Added k task priority k' →
      QuietStep P k { k' with applicationTaskCount := k'.applicationTaskCount + 1 }
  | placed {p : ι} {object : Object τ} {kind : ObjectInit} :
      k.initialized = true → k.running = false → Initialised object kind →
      QuietStep P k ((k.setObject p object).record (.initialised p kind))
  | refusedStart {cursor : Nat → BitVec 8} : k.running = false →
      QuietStep P k { k with tick := 0, rrCursor := cursor }
  | started {k' : Kernel τ ι} : Started k k' → QuietStep P k k'
  | terminated {self : τ} :
      k.currentTask = some self → (k.tcb self).state = .running → self ≠ P.idle →
      (k.tcb self).mutexHoldCount = 0 →
      QuietStep P k (rtosPortPendContextSwitch
        (k.modifyTask self fun t => { t with state := .terminated }))
  | switched {next : τ} {k' : Kernel τ ι} : k.running = true → Switched k next k' →
      QuietStep P k k'
  | wrote {buffer : BufferPtr} {bytes : Nat → Byte} :
      QuietStep P k (k.setBuffer buffer bytes)

/-- The same once the kernel runs: nothing is created or initialised any more. -/
inductive RunningStep (P : Platform τ) (k : Kernel τ ι) : Kernel τ ι → Prop
  | unchanged : RunningStep P k k
  | terminated {self : τ} :
      k.currentTask = some self → (k.tcb self).state = .running → self ≠ P.idle →
      RunningStep P k (rtosPortPendContextSwitch
        (k.modifyTask self fun t => { t with state := .terminated }))
  | switched {next : τ} {k' : Kernel τ ι} : Switched k next k' → RunningStep P k k'
  | wrote {buffer : BufferPtr} {bytes : Nat → Byte} :
      RunningStep P k (k.setBuffer buffer bytes)

theorem QuietStep.running [DecidableEq ι]
    {P : Platform τ} {k k' : Kernel τ ι} (h : QuietStep P k k')
    (hrun : k.running = true) : RunningStep P k k' := by
  have hstopped : ¬k.running = false := by simp [hrun]
  cases h with
  | unchanged => exact .unchanged
  | booted hboot => exact absurd hboot.stopped hstopped
  | created _ hoff _ _ => exact absurd hoff hstopped
  | placed _ hoff _ => exact absurd hoff hstopped
  | refusedStart hoff => exact absurd hoff hstopped
  | started hstart => exact absurd hstart.stopped hstopped
  | terminated hcur hstate hidle _ => exact .terminated hcur hstate hidle
  | switched _ hswitch => exact .switched hswitch
  | wrote => exact .wrote

inductive KernelStep [DecidableEq ι] (P : Platform τ) (k : Kernel τ ι) : Kernel τ ι → Prop
  | quiet {k' : Kernel τ ι} : QuietStep P k k' → KernelStep P k k'
  | marked {event : Event τ ι} : IsMark event → KernelStep P k (k.record event)
  | call {mode : Mode} {call : Call ι} {k' : Kernel τ ι} {outcome : Outcome} :
      CallerRuns P k mode → CallEffect k mode call k' outcome → KernelStep P k k'
  | ticked : KernelStep P k (sysTickHandler k)

def KernelSteps [DecidableEq ι] (P : Platform τ) : Kernel τ ι → Kernel τ ι → Prop :=
  Relation.ReflTransGen (KernelStep P)

/-- Outside calls an object changes only by its initialisation. -/
theorem QuietStep.objects [DecidableEq ι]
    {P : Platform τ} {k k' : Kernel τ ι} (h : QuietStep P k k') :
    (k'.objects = k.objects ∧ k'.log = k.log) ∨
      ∃ p object kind, k.running = false ∧ Initialised object kind ∧
        k' = (k.setObject p object).record (.initialised p kind) := by
  cases h with
  | unchanged => exact Or.inl ⟨rfl, rfl⟩
  | booted hboot =>
      obtain ⟨_, _, _, _, _, rfl⟩ := hboot
      exact Or.inl ⟨rfl, rfl⟩
  | created _ _ _ hadd =>
      obtain ⟨_, _, _, _, rfl⟩ := hadd
      exact Or.inl ⟨rfl, rfl⟩
  | placed _ hstopped hobj => exact Or.inr ⟨_, _, _, hstopped, hobj, rfl⟩
  | refusedStart _ => exact Or.inl ⟨rfl, rfl⟩
  | started hstart =>
      obtain ⟨_, _, _, _, _, _, _, rfl⟩ := hstart
      exact Or.inl ⟨rfl, rfl⟩
  | terminated _ _ _ _ => exact Or.inl ⟨rfl, rfl⟩
  | switched _ hswitch =>
      obtain ⟨_, _, _, _, rfl⟩ := hswitch
      exact Or.inl ⟨rfl, rfl⟩
  | wrote => exact Or.inl ⟨rfl, rfl⟩

/-- The kernel a call finds, with its entry recorded. -/
def callEntered (k : Kernel τ ι) (mode : Mode) (call : Call ι) : Kernel τ ι :=
  k.record (.called (callerOf k mode) call (callData k call))

def IsQuiet : Op τ ι → Prop
  | .tick => False
  | .call _ _ => False
  | .resume => False
  | _ => True

inductive SystemStep [DecidableEq ι] (P : Platform τ) (w : World τ ι) : Op τ ι → World τ ι → Prop
  | ticked : SystemStep P w .tick { w with toKernel := sysTickHandler w.toKernel }
  | quiet {op : Op τ ι} {k' : Kernel τ ι} : IsQuiet op → QuietStep P w.toKernel k' →
      SystemStep P w op { w with toKernel := k' }
  | returned {mode : Mode} {call : Call ι} {k' : Kernel τ ι} {result : Status} :
      CallerRuns P w.toKernel mode →
      (∀ self, callerOf w.toKernel mode = some self → w.inCall self = none) →
      CallEffect (callEntered w.toKernel mode call) mode call k' (.returned result) →
      SystemStep P w (.call mode call) { w with
        toKernel := k'.record
          (.returned (callerOf w.toKernel mode) call result (callData k' call)) }
  | suspended {mode : Mode} {call : Call ι} {k' : Kernel τ ι} {self : τ} :
      CallerRuns P w.toKernel mode → ThreadCall w.toKernel mode self →
      w.inCall self = none →
      CallEffect (callEntered w.toKernel mode call) mode call k' .suspended →
      SystemStep P w (.call mode call) { w with
        toKernel := k'
        inCall := Function.update w.inCall self (some call) }
  | resumed {self : τ} {call : Call ι} :
      w.currentTask = some self → (w.tcb self).state = .running →
      w.inCall self = some call → SystemStep P w .resume (resumeStep w self call)

section Steps

variable {P : Platform τ} {w w' : World τ ι}

theorem callerRuns_of_modeRuns {mode : Mode} (h : modeRuns P w mode = true) :
    CallerRuns P w.toKernel mode := by
  constructor
  · rintro exception priority rfl
    simpa [modeRuns] using h
  · rintro rfl self hself
    simp only [modeRuns, threadRuns, hself, Bool.and_eq_true, decide_eq_true_eq] at h
    exact h.1

theorem inCall_of_modeRuns {mode : Mode} (h : modeRuns P w mode = true) {self : τ}
    (hself : callerOf w.toKernel mode = some self) : w.inCall self = none := by
  cases mode with
  | thread =>
      have hcur : w.currentTask = some self := hself
      simp only [modeRuns, threadRuns, hcur, Bool.and_eq_true, Option.isNone_iff_eq_none] at h
      exact h.2
  | handler exception priority => simp [callerOf] at hself

omit [DecidableEq τ] in
/-- Whoever does not run makes no call. -/
theorem CallerRuns.not_caller {k : Kernel τ ι} {mode : Mode} (h : CallerRuns P k mode) {t : τ}
    (hstate : (k.tcb t).state ≠ .running) : ¬ThreadCall k mode t := fun hthread =>
  hstate (h.thread hthread.mode_eq t hthread.current).1

omit [DecidableEq τ] in
theorem CallerRuns.record {k : Kernel τ ι} {mode : Mode} (h : CallerRuns P k mode)
    (event : Event τ ι) : CallerRuns P (k.record event) mode :=
  ⟨h.numbered, h.thread⟩

variable [DecidableEq ι]

theorem callStep_system {mode : Mode} (hmode : modeRuns P w mode = true) (call : Call ι) :
    SystemStep P w (.call mode call) (callStep w mode call) := by
  have hruns := callerRuns_of_modeRuns hmode
  have heffect := rtosCall_effect (k := callEntered w.toKernel mode call) hruns.numbered call
  unfold callStep
  dsimp only
  split
  · next k result hresult =>
      rw [callEntered, hresult] at heffect
      exact .returned hruns (fun _ => inCall_of_modeRuns hmode) heffect
  · next k hresult =>
      rw [callEntered, hresult] at heffect
      obtain ⟨self, hmode', hrun, hself⟩ := heffect.threadCall
      have hthread : ThreadCall w.toKernel mode self := ⟨hmode', hrun, hself⟩
      have hcaller := callerOf_thread hthread
      rw [hcaller]
      exact .suspended hruns hthread (inCall_of_modeRuns hmode hcaller) heffect

theorem objectPlaced_quiet {k k' : Kernel τ ι} (h : ObjectPlaced k k') : QuietStep P k k' := by
  rcases h with rfl | ⟨hinit, hstopped, p, object, kind, hobj, rfl⟩
  · exact .unchanged
  · exact .placed hinit hstopped hobj

/-- A task function returns to the trampoline of the task that runs. -/
theorem taskReturn_step (h : step P w .taskReturn = some w') :
    ∃ self, w.currentTask = some self ∧ threadRuns P w = true ∧
      (w.tcb self).mutexHoldCount = 0 ∧
      w' = { w with
        toKernel := rtosPortPendContextSwitch
          (w.toKernel.modifyTask self fun t => { t with state := .terminated }) } := by
  simp only [step] at h
  split at h
  · simp at h
  · next self hself =>
      split at h
      · next hruns =>
          split at h
          · next k' hk' =>
              obtain rfl := Option.some.inj h
              obtain ⟨hcount, rfl⟩ := trampoline_ok hk'
              exact ⟨self, hself, hruns, hcount, rfl⟩
          · simp at h
      · simp at h

theorem pendSV_step {stackValid : Bool} (h : step P w (.pendSV stackValid) = some w') :
    w.running = true ∧ ∃ k', rtosScheduleFromPendsv w.toKernel stackValid = .ok k' ∧
      w' = { w with toKernel := k' } := by
  simp only [step] at h
  split at h
  · next hrun =>
      split at h
      · next k' hk' => exact ⟨hrun, k', hk', (Option.some.inj h).symm⟩
      · simp at h
  · simp at h

theorem step_system {op : Op τ ι} (h : step P w op = some w') : SystemStep P w op w' := by
  cases op with
  | init config =>
      obtain rfl := Option.some.inj h
      refine .quiet trivial ?_
      rcases init_cases P w.toKernel config with hsame | hboot
      · rw [hsame]
        exact .unchanged
      · exact .booted hboot
  | taskCreate task function argument stack stackWords priority =>
      obtain rfl := Option.some.inj h
      refine .quiet trivial ?_
      rcases taskCreate_cases P w.toKernel task function argument stack stackWords priority
        with hsame | ⟨hinit, hstopped, hprio, t, k', hadd, hk'⟩
      · rw [hsame]
        exact .unchanged
      · rw [hk']
        exact .created hinit hstopped hprio hadd
  | semaphoreInit semaphore initialCount maximumCount =>
      obtain rfl := Option.some.inj h
      exact .quiet trivial (objectPlaced_quiet (semaphoreInit_cases _ _ _ _))
  | mutexInit mutex =>
      obtain rfl := Option.some.inj h
      exact .quiet trivial (objectPlaced_quiet (mutexInit_cases _ _))
  | queueInit queue storage capacity itemSize =>
      obtain rfl := Option.some.inj h
      exact .quiet trivial (objectPlaced_quiet (queueInit_cases _ _ _ _ _))
  | start hookRegistered tickConfigured =>
      obtain rfl := Option.some.inj h
      refine .quiet trivial ?_
      rcases start_cases w.toKernel hookRegistered tickConfigured with
        hsame | ⟨hstopped, cursor, hk'⟩ | hstart
      · rw [hsame]
        exact .unchanged
      · rw [hk']
        exact .refusedStart hstopped
      · exact .started hstart
  | call mode call =>
      simp only [step] at h
      split at h
      · next hmode =>
          obtain rfl := Option.some.inj h
          exact callStep_system hmode call
      · simp at h
  | resume =>
      simp only [step] at h
      split at h
      · simp at h
      · next self hself =>
          split at h
          · next hstate =>
              obtain ⟨call, hcall, rfl⟩ := Option.map_eq_some_iff.mp h
              exact .resumed hself hstate hcall
          · simp at h
  | taskReturn =>
      obtain ⟨self, hself, hruns, hcount, rfl⟩ := taskReturn_step h
      have hmode : modeRuns P w .thread = true := hruns
      obtain ⟨hstate, hidle⟩ := (callerRuns_of_modeRuns hmode).thread rfl self hself
      exact .quiet trivial (.terminated hself hstate hidle hcount)
  | tick =>
      obtain rfl := Option.some.inj h
      exact .ticked
  | pendSV stackValid =>
      obtain ⟨hrun, k', hschedule, rfl⟩ := pendSV_step h
      obtain ⟨next, hswitch⟩ := schedule_ok hschedule
      exact .quiet trivial (.switched hrun hswitch)
  | write buffer bytes =>
      obtain rfl := Option.some.inj h
      exact .quiet trivial .wrote

/-- A step of the system is a few steps of the kernel. -/
theorem SystemStep.kernelSteps {op : Op τ ι} (h : SystemStep P w op w') :
    KernelSteps P w.toKernel w'.toKernel := by
  cases h with
  | ticked => exact .single .ticked
  | quiet _ hquiet => exact .single (.quiet hquiet)
  | returned hruns _ heffect =>
      exact (.head (.marked (show IsMark (.called _ _ _) from trivial))
        (.head (.call (hruns.record _) heffect) (.single (.marked trivial))))
  | suspended hruns _ _ heffect =>
      exact .head (.marked (show IsMark (.called _ _ _) from trivial))
        (.single (.call (hruns.record _) heffect))
  | resumed _ _ _ => exact .single (.marked trivial)

/-- The invariant rule for properties of the kernel state. -/
theorem reached_kernel {I : Kernel τ ι → Prop} (hreset : ∀ w : World τ ι, Reset w → I w.toKernel)
    (hstep : ∀ k k', I k → KernelStep P k k' → I k') (h : Reached P w) : I w.toKernel := by
  apply h.invariant (I := fun w => I w.toKernel) hreset
  intro s op s' _ hs hop
  have hsteps := (step_system hop).kernelSteps
  generalize s'.toKernel = k' at hsteps
  induction hsteps with
  | refl => exact hs
  | tail _ hlast ih => exact hstep _ _ ih hlast

end Steps

end Stm32f411.RtosStepSpec
