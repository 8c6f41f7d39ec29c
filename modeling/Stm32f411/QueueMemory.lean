import Stm32f411.SurroundedQueues

/-!
Where the queues read and write. The same kernel in other surroundings, that is with other
bytes behind the storage of its queues and behind the item buffers, makes the same steps and
leaves the surroundings as they are.
-/

namespace Stm32f411.QueueMemory

open Stm32f411.LabelledRuns
open Stm32f411.RtosTypes
open Stm32f411.RtosKernel
open Stm32f411.RtosIpc
open Stm32f411.RtosSystem
open Stm32f411.RtosStepSpec
open Stm32f411.QueueFifo
open Stm32f411.QueueRoom
open Stm32f411.QueueSurroundings
open Stm32f411.SurroundedQueues

section Steps

variable {τ ι : Type}
variable {size : BufferPtr → Nat} {rest : Surroundings ι} {k k' : Kernel τ ι}

variable {P : Platform τ} {w w' : World τ ι}

section Boot

theorem surround_taskAdd [DecidableEq τ]
    (task : Option τ) (function argument stack stackWords : Word)
    (priority : Nat) :
    Unaffected size rest (rtosTaskAdd P k task function argument stack stackWords priority)
      (rtosTaskAdd P (surround size rest k) task function argument stack stackWords
        priority) := by
  unfold Unaffected rtosTaskAdd
  cases task with
  | none => rfl
  | some task =>
      simp only [apply_ite (Prod.map (surround size rest) id)]
      rfl

theorem surround_addIdle [DecidableEq τ] (cleared : Kernel τ ι) :
    let result (k : Kernel τ ι) := rtosTaskAdd P k (some P.idle) P.idleEntry 0 P.idleStack
      rtosIdleStackWords rtosIdlePriority
    let finished (k : Kernel τ ι) : Kernel τ ι × Status :=
      if (result k).2 ≠ .ok then result k else ({ (result k).1 with initialized := true }, .ok)
    finished (surround size rest cleared) = (finished cleared).map (surround size rest) id := by
  intro result finished
  have hresult : result (surround size rest cleared) =
      (result cleared).map (surround size rest) id :=
    surround_taskAdd (some P.idle) _ _ _ _ _
  simp only [finished, hresult, apply_ite (Prod.map (surround size rest) id)]
  rfl

theorem surround_init [DecidableEq τ] (config : Option Config) :
    Unaffected size rest (rtosInit P k config) (rtosInit P (surround size rest k) config) := by
  unfold Unaffected rtosInit
  cases config with
  | none => rfl
  | some config =>
      simp only [apply_ite (Prod.map (surround size rest) id)]
      refine if_congr Iff.rfl rfl (if_congr Iff.rfl rfl ?_)
      refine (surround_addIdle
        { k with
          tasks := []
          applicationTaskCount := 0
          waitSequence := 0
          currentTask := none
          rrCursor := fun _ => 0
          config := config
          maxSyscallPriorityMask := BitVec.ofNat 32 config.maxSyscallIrqPriority <<< 4 }).trans ?_
      exact apply_ite (Prod.map (surround size rest) id) _ _ _

theorem surround_create [DecidableEq τ]
    (task : Option τ) (function argument stack stackWords : Word)
    (priority : Nat) :
    Unaffected size rest
      (rtosTaskCreateStatic P k task function argument stack stackWords priority)
      (rtosTaskCreateStatic P (surround size rest k) task function argument stack stackWords
        priority) := by
  have hresult : rtosTaskAdd P (surround size rest k) task function argument stack stackWords
      priority = (rtosTaskAdd P k task function argument stack stackWords priority).map
        (surround size rest) id := surround_taskAdd task _ _ _ _ _
  unfold Unaffected rtosTaskCreateStatic
  simp only [hresult, apply_ite (Prod.map (surround size rest) id)]
  rfl

theorem surround_semaphoreInit [DecidableEq ι]
    (semaphore : Option ι) (initialCount maximumCount : Word) :
    Unaffected size rest (rtosSemaphoreInit k semaphore initialCount maximumCount)
      (rtosSemaphoreInit (surround size rest k) semaphore initialCount maximumCount) := by
  unfold Unaffected rtosSemaphoreInit
  cases semaphore with
  | none => rfl
  | some p =>
      simp only [apply_ite (Prod.map (surround size rest) id), surround_setSemaphore]
      rfl

theorem surround_mutexInit [DecidableEq ι] (mutex : Option ι) :
    Unaffected size rest (rtosMutexInit k mutex)
      (rtosMutexInit (surround size rest k) mutex) := by
  unfold Unaffected rtosMutexInit
  cases mutex with
  | none => rfl
  | some p =>
      simp only [apply_ite (Prod.map (surround size rest) id), surround_setMutex]
      rfl

theorem surround_queueInit [DecidableEq ι]
    (p : ι) (storage : Nat → Byte) (capacity itemSize : Word) :
    Unaffected size rest (rtosQueueInit k (some p) (some storage) capacity itemSize)
      (rtosQueueInit (surround size rest k) (some p)
        (some (splice (capacity.toNat * itemSize.toNat) storage (rest.storage p))) capacity
        itemSize) := by
  have hplaced : (surround size rest k).setObject p (.queue
      ⟨splice (capacity.toNat * itemSize.toNat) storage (rest.storage p), capacity, itemSize,
        0, 0, 0⟩) =
      surround size rest (k.setObject p (.queue ⟨storage, capacity, itemSize, 0, 0, 0⟩)) :=
    surround_setQueue p ⟨storage, capacity, itemSize, 0, 0, 0⟩
  unfold Unaffected rtosQueueInit
  simp only [apply_ite (Prod.map (surround size rest) id), hplaced]
  rfl

theorem surround_select :
    rtosSelectNext (surround size rest k) =
      (rtosSelectNext k).map (surround size rest) id := by
  unfold rtosSelectNext
  have hscan : scanLevel (surround size rest k) = scanLevel k := rfl
  rw [hscan]
  rcases (List.range rtosPriorityLevels).reverse.findSome? fun priority =>
    (scanLevel k priority).map fun index => (priority, index) with _ | ⟨priority, index⟩ <;> rfl

variable [DecidableEq τ]

theorem surround_start (hookRegistered tickConfigured : Bool) :
    Unaffected size rest (rtosStart k hookRegistered tickConfigured)
      (rtosStart (surround size rest k) hookRegistered tickConfigured) := by
  have hselect : rtosSelectNext { surround size rest k with tick := 0 } =
      (rtosSelectNext { k with tick := 0 }).map (surround size rest) id :=
    surround_select (k := { k with tick := 0 })
  unfold Unaffected rtosStart
  rw [hselect]
  simp only [apply_ite (Prod.map (surround size rest) id)]
  refine if_congr Iff.rfl rfl (if_congr Iff.rfl rfl (if_congr Iff.rfl rfl ?_))
  rcases rtosSelectNext { k with tick := 0 } with ⟨k', _ | first⟩ <;> rfl

end Boot

variable [DecidableEq τ]

section Running

theorem surround_tickVisit (now : Word) (acc : Kernel τ ι × Bool) (t : τ) :
    tickVisit now (acc.map (surround size rest) id) t =
      (tickVisit now acc t).map (surround size rest) id := by
  have hdecision : tickDecision now ((acc.map (surround size rest) id).1.tcb t) =
      tickDecision now (acc.1.tcb t) := rfl
  rw [tickVisit, tickVisit, hdecision]
  cases tickDecision now (acc.1.tcb t) <;> rfl

theorem surround_tick :
    sysTickHandler (surround size rest k) = surround size rest (sysTickHandler k) := by
  have hfinish : ∀ acc : Kernel τ ι × Bool,
      tickFinish (acc.map (surround size rest) id) = surround size rest (tickFinish acc) := by
    rintro ⟨k', _ | _⟩
    · rfl
    · exact (congrArg rtosPortPendContextSwitch surround_recompute).trans surround_pend
  obtain ⟨ticked, hticked⟩ : ∃ ticked, { k with tick := k.tick + 1 } = ticked := ⟨_, rfl⟩
  have hsame : { surround size rest k with tick := (surround size rest k).tick + 1 } =
      surround size rest ticked := by
    rw [← hticked]
    rfl
  have hloop : ticked.tasks.foldl (tickVisit ticked.tick)
      (Prod.map (surround size rest) id (ticked, false)) =
        (ticked.tasks.foldl (tickVisit ticked.tick) (ticked, false)).map
          (surround size rest) id :=
    List.foldl_hom _ (surround_tickVisit ticked.tick)
  rw [sysTickHandler, sysTickHandler, hsame, hticked, rtosTickIsr, rtosTickIsr,
    apply_ite (surround size rest), ← hfinish, ← hloop]
  rfl

theorem surround_pendSv (stackValid : Bool) :
    rtosScheduleFromPendsv (surround size rest k) stackValid =
      (rtosScheduleFromPendsv k stackValid).map (surround size rest) := by
  have hswitched : switchedOut (surround size rest k) =
      surround size rest (switchedOut k) := rfl
  rw [schedule_eq, schedule_eq, hswitched, surround_select]
  simp only [apply_ite (Except.map (surround size rest))]
  refine if_congr Iff.rfl rfl ?_
  rcases rtosSelectNext (switchedOut k) with ⟨k', _ | next⟩ <;> rfl

theorem surround_trampoline (t : τ) :
    rtosTaskEntryTrampoline (surround size rest k) t =
      (rtosTaskEntryTrampoline k t).map (surround size rest) := by
  unfold rtosTaskEntryTrampoline
  simp only [apply_ite (Except.map (surround size rest))]
  rfl

end Running

variable [DecidableEq ι]

theorem surround_step (hw : Roomy size w) {op : Op τ ι} (hfits : FitsOp size w op) :
    step P (surroundWorld size rest w) (surroundOp size rest op) =
      (step P w op).map (surroundWorld size rest) := by
  cases op with
  | init config =>
      exact congrArg (fun result => some { w with toKernel := result.1 }) (surround_init config)
  | taskCreate task function argument stack stackWords priority =>
      exact congrArg (fun result => some { w with toKernel := result.1 })
        (surround_create task function argument stack stackWords priority)
  | semaphoreInit semaphore initialCount maximumCount =>
      exact congrArg (fun result => some { w with toKernel := result.1 })
        (surround_semaphoreInit semaphore initialCount maximumCount)
  | mutexInit mutex =>
      exact congrArg (fun result => some { w with toKernel := result.1 })
        (surround_mutexInit mutex)
  | queueInit queue storage capacity itemSize =>
      cases queue with
      | none => rfl
      | some p =>
          cases storage with
          | none => rfl
          | some storage =>
              exact congrArg (fun result => some { w with toKernel := result.1 })
                (surround_queueInit p storage capacity itemSize)
  | start hookRegistered tickConfigured =>
      exact congrArg (fun result => some { w with toKernel := result.1 })
        (surround_start hookRegistered tickConfigured)
  | call mode call =>
      have hruns : modeRuns P (surroundWorld size rest w) mode = modeRuns P w mode := by
        cases mode <;> rfl
      change step P (surroundWorld size rest w) (.call mode call) = _
      rw [step, step, hruns]
      split
      · next hmode =>
          rw [surround_callStep hw.queues hw.waiters (callerRuns_of_modeRuns hmode).1
            (hfits mode call rfl)]
          rfl
      · rfl
  | resume =>
      have hdata : ∀ self, (w.inCall self).map (resumeStep (surroundWorld size rest w) self) =
          ((w.inCall self).map (resumeStep w self)).map (surroundWorld size rest) := by
        intro self
        cases hcall : w.inCall self with
        | none => rfl
        | some call =>
            simp only [Option.map_some, resumeStep, surroundWorld,
              surround_callData (hw.calls self call hcall)]
            rfl
      have hcurrent : (surroundWorld size rest w).currentTask = w.currentTask := rfl
      simp only [surroundOp, step, hcurrent]
      cases w.currentTask with
      | none => rfl
      | some self =>
          simp only [apply_ite (Option.map (surroundWorld size rest)), ← hdata]
          rfl
  | taskReturn =>
      have hcurrent : (surroundWorld size rest w).currentTask = w.currentTask := rfl
      have hreturn : ∀ self, rtosTaskEntryTrampoline (surroundWorld size rest w).toKernel self =
          (rtosTaskEntryTrampoline w.toKernel self).map (surround size rest) :=
        surround_trampoline
      simp only [surroundOp, step, hcurrent, hreturn]
      cases w.currentTask with
      | none => rfl
      | some self =>
          simp only [apply_ite (Option.map (surroundWorld size rest))]
          rcases rtosTaskEntryTrampoline w.toKernel self with _ | k' <;> rfl
  | tick => exact congrArg (fun k => some { w with toKernel := k }) surround_tick
  | pendSV stackValid =>
      have hswitch : rtosScheduleFromPendsv (surroundWorld size rest w).toKernel stackValid =
          (rtosScheduleFromPendsv w.toKernel stackValid).map (surround size rest) :=
        surround_pendSv stackValid
      simp only [surroundOp, step, hswitch, apply_ite (Option.map (surroundWorld size rest))]
      rcases rtosScheduleFromPendsv w.toKernel stackValid with _ | k' <;> rfl
  | write buffer bytes =>
      exact congrArg (fun k => some { w with toKernel := k }) (surround_setBuffer buffer bytes)

end Steps

section Runs

variable {τ ι : Type}
variable {P : Platform τ} {size : BufferPtr → Nat} {rest : Surroundings ι} {k k' : Kernel τ ι}
variable {w w' : World τ ι} {op : Op τ ι}

/-- What lies behind the queues and the buffers of this state itself. -/
def ownSurroundings (w : World τ ι) : Surroundings ι where
  storage := fun p => ((w.objects p).queue?.map Queue.storage).getD fun _ => 0
  memory := w.memory

theorem surroundWorld_own (w : World τ ι) : surroundWorld size (ownSurroundings w) w = w := by
  have hobjects : ∀ p, surroundObject ((ownSurroundings w).storage p) (w.objects p) =
      w.objects p := by
    intro p
    cases hobj : w.objects p with
    | queue q => simp [surroundObject, surroundQueue, ownSurroundings, hobj]
    | _ => rfl
  have hkernel : surround size (ownSurroundings w) w.toKernel = w.toKernel := by
    simp only [surround, hobjects]
    simp only [ownSurroundings, splice_self]
  rw [surroundWorld, hkernel]

variable [DecidableEq τ] [DecidableEq ι]

/-- The kernel keeps to the bytes it was given. In other surroundings every run goes the
same way and leaves the surroundings alone, so that nothing is read there; and no step of
the kernel writes behind an item buffer or behind the storage of a queue. -/
theorem queues_in_bounds (h : Reachable (FitsSteps P size) Reset w) :
    (∀ rest ops w', Run (FitsSteps P size) w ops w' →
      Run (Steps (step P)) (surroundWorld size rest w) (ops.map (surroundOp size rest))
        (surroundWorld size rest w')) ∧
      ∀ op w', FitsSteps P size w op w' → (∀ b bytes, op ≠ .write b bytes) →
        (∀ p storage capacity itemSize, op ≠ .queueInit p storage capacity itemSize) →
          (∀ b i, size b ≤ i → w'.memory b i = w.memory b i) ∧
            ∀ p q q', w.objects p = .queue q → w'.objects p = .queue q' →
              ∀ i, storageSize q' ≤ i → q'.storage i = q.storage i := by
  refine ⟨fun rest ops w' hrun => ?_, ?_⟩
  · induction hrun with
    | nil => exact .nil
    | @snoc ops v v' op hrest hlast ih =>
        have hstep : step P (surroundWorld size rest v) (surroundOp size rest op) =
            some (surroundWorld size rest v') := by
          rw [surround_step (fits_roomy (h.run hrest)) hlast.2, hlast.1]
          rfl
        rw [List.map_append]
        exact ih.snoc hstep
  · rintro op w' ⟨hstep, hfits⟩ hwrite hinit
    have hop : surroundOp size (ownSurroundings w) op = op := by
      cases op with
      | write b bytes => exact absurd rfl (hwrite b bytes)
      | queueInit p storage capacity itemSize =>
          exact absurd rfl (hinit p storage capacity itemSize)
      | _ => rfl
    have hsame : surroundWorld size (ownSurroundings w) w' = w' := by
      have hown : step P (surroundWorld size (ownSurroundings w) w)
          (surroundOp size (ownSurroundings w) op) =
            (step P w op).map (surroundWorld size (ownSurroundings w)) :=
        surround_step (fits_roomy h) hfits
      rw [hop, surroundWorld_own, hstep] at hown
      exact (Option.some.inj hown).symm
    refine ⟨fun b i hi => ?_, fun p q q' hobj hobj' i hi => ?_⟩
    · conv_lhs => rw [← hsame]
      exact splice_outside hi
    · have hqueue : surroundQueue q.storage q' = q' := by
        have hobjects := congrArg (fun w : World τ ι => w.objects p) hsame
        simpa [surroundWorld, surround, surroundObject, ownSurroundings, hobj, hobj']
          using hobjects
      conv_lhs => rw [← hqueue]
      exact splice_outside hi

end Runs

section Demo

/-- Is the buffer of the call large enough? -/
def hasRoom {τ ι : Type} (size : BufferPtr → Nat) (w : World τ ι) : Op τ ι → Bool
  | .call _ call =>
      match callItem call with
      | none => true
      | some (p, item) =>
          (w.objects p).queue?.all fun q => decide (q.itemSize.toNat ≤ size item)
  | _ => true

theorem fits_of_hasRoom {τ ι : Type} [DecidableEq τ] [DecidableEq ι] {size : BufferPtr → Nat}
    {w : World τ ι} {op : Op τ ι} (h : hasRoom size w op = true) : FitsOp size w op := by
  rintro mode call rfl p item q hcall hobj
  simpa [hasRoom, hcall, hobj] using h

def roomyStep (w : World Nat Nat) (op : Op Nat Nat) : Option (World Nat Nat) :=
  if hasRoom (fun _ => 1) w op then step demoPlatform w op else none

theorem roomyStep_fits {w w' : World Nat Nat} {op : Op Nat Nat}
    (h : Steps roomyStep w op w') : FitsSteps demoPlatform (fun _ => 1) w op w' := by
  rw [Steps, roomyStep] at h
  split at h
  · next hroom => exact ⟨h, fits_of_hasRoom hroom⟩
  · simp at h

/-- The hand-off of one byte, with 0xFF all around the buffers and the queue. -/
theorem queues_in_bounds_demo :
    Run (Steps (step demoPlatform))
      (surroundWorld (fun _ => 1) ⟨fun _ _ => 0xFF, fun _ _ => 0xFF⟩ demoReset)
      (handOffRun.map (surroundOp (fun _ => 1) ⟨fun _ _ => 0xFF, fun _ _ => 0xFF⟩))
      (surroundWorld (fun _ => 1) ⟨fun _ _ => 0xFF, fun _ _ => 0xFF⟩ (demoRun handOffRun)) := by
  have hreset : Reachable (FitsSteps demoPlatform fun _ => 1) Reset demoReset :=
    .initial demoReset_reset
  have hrun : Run (Steps roomyStep) demoReset handOffRun _ := exec_run (by decide)
  obtain ⟨hsurrounded, _⟩ := queues_in_bounds hreset
  exact hsurrounded _ _ _ (hrun.mono fun _ _ _ => roomyStep_fits)

end Demo

end Stm32f411.QueueMemory
