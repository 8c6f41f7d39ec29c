import Stm32f411.SectionCode

/-!
The statements of `rtos_kernel.c` compute its functions.
-/

namespace Stm32f411.KernelMeaning

open Stm32f411.InheritanceRelaxation
open Stm32f411.RtosTypes
open Stm32f411.RtosKernel
open Stm32f411.RtosIpc
open Stm32f411.RtosStepSpec
open Stm32f411.StatementPrograms
open Stm32f411.StatementPrograms.Code
open Stm32f411.SectionCode

variable {τ ι : Type}

variable {k : Kernel τ ι}

theorem modifyTask_modifyTask [DecidableEq τ]
    (k : Kernel τ ι) (task : τ) (f g : RtosTask ι → RtosTask ι) :
    (k.modifyTask task f).modifyTask task g = k.modifyTask task fun t => g (f t) := by
  simp [Kernel.modifyTask]

@[simp] theorem run_assign [DecidableEq τ]
    (task : τ) (f : RtosTask ι → RtosTask ι) (k : Kernel τ ι) :
    (assign task f).run k = some ((), k.modifyTask task f) := rfl

@[simp] theorem run_assignObject [DecidableEq ι] (p : ι) (object : Object τ) (k : Kernel τ ι) :
    (assignObject p object).run k = some ((), k.setObject p object) := rfl

@[simp] theorem run_mark (event : Event τ ι) (k : Kernel τ ι) :
    (mark event).run k = some ((), k.record event) := rfl

@[simp] theorem run_pendContextSwitch (k : Kernel τ ι) :
    pendContextSwitchCode.run k = some ((), rtosPortPendContextSwitch k) := rfl

theorem run_lookAt {α : Type} {f : Kernel τ ι → Option α} {a : α} (h : f k = some a) :
    (lookAt f).run k = some (a, k) := by
  simp only [lookAt, run, h]

theorem run_findWaiterStep [DecidableEq ι]
    (waitType : WaitType) (object : ι) (best : Option τ) (candidate : τ)
    (k : Kernel τ ι) : (findWaiterStep waitType object best candidate).run k =
      some (preferWaiter k waitType object best candidate, k) := by
  unfold findWaiterStep preferWaiter
  cases best <;> simp only [run_bind, run_get, Option.bind_some] <;> split <;> try rfl
  simp only [run_bind, run_get, Option.bind_some]
  split <;> rfl

@[simp] theorem run_findWaiter [DecidableEq ι] (waitType : WaitType) (object : ι) (k : Kernel τ ι) :
    (findWaiterCode waitType object).run k =
      some (rtosKernelFindWaiter k waitType object, k) := by
  have hfold : ∀ (tasks : List τ) (best : Option τ),
      (foldOver (findWaiterStep waitType object) best tasks).run k =
        some (tasks.foldl (preferWaiter k waitType object) best, k) := by
    intro tasks
    induction tasks with
    | nil => intro best; rfl
    | cons task tasks ih =>
        intro best
        rw [foldOver, run_bind, run_findWaiterStep]
        exact ih _
  simp only [findWaiterCode, run_bind, run_get, Option.bind_some]
  exact hfold k.tasks none

@[simp] theorem run_wakeTask [DecidableEq τ] (task : τ) (result : Status) (k : Kernel τ ι) :
    (wakeTaskCode task result).run k = some ((), rtosKernelWakeTask k (some task) result) := by
  simp only [wakeTaskCode, rtosKernelWakeTask, run_bind, run_assign, Option.bind_some,
    modifyTask_modifyTask]
  rfl

@[simp] theorem run_maybePreempt (task : Option τ) (k : Kernel τ ι) :
    (maybePreemptCode task).run k = some ((), rtosMaybePreempt k task) := by
  unfold maybePreemptCode rtosMaybePreempt
  simp only [run_bind, run_get, Option.bind_some]
  split <;> rfl

theorem run_blockCurrent [DecidableEq τ]
    (waitType : WaitType) (object : ι) (buffer : Option BufferPtr)
    (timeoutTicks : Word) (k : Kernel τ ι) :
    (blockCurrentCode waitType object buffer timeoutTicks).run k =
      some ((rtosKernelBlockCurrent k waitType object buffer timeoutTicks).2,
        (rtosKernelBlockCurrent k waitType object buffer timeoutTicks).1) := by
  unfold blockCurrentCode rtosKernelBlockCurrent
  simp only [run_bind, run_get, Option.bind_some]
  cases k.currentTask with
  | none => rfl
  | some task =>
      simp only
      split
      · rfl
      · by_cases hforever : timeoutTicks = rtosWaitForever
        · simp [hforever, Kernel.modifyTask, enterWait]
        · simp [hforever, Kernel.modifyTask, enterWait]

/-- The kernel with another column of effective priorities. -/
def priced (k : Kernel τ ι) (f : τ → Nat) : Kernel τ ι :=
  { k with tcb := fun t => { k.tcb t with effectivePriority := f t } }

theorem priced_self (k : Kernel τ ι) : priced k (fun t => (k.tcb t).effectivePriority) = k := rfl

@[simp] theorem priced_tcb (k : Kernel τ ι) (f : τ → Nat) (t : τ) :
    (priced k f).tcb t = { k.tcb t with effectivePriority := f t } := rfl

@[simp] theorem priced_objects (k : Kernel τ ι) (f : τ → Nat) :
    (priced k f).objects = k.objects := rfl

@[simp] theorem blockingOwner_priced (k : Kernel τ ι) (f : τ → Nat) :
    blockingOwner (priced k f) = blockingOwner k := rfl

theorem priced_assign [DecidableEq τ]
    (k : Kernel τ ι) (f : τ → Nat) (task : τ) (g : RtosTask ι → Nat) :
    (priced k f).modifyTask task (fun t => { t with effectivePriority := g t }) =
      priced k (Function.update f task (g ((priced k f).tcb task))) := by
  simp only [priced, Kernel.modifyTask]
  congr 1
  funext t
  rcases eq_or_ne t task with rfl | hne
  · simp
  · simp [hne]

theorem run_both {left right : KernelCode τ ι Bool} {a b : Bool}
    (hleft : left.run k = some (a, k)) (hright : right.run k = some (b, k)) :
    (both left right).run k = some (a && b, k) := by
  rw [both, run_bind, hleft, Option.bind_some]
  cases a with
  | true => exact hright
  | false => rfl

/-- The owner that the loads of the inner loop find. -/
theorem run_relaxStep [DecidableEq τ] (changed : Bool) (waiter : τ) (k : Kernel τ ι) (f : τ → Nat) :
    (relaxStep changed waiter).run (priced k f) =
      some ((relax (blockingOwner k) (f, changed) waiter).2,
        priced k (relax (blockingOwner k) (f, changed) waiter).1) := by
  have hguard : (both (get fun k => decide ((k.tcb waiter).state = .blocked))
      (get fun k => decide ((k.tcb waiter).waitType = .mutex))).run (priced k f) =
        some (decide ((k.tcb waiter).state = .blocked) &&
          decide ((k.tcb waiter).waitType = .mutex), priced k f) := run_both rfl rfl
  unfold relaxStep relax blockingOwner
  simp only [run_bind, hguard, run_get, Option.bind_some, run_ite, priced_tcb,
    Bool.and_eq_true, decide_eq_true_eq]
  by_cases hwaits : (k.tcb waiter).state = .blocked ∧ (k.tcb waiter).waitType = .mutex
  · rw [if_pos hwaits, if_pos hwaits]
    cases hobject : (k.tcb waiter).waitObject with
    | none => rfl
    | some mutex =>
        have hlook : ∀ owner, (k.objects mutex).owner? = some owner →
            (lookAt fun k => (k.objects mutex).owner?).run (priced k f) =
              some (owner, priced k f) := fun owner howner => run_lookAt howner
        simp only [run_bind, run_get, Option.bind_some, priced_objects]
        cases howner : (k.objects mutex).owner? with
        | none => rfl
        | some owner =>
            simp only [run_bind, hlook owner howner, run_get, Option.bind_some, run_ite,
              run_assign, run_pure, priced_tcb]
            split
            · rw [priced_assign]
            · rfl
  · rw [if_neg hwaits, if_neg hwaits]
    rfl

theorem run_relaxPass [DecidableEq τ]
    (tasks : List τ) (changed : Bool) (k : Kernel τ ι) (f : τ → Nat) :
    (foldOver relaxStep changed tasks).run (priced k f) =
      some ((tasks.foldl (relax (blockingOwner k)) (f, changed)).2,
        priced k (tasks.foldl (relax (blockingOwner k)) (f, changed)).1) := by
  induction tasks generalizing changed f with
  | nil => rfl
  | cons task tasks ih =>
      rw [foldOver, run_bind, run_relaxStep]
      exact ih _ _

theorem run_relaxPasses [DecidableEq τ] (tasks : List τ) (n : Nat) (k : Kernel τ ι) (f : τ → Nat) :
    (relaxPasses tasks n).run (priced k f) =
      some ((), priced k (passes (blockingOwner k) tasks n f)) := by
  induction n generalizing f with
  | zero => rfl
  | succ n ih =>
      simp only [relaxPasses, passes, InheritanceRelaxation.pass, run_bind, run_relaxPass,
        Option.bind_some, run_ite, ih, run_pure]
      split <;> simp_all

theorem run_resetPriorities [DecidableEq τ] (tasks : List τ) (k : Kernel τ ι) (f : τ → Nat) :
    (forEach resetStep tasks).run (priced k f) =
      some ((), priced k fun t => if t ∈ tasks then (k.tcb t).basePriority else f t) := by
  induction tasks generalizing f with
  | nil => simp [forEach]
  | cons task tasks ih =>
      have hreset : (resetStep task).run (priced k f) =
          some ((), priced k (Function.update f task (k.tcb task).basePriority)) := by
        rw [resetStep, run_bind, run_get, Option.bind_some, run_assign, priced_assign]
        rfl
      rw [forEach, run_bind, hreset, Option.bind_some, ih]
      congr 3
      funext t
      rcases eq_or_ne t task with rfl | hne
      · simp
      · simp [hne]

@[simp] theorem run_recomputePriorities [DecidableEq τ] (k : Kernel τ ι) :
    recomputePrioritiesCode.run k = some ((), rtosKernelRecomputePriorities k) := by
  have hreset := run_resetPriorities k.tasks k fun t => (k.tcb t).effectivePriority
  rw [priced_self] at hreset
  simp only [recomputePrioritiesCode, run_bind, run_get, Option.bind_some, hreset,
    run_relaxPasses]
  rfl

/-- The cursor of a level moved on to the task found there. -/
def setCursor (k : Kernel τ ι) (priority index : Nat) : Kernel τ ι :=
  { k with rrCursor := Function.update k.rrCursor priority (BitVec.ofNat 8 index) }

theorem run_selectAt (priority index : Nat) (k : Kernel τ ι) :
    (selectAt priority k.tasks index).run k =
      some ((k.tasks[index]?).filter (runsAt k priority),
        if ((k.tasks[index]?).filter (runsAt k priority)).isSome then setCursor k priority index
        else k) := by
  unfold selectAt
  cases k.tasks[index]? with
  | none => rfl
  | some task =>
      simp only [run_bind, run_get, Option.bind_some, run_ite, run_modify, run_pure]
      by_cases hruns : runsAt k priority task = true
      · simp [hruns, setCursor, Option.filter_some]
      · simp [hruns, Option.filter_some]

theorem run_scanLevel (priority : Nat) (k : Kernel τ ι) :
    (firstOf (selectAt priority k.tasks) ((List.range k.tasks.length).map fun offset =>
      ((k.rrCursor priority).toNat + (offset + 1)) % k.tasks.length)).run k =
        some (match scanLevel k priority with
          | some index => (k.tasks[index]?, setCursor k priority index)
          | none => (none, k)) := by
  rw [run_firstOf fun index => run_selectAt priority index k]
  have hscan : scanLevel k priority = ((List.range k.tasks.length).map fun offset =>
      ((k.rrCursor priority).toNat + (offset + 1)) % k.tasks.length).find? fun index =>
        ((k.tasks[index]?).filter (runsAt k priority)).isSome := by
    simp only [Option.isSome_filter]
    rfl
  rw [← hscan]
  cases hfound : scanLevel k priority with
  | none => rfl
  | some index =>
      rw [hscan] at hfound
      have hany := List.find?_some hfound
      obtain ⟨task, htask⟩ := Option.isSome_iff_exists.mp hany
      have hself := htask.trans (Option.filter_eq_some_iff.mp htask).1.symm
      simp only [hself]

theorem run_selectNext (k : Kernel τ ι) :
    selectNextCode.run k = some ((rtosSelectNext k).2, (rtosSelectNext k).1) := by
  have hlevels : ∀ levels : List Nat, (firstOf (fun priority => do
      let start ← get fun k => k.rrCursor priority
      firstOf (selectAt priority k.tasks) ((List.range k.tasks.length).map fun offset =>
        (start.toNat + (offset + 1)) % k.tasks.length)) levels).run k =
      some ((levels.findSome? fun priority =>
          (scanLevel k priority).map fun index => (priority, index)).elim (none, k) fun found =>
        (k.tasks[found.2]?, setCursor k found.1 found.2)) := by
    intro levels
    induction levels with
    | nil => rfl
    | cons priority levels ih =>
        rw [firstOf]
        simp only [run_bind, run_get, Option.bind_some, run_scanLevel, List.findSome?_cons]
        cases hscan : scanLevel k priority with
        | none => exact ih
        | some index =>
            have hany := List.find?_some hscan
            obtain ⟨task, htask, _⟩ := (Option.any_eq_true _ _).mp hany
            simp [htask]
  unfold selectNextCode rtosSelectNext
  simp only [run_bind, run_get, Option.bind_some, hlevels]
  cases (List.range rtosPriorityLevels).reverse.findSome? fun priority =>
      (scanLevel k priority).map fun index => (priority, index) with
  | none => rfl
  | some found => rfl

variable [DecidableEq τ]

theorem run_yieldCurrent {k : Kernel τ ι} {current : Option τ}
    (hcurrent : k.currentTask = current) :
    (yieldCurrentCode current).run { k with pended := false } = some ((), switchedOut k) := by
  cases current with
  | none =>
      rw [← switchedOut_none hcurrent]
      rfl
  | some current =>
      rw [← switchedOut_some hcurrent]
      simp only [yieldCurrentCode, run_bind, run_get, Option.bind_some, run_ite, run_assign,
        run_pure]
      split <;> rfl

theorem run_dispatch (k : Kernel τ ι) :
    (dispatchCode.run k : Option (Unit × Kernel τ ι)) = (match rtosSelectNext k with
      | (_, none) => none
      | (k, some next) => some ((), { k.modifyTask next fun t => { t with state := .running } with
          currentTask := some next })) := by
  rw [dispatchCode, run_bind, run_selectNext, Option.bind_some]
  obtain ⟨k', next⟩ := rtosSelectNext k
  cases next with
  | none => rfl
  | some next => rfl

/-- The handler's C function in one go; a fault has no next state. -/
theorem run_schedule (stackValid : Bool) (k : Kernel τ ι) :
    (scheduleCode stackValid).run k = (match rtosScheduleFromPendsv k stackValid with
      | .error _ => none
      | .ok k' => some ((), k')) := by
  rw [schedule_eq]
  unfold scheduleCode
  simp only [run_bind, run_get, run_modify, Option.bind_some, run_ite, run_yieldCurrent rfl,
    run_dispatch]
  split
  · rfl
  · obtain ⟨k', next⟩ := rtosSelectNext (switchedOut k)
    cases next <;> rfl

end Stm32f411.KernelMeaning
