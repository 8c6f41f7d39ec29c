import Stm32f411.RtosKernelSpec

/-!
What the calls of the start-up code do. Once the kernel runs, all of them fail without
effect, so each has one case in which it acts and that case is before `rtos_start`.
-/

namespace Stm32f411.RtosBootSpec

open Stm32f411.RtosTypes
open Stm32f411.RtosKernel
open Stm32f411.RtosIpc
open Stm32f411.RtosKernelSpec

variable {τ ι : Type} [DecidableEq τ]

/-- A TCB as `rtos_task_add` leaves it. -/
structure Fresh (priority : Nat) (t : RtosTask ι) : Prop where
  state : t.state = .ready
  waitType : t.waitType = .none
  basePriority : t.basePriority = priority
  effectivePriority : t.effectivePriority = priority
  mutexHoldCount : t.mutexHoldCount = 0

/-- The kernel with one more registered task, which was not registered before. -/
structure Added (k : Kernel τ ι) (task : τ) (priority : Nat) (k' : Kernel τ ι) : Prop where
  new : task ∉ k.tasks
  priority_lt : priority < rtosPriorityLevels
  fresh : Fresh priority (k'.tcb task)
  rest : ∃ t, k' = { k with tcb := Function.update k.tcb task t, tasks := k.tasks ++ [task] }

theorem taskAdd_cases (P : Platform τ) (k : Kernel τ ι) (task : Option τ)
    (function argument stack stackWords : Word) (priority : Nat) :
    (∃ result, rtosTaskAdd P k task function argument stack stackWords priority =
        (k, result) ∧ result ≠ .ok) ∨
      ∃ t k', task = some t ∧
        rtosTaskAdd P k task function argument stack stackWords priority = (k', .ok) ∧
        Added k t priority k' := by
  unfold rtosTaskAdd
  split
  · exact Or.inl ⟨_, rfl, by simp⟩
  · next task =>
      split
      · exact Or.inl ⟨_, rfl, by simp⟩
      · next hargs =>
          split
          · exact Or.inl ⟨_, rfl, by simp⟩
          · split
            · exact Or.inl ⟨_, rfl, by simp⟩
            · next hnew =>
                refine Or.inr ⟨task, _, rfl, rfl, ?_, ?_, ?_, _, rfl⟩
                · intro hmem
                  exact hnew (List.any_eq_true.mpr ⟨task, hmem, by simp⟩)
                · simp only [not_or, not_le] at hargs
                  exact hargs.2.2.2.2.2
                · constructor <;> simp [rtosStackInitialize]

/-- The idle task can always be added to an empty table. -/
theorem taskAdd_idle (P : Platform τ) {k : Kernel τ ι} (hempty : k.tasks = []) :
    ∃ k', rtosTaskAdd P k (some P.idle) P.idleEntry 0 P.idleStack rtosIdleStackWords
        rtosIdlePriority = (k', .ok) ∧ Added k P.idle rtosIdlePriority k' := by
  rcases taskAdd_cases P k (some P.idle) P.idleEntry 0 P.idleStack rtosIdleStackWords
      rtosIdlePriority with ⟨result, hresult, hfail⟩ | ⟨t, k', ht, hk', hadd⟩
  · exfalso
    have hwords : ¬rtosIdleStackWords < rtosMinStackWords := by decide
    have heven : ¬rtosIdleStackWords &&& 1 ≠ 0 := by decide
    have hlevel : ¬rtosPriorityLevels ≤ rtosIdlePriority := by decide
    simp only [rtosTaskAdd, P.idleEntry_ne, P.idleStack_ne, P.idleStack_aligned, hwords,
      heven, hlevel, hempty, ne_eq, not_true_eq_false, or_self, if_false,
      List.length_nil, List.any_nil] at hresult
    simp only [Nat.add_one_le_iff, Nat.not_lt_zero, if_false, Bool.false_eq_true,
      Prod.mk.injEq] at hresult
    exact hfail hresult.2.symm
  · obtain rfl : P.idle = t := by simpa using ht
    exact ⟨k', hk', hadd⟩

/-- A successful `rtos_init`: an empty kernel with the idle task. -/
structure Booted (P : Platform τ) (k k' : Kernel τ ι) : Prop where
  stopped : k.running = false
  fresh : Fresh rtosIdlePriority (k'.tcb P.idle)
  rest : ∃ t config mask, k' = { k with
    tcb := Function.update k.tcb P.idle t
    tasks := [P.idle]
    applicationTaskCount := 0
    waitSequence := 0
    currentTask := none
    rrCursor := fun _ => 0
    config := config
    maxSyscallPriorityMask := mask
    initialized := true }

theorem init_cases (P : Platform τ) (k : Kernel τ ι) (config : Option Config) :
    (rtosInit P k config).1 = k ∨ Booted P k (rtosInit P k config).1 := by
  unfold rtosInit
  split
  · exact Or.inl rfl
  · next config =>
      split
      · exact Or.inl rfl
      · split
        · exact Or.inl rfl
        · next hstopped =>
            dsimp only
            obtain ⟨k', hk', hadd⟩ := taskAdd_idle P (k := { k with
              tasks := []
              applicationTaskCount := 0
              waitSequence := 0
              currentTask := none
              rrCursor := fun _ => 0
              config := config
              maxSyscallPriorityMask :=
                BitVec.ofNat 32 config.maxSyscallIrqPriority <<< 4 }) rfl
            rw [hk']
            obtain ⟨t, ht⟩ := hadd.rest
            refine Or.inr ⟨by simpa using hstopped, ?_, t, config,
              BitVec.ofNat 32 config.maxSyscallIrqPriority <<< 4, ?_⟩
            · simpa using hadd.fresh
            · simp [ht]

theorem taskCreate_cases (P : Platform τ) (k : Kernel τ ι) (task : Option τ)
    (function argument stack stackWords : Word) (priority : Nat) :
    (rtosTaskCreateStatic P k task function argument stack stackWords priority).1 = k ∨
      (k.initialized = true ∧ k.running = false ∧ priority ≠ rtosIdlePriority ∧
        ∃ t k', Added k t priority k' ∧
          (rtosTaskCreateStatic P k task function argument stack stackWords priority).1 =
            { k' with applicationTaskCount := k'.applicationTaskCount + 1 }) := by
  unfold rtosTaskCreateStatic
  split
  · exact Or.inl rfl
  · next hstate =>
      split
      · exact Or.inl rfl
      · next hprio =>
          simp only [not_or, Bool.not_eq_false, Bool.not_eq_true] at hstate hprio
          dsimp only
          rcases taskAdd_cases P k task function argument stack stackWords priority with
            ⟨result, hresult, hfail⟩ | ⟨t, k', _, hk', hadd⟩
          · left
            rw [hresult]
            simp [hfail]
          · right
            rw [hk']
            exact ⟨hstate.1, hstate.2, hprio.1, t, k', hadd, by simp⟩

variable [DecidableEq ι]

/-- An object as its init function leaves it, with the arguments it was given. -/
inductive Initialised : Object τ → ObjectInit → Prop
  | semaphore {initialCount maximumCount : Word} :
      maximumCount ≠ 0 → initialCount ≤ maximumCount →
      Initialised (.semaphore ⟨initialCount, maximumCount⟩)
        (.semaphore initialCount maximumCount)
  | mutex : Initialised (.mutex ⟨none⟩) .mutex
  | queue {storage : Nat → Byte} {capacity itemSize : Word} :
      capacity ≠ 0 → itemSize ≠ 0 → capacity ≤ BitVec.allOnes 32 / itemSize →
      Initialised (.queue ⟨storage, capacity, itemSize, 0, 0, 0⟩)
        (.queue capacity itemSize)

/-- An object was put in place before the start, or nothing happened. -/
def ObjectPlaced (k k' : Kernel τ ι) : Prop :=
  k' = k ∨ (k.initialized = true ∧ k.running = false ∧ ∃ p object kind,
    Initialised object kind ∧ k' = (k.setObject p object).record (.initialised p kind))

omit [DecidableEq τ] in
theorem semaphoreInit_cases (k : Kernel τ ι) (semaphore : Option ι)
    (initialCount maximumCount : Word) :
    ObjectPlaced k (rtosSemaphoreInit k semaphore initialCount maximumCount).1 := by
  unfold rtosSemaphoreInit
  split
  · exact Or.inl rfl
  · next p =>
      split
      · exact Or.inl rfl
      · next hargs =>
          split
          · exact Or.inl rfl
          · next hstate =>
              simp only [not_or, Bool.not_eq_false, Bool.not_eq_true] at hstate
              simp only [not_or, BitVec.not_lt] at hargs
              exact Or.inr ⟨hstate.1, hstate.2, p, _, _, .semaphore hargs.1 hargs.2, rfl⟩

omit [DecidableEq τ] in
theorem mutexInit_cases (k : Kernel τ ι) (mutex : Option ι) :
    ObjectPlaced k (rtosMutexInit k mutex).1 := by
  unfold rtosMutexInit
  split
  · exact Or.inl rfl
  · next p =>
      split
      · exact Or.inl rfl
      · next hstate =>
          simp only [not_or, Bool.not_eq_false, Bool.not_eq_true] at hstate
          exact Or.inr ⟨hstate.1, hstate.2, p, _, _, .mutex, rfl⟩

omit [DecidableEq τ] in
theorem queueInit_cases (k : Kernel τ ι) (queue : Option ι)
    (storage : Option (Nat → Byte)) (capacity itemSize : Word) :
    ObjectPlaced k (rtosQueueInit k queue storage capacity itemSize).1 := by
  unfold rtosQueueInit
  split
  · next p storage =>
      split
      · exact Or.inl rfl
      · next hargs =>
          split
          · exact Or.inl rfl
          · next hstate =>
              simp only [not_or, Bool.not_eq_false, Bool.not_eq_true] at hstate
              simp only [not_or, BitVec.not_lt] at hargs
              exact Or.inr ⟨hstate.1, hstate.2, p, _, _,
                .queue hargs.1 hargs.2.1 hargs.2.2.2, rfl⟩
  · exact Or.inl rfl

/-- A successful `rtos_start`: the first task runs. -/
structure Started (k k' : Kernel τ ι) : Prop where
  initialized : k.initialized = true
  stopped : k.running = false
  rest : ∃ first cursor, first ∈ k.tasks ∧ Runnable k first ∧
    (∀ t ∈ k.tasks, Runnable k t → (k.tcb t).effectivePriority < rtosPriorityLevels →
      (k.tcb t).effectivePriority ≤ (k.tcb first).effectivePriority) ∧
    k' = { k with
      tick := 0
      rrCursor := cursor
      tcb := Function.update k.tcb first { k.tcb first with state := .running }
      currentTask := some first
      running := true }

omit [DecidableEq ι] in
theorem start_cases (k : Kernel τ ι) (hookRegistered tickConfigured : Bool) :
    (rtosStart k hookRegistered tickConfigured).1 = k ∨
      (k.running = false ∧ ∃ cursor, (rtosStart k hookRegistered tickConfigured).1 =
        { k with tick := 0, rrCursor := cursor }) ∨
      Started k (rtosStart k hookRegistered tickConfigured).1 := by
  unfold rtosStart
  split
  · exact Or.inl rfl
  · next hstate =>
      split
      · exact Or.inl rfl
      · split
        · exact Or.inl rfl
        · simp only [not_or, Bool.not_eq_false, Bool.not_eq_true] at hstate
          split
          · next k' hnone =>
              refine Or.inr (Or.inl ?_)
              unfold rtosSelectNext at hnone
              split at hnone
              · simp only [Prod.mk.injEq, and_true] at hnone
                exact ⟨hstate.2.1, k.rrCursor, by rw [← hnone]⟩
              · simp only [Prod.mk.injEq] at hnone
                exact ⟨hstate.2.1, _, by rw [← hnone.1]⟩
          · next k' first hsome =>
              obtain ⟨⟨cursor, rfl⟩, hmem, hrun, hmax⟩ := selectNext_eq_some hsome
              exact Or.inr (Or.inr ⟨hstate.1, hstate.2.1, first, cursor, hmem, hrun, hmax, rfl⟩)

end Stm32f411.RtosBootSpec
