import Mathlib.Data.Set.Lattice
import Mathlib.Order.CompletePartialOrder
import Mathlib.Order.Interval.Set.Basic
import Stm32f411.RtosSystem
import Stm32f411.TaskStacks

/-!
The task table over every sequence of `rtos_init` and `rtos_task_create_static` calls: it
stays in order as long as no stack reaches the end of the 32-bit addresses, where the overlap
test wraps, and no new task's storage is memory of the registry.
-/

namespace Stm32f411.TaskRegistry

open Stm32f411.BitMasks
open Stm32f411.LabelledRuns
open Stm32f411.RtosTypes
open Stm32f411.RtosKernel
open Stm32f411.RtosBootSpec
open Stm32f411.RtosSystem (demoPlatform demoReset)
open Stm32f411.WordBlocks
open Stm32f411.TaskStacks

variable {τ ι : Type}

section Calls

variable [DecidableEq τ]

/-- The stack of a call that passes the checks ends below `2 ^ 32`, and its storage is memory
of its own. -/
def StorageFits (B : Board τ) (k : Kernel τ ι) : BootCall τ → Prop
  | .taskCreateStatic (some task) function _ stack stackWords priority =>
      Passes B.toPlatform k task function stack stackWords priority →
        stack.toNat + 4 * stackWords.toNat < 2 ^ 32 ∧ Separate B k task stack stackWords
  | _ => True

/-- `rtos_task_add` with its stack: what it checked, and what it did. -/
structure Registered (P : Platform τ) (k : Kernel τ ι) (task : τ) (stack stackWords : Word)
    (k' : Kernel τ ι) : Prop where
  room : k.tasks.length ≤ P.maxTasks
  new : ∀ existing ∈ k.tasks, existing ≠ task ∧
    stacksOverlap stack stackWords (k.tcb existing).stackBase (k.tcb existing).stackWords = false
  rest : ∃ t : RtosTask ι, (t.stackBase = stack ∧ t.stackWords = stackWords ∧
    t.stackPointer = (rtosStackInitialize t).stackPointer ∧
      t.excReturn = rtosExcReturnThreadPsp) ∧
    k' = { k with tcb := Function.update k.tcb task t, tasks := k.tasks ++ [task] }

theorem taskAdd_ok {P : Platform τ} {k k' : Kernel τ ι} {task : Option τ}
    {function argument stack stackWords : Word} {priority : Nat}
    (h : rtosTaskAdd P k task function argument stack stackWords priority = (k', .ok)) :
    ∃ t, task = some t ∧ Acceptable function stack stackWords priority ∧
      Registered P k t stack stackWords k' := by
  unfold rtosTaskAdd at h
  split at h
  · simp at h
  · next task =>
      split at h
      · simp at h
      · next hargs =>
          split at h
          · simp at h
          · next hroom =>
              split at h
              · simp at h
              · next hnew =>
                  simp only [not_or, ne_eq, not_not, not_le] at hargs
                  obtain ⟨hfunction, hstack, hwords, haligned, heven, hpriority⟩ := hargs
                  refine ⟨task, rfl, ⟨hfunction, hstack, hwords, haligned, heven, hpriority⟩, ?_⟩
                  refine ⟨by omega, fun existing hexisting => ?_,
                    _, ⟨rfl, rfl, rfl, rfl⟩, (Prod.mk.inj h).1.symm⟩
                  have hno : ¬(existing = task ∨ stacksOverlap stack stackWords
                      (k.tcb existing).stackBase (k.tcb existing).stackWords = true) :=
                    fun hyes => hnew
                      (List.any_eq_true.mpr ⟨existing, hexisting, by simpa using hyes⟩)
                  exact ⟨fun h => hno (Or.inl h), Bool.eq_false_iff.mpr fun h => hno (Or.inr h)⟩

/-- What a start-up call does to the kernel. -/
inductive BootEffect (P : Platform τ) (k : Kernel τ ι) :
    BootCall τ → Kernel τ ι × Status → Prop
  | refused {call : BootCall τ} {status : Status} :
      status ≠ .ok → BootEffect P k call (k, status)
  | booted {config : Option Config} {cleared k' : Kernel τ ι} :
      k.running = false → cleared.tasks = [] → cleared.applicationTaskCount = 0 →
      cleared.running = false → cleared.currentTask = none →
      Registered P cleared P.idle P.idleStack rtosIdleStackWords k' →
      BootEffect P k (.init config) ({ k' with initialized := true }, .ok)
  | created {task : τ} {function argument stack stackWords : Word} {priority : Nat}
      {k' : Kernel τ ι} :
      Passes P k task function stack stackWords priority →
      Registered P k task stack stackWords k' →
      BootEffect P k (.taskCreateStatic (some task) function argument stack stackWords priority)
        ({ k' with applicationTaskCount := k'.applicationTaskCount + 1 }, .ok)

theorem init_effect (B : Board τ) (k : Kernel τ ι) (config : Option Config) :
    BootEffect B.toPlatform k (.init config) (rtosInit B.toPlatform k config) := by
  unfold rtosInit
  split
  · exact .refused (by decide)
  · next config =>
      split
      · exact .refused (by decide)
      · split
        · exact .refused (by decide)
        · next hrunning =>
            dsimp only
            obtain ⟨k', hk', -⟩ := taskAdd_idle B.toPlatform (k := { k with
              tasks := []
              applicationTaskCount := 0
              waitSequence := 0
              currentTask := none
              rrCursor := fun _ => 0
              config := config
              maxSyscallPriorityMask :=
                BitVec.ofNat 32 config.maxSyscallIrqPriority <<< 4 }) rfl
            obtain ⟨t, ht, -, hregistered⟩ := taskAdd_ok hk'
            obtain rfl := Option.some.inj ht
            rw [hk', if_neg (not_not.mpr rfl)]
            refine .booted (Bool.eq_false_iff.mpr hrunning) ?_ ?_ ?_ ?_ hregistered
            · rfl
            · rfl
            · exact Bool.eq_false_iff.mpr hrunning
            · rfl

theorem create_effect (B : Board τ) (k : Kernel τ ι) (task : Option τ)
    (function argument stack stackWords : Word) (priority : Nat) :
    BootEffect B.toPlatform k
      (.taskCreateStatic task function argument stack stackWords priority)
      (rtosTaskCreateStatic B.toPlatform k task function argument stack stackWords priority) := by
  unfold rtosTaskCreateStatic
  split
  · exact .refused (by decide)
  · next hstate =>
      split
      · split
        · exact .refused (by decide)
        · exact .refused (by decide)
      · next hlimit =>
          rw [not_or] at hstate hlimit
          dsimp only
          rcases taskAdd_cases B.toPlatform k task function argument stack stackWords priority with
            ⟨result, hresult, hfail⟩ | ⟨t, k', -, hk', -⟩
          · rw [hresult, if_neg hfail]
            exact .refused hfail
          · obtain ⟨t, rfl, hacceptable, hregistered⟩ := taskAdd_ok hk'
            rw [hk', if_pos rfl]
            exact .created ⟨by simpa using hstate.1, by simpa using hstate.2, hlimit.1,
              Nat.lt_of_not_le hlimit.2, hacceptable, hregistered.room, hregistered.new⟩
              hregistered

theorem bootKernel_effect (B : Board τ) (k : Kernel τ ι) (call : BootCall τ) :
    BootEffect B.toPlatform k call (bootKernel B k call) := by
  cases call with
  | init config => exact init_effect B k config
  | taskCreateStatic task function argument stack stackWords priority =>
      exact create_effect B k task function argument stack stackWords priority

end Calls

section Registry

/-- The true addresses of a stack. -/
def stackAddresses (t : RtosTask ι) : Set ℕ :=
  Set.Ico t.stackBase.toNat (stackEnd t)

/-- The task table is in order. -/
structure Intact (B : Board τ) (k : Kernel τ ι) : Prop where
  stopped : k.running = false
  nodup : (k.tasks.map B.tcbAddress).Nodup
  shape : ∀ t ∈ k.tasks, StackShape (k.tcb t)
  apart : k.tasks.Pairwise fun t u => Disjoint (stackAddresses (k.tcb t)) (stackAddresses (k.tcb u))
  table : k.initialized = true → ∃ applications, k.tasks = B.idle :: applications ∧
    applications.length = k.applicationTaskCount ∧ k.applicationTaskCount ≤ B.maxTasks

variable {B : Board τ} {k k' : Kernel τ ι} {task : τ} {stack stackWords : Word}

/-- Between two stacks that fit, the overlap test of the code is right. -/
theorem disjoint_of_not_overlap {t u : RtosTask ι} (ht : StackShape t) (hu : StackShape u)
    (h : stacksOverlap t.stackBase t.stackWords u.stackBase u.stackWords = false) :
    Disjoint (stackAddresses t) (stackAddresses u) := by
  simp only [stacksOverlap, Bool.and_eq_false_iff, decide_eq_false_iff_not, BitVec.lt_def,
    ht.toNat_end, hu.toNat_end, not_lt] at h
  rw [Set.disjoint_left]
  intro a hta hua
  have hta' := Set.mem_Ico.mp hta
  have hua' := Set.mem_Ico.mp hua
  omega

theorem shape_of_acceptable {t : RtosTask ι} {function : Word} {priority : Nat}
    (h : Acceptable function stack stackWords priority) (hbase : t.stackBase = stack)
    (hwords : t.stackWords = stackWords) (hfits : stack.toNat + 4 * stackWords.toNat < 2 ^ 32) :
    StackShape t := by
  subst hbase
  subst hwords
  have heven : t.stackWords &&& 1 = 0 ↔ t.stackWords.toNat % 2 = 0 :=
    aligned_iff (n := 1) (by decide)
  exact ⟨h.stack_ne, aligned_eight.mp h.aligned, Nat.not_lt.mp h.words, heven.mp h.even, hfits⟩

theorem shape_of_idle {t : RtosTask ι} (hbase : t.stackBase = B.idleStack)
    (hwords : t.stackWords = rtosIdleStackWords) : StackShape t := by
  refine ⟨?_, ?_, ?_, ?_, ?_⟩
  · rw [hbase]
    exact B.idleStack_ne
  · rw [hbase]
    exact aligned_eight.mp B.idleStack_aligned
  · rw [hwords]
    decide
  · rw [hwords]
    decide
  · rw [stackEnd, hbase, hwords]
    exact B.idleStack_fits

/-- A registration keeps the stacks apart, provided that all of them fit. -/
theorem Registered.apart [DecidableEq τ] (h : Registered B.toPlatform k task stack stackWords k')
    (hnodup : (k.tasks.map B.tcbAddress).Nodup)
    (htcb : ∀ t ∈ k.tasks, B.tcbAddress t ≠ B.tcbAddress task)
    (hshape : ∀ t ∈ k.tasks, StackShape (k.tcb t))
    (hapart : k.tasks.Pairwise fun t u =>
      Disjoint (stackAddresses (k.tcb t)) (stackAddresses (k.tcb u)))
    (hnew : ∀ t : RtosTask ι, t.stackBase = stack → t.stackWords = stackWords → StackShape t) :
    (k'.tasks.map B.tcbAddress).Nodup ∧ (∀ t ∈ k'.tasks, StackShape (k'.tcb t)) ∧
      k'.tasks.Pairwise fun t u =>
        Disjoint (stackAddresses (k'.tcb t)) (stackAddresses (k'.tcb u)) := by
  obtain ⟨tcb, ⟨hbase, hwords, -, -⟩, rfl⟩ := h.rest
  have hother : ∀ t ∈ k.tasks, Function.update k.tcb task tcb t = k.tcb t := fun t ht =>
    Function.update_of_ne (h.new t ht).1 ..
  have hself := hnew tcb hbase hwords
  refine ⟨?_, fun t ht => ?_, ?_⟩
  · rw [List.map_append]
    refine List.nodup_append.mpr ⟨hnodup, List.nodup_singleton _, fun a ha b hb => ?_⟩
    obtain ⟨t, ht, rfl⟩ := List.mem_map.mp ha
    exact (htcb t ht).trans_eq (List.mem_singleton.mp hb).symm
  · rcases List.mem_append.mp ht with hold | hlast
    · dsimp only
      rw [hother t hold]
      exact hshape t hold
    · obtain rfl := List.mem_singleton.mp hlast
      dsimp only
      rw [Function.update_self]
      exact hself
  · rw [List.pairwise_append]
    refine ⟨?_, List.pairwise_singleton .., fun t ht u hu => ?_⟩
    · refine hapart.imp_of_mem fun ht hu hdisjoint => ?_
      dsimp only
      rwa [hother _ ht, hother _ hu]
    · obtain rfl := List.mem_singleton.mp hu
      dsimp only
      rw [hother t ht, Function.update_self]
      refine (disjoint_of_not_overlap hself (hshape t ht) ?_).symm
      rw [hbase, hwords]
      exact (h.new t ht).2

theorem meets_self {b : Block} (h : 0 < b.bytes) : b.Meets b := by
  left
  rw [BitVec.sub_self]
  exact h

theorem tcb_ne_of_separate (h : Separate B k task stack stackWords) {t : τ}
    (ht : t ∈ k.tasks) : B.tcbAddress t ≠ B.tcbAddress task := by
  intro heq
  have hmeets : (B.tcbBlock task).Meets (B.tcbBlock t) := by
    rw [Board.tcbBlock, Board.tcbBlock, heq]
    exact meets_self (show 0 < rtosTaskBytes by decide)
  exact h.tcb _ (List.mem_append_right _ (List.mem_map_of_mem ht)) hmeets

variable [DecidableEq τ]

theorem Intact.step {call : BootCall τ} (h : Intact B k) (hfits : StorageFits B k call) :
    Intact B (bootKernel B k call).1 := by
  have heffect := bootKernel_effect B k call
  generalize bootKernel B k call = result at heffect
  cases heffect with
  | refused _ => exact h
  | @booted config cleared k' _ hempty hcount hstopped _ hregistered =>
      have hnone : ∀ t, t ∉ cleared.tasks := fun t ht => by simp [hempty] at ht
      have happly := hregistered.apart (by simp [hempty]) (fun t ht => absurd ht (hnone t))
        (fun t ht => absurd ht (hnone t)) (by simp [hempty])
        fun t hbase hwords => shape_of_idle hbase hwords
      obtain ⟨tcb, -, rfl⟩ := hregistered.rest
      refine ⟨hstopped, happly.1, happly.2.1, happly.2.2, fun _ => ⟨[], ?_, ?_, ?_⟩⟩
      · simp [hempty]
      · simp [hcount]
      · simp [hcount]
  | @created task function argument stack stackWords priority k' hpasses hregistered =>
      obtain ⟨hend, hseparate⟩ := hfits hpasses
      have happly := hregistered.apart h.nodup (fun _ ht => tcb_ne_of_separate hseparate ht)
        h.shape h.apart fun t hbase hwords =>
          shape_of_acceptable hpasses.arguments hbase hwords hend
      obtain ⟨applications, htasks, hlength, -⟩ := h.table hpasses.initialized
      obtain ⟨tcb, -, rfl⟩ := hregistered.rest
      refine ⟨h.stopped, happly.1, happly.2.1, happly.2.2, fun _ =>
        ⟨applications ++ [task], ?_, ?_, hpasses.count⟩⟩
      · simp [htasks]
      · simp [hlength]

end Registry

variable [DecidableEq τ]

section Runs

variable {B : Board τ} {m m' : Machine τ ι} {call : BootCall τ} {result : Status}

/-- A start-up call with its result. There is memory behind every address; a call that
overwrites the registry may do anything. -/
inductive BootStep (B : Board τ) (m : Machine τ ι) :
    BootCall τ × Status → Machine τ ι → Prop
  | returned {call : BootCall τ} {result : Status} {m' : Machine τ ι} :
      ¬Overwrites B m.kernel call → bootCall B m call = (m', result) →
      BootStep B m (call, result) m'
  | overwritten {call : BootCall τ} {result : Status} {m' : Machine τ ι} :
      Overwrites B m.kernel call → BootStep B m (call, result) m'

/-- The condition on a step, which looks at the call and the state before it. -/
def FittingStep (B : Board τ) (m : Machine τ ι) (event : BootCall τ × Status)
    (m' : Machine τ ι) : Prop :=
  BootStep B m event m' ∧ StorageFits B m.kernel event.1

/-- Before the first `rtos_init`. -/
structure Unused (k : Kernel τ ι) : Prop where
  tasks : k.tasks = []
  initialized : k.initialized = false
  running : k.running = false

/-- The tasks registered by successful calls since the last successful `rtos_init`. -/
def registeredTasks (B : Board τ) (tasks : List τ) : BootCall τ × Status → List τ
  | (.init _, .ok) => [B.idle]
  | (.taskCreateStatic (some task) _ _ _ _ _, .ok) => tasks ++ [task]
  | _ => tasks

theorem FittingStep.returns (h : FittingStep B m (call, result) m') :
    bootCall B m call = (m', result) := by
  obtain ⟨hstep, hfits⟩ := h
  cases hstep with
  | returned _ hcall => exact hcall
  | overwritten hover =>
      unfold Overwrites at hover
      split at hover
      · exact absurd (hfits hover.1).2 hover.2
      · exact hover.elim

theorem boot_kernel (h : bootCall B m call = (m', result)) :
    bootKernel B m.kernel call = (m'.kernel, result) := by
  obtain ⟨hmachine, hresult⟩ := Prod.mk.inj h
  exact Prod.ext (congrArg Machine.kernel hmachine) hresult

theorem boot_ram (h : bootCall B m call = (m', result)) :
    m'.ram = ramAfterAdd B m.ram (call.task B) (m'.kernel, result) := by
  have hmachine := congrArg Machine.ram (Prod.mk.inj h).1
  rw [← boot_kernel h]
  exact hmachine.symm

/-- A call that fails changes nothing. -/
theorem boot_refused (h : bootCall B m call = (m', result)) (hfail : result ≠ .ok) :
    m' = m := by
  have heffect := bootKernel_effect B m.kernel call
  have hram := boot_ram h
  rw [boot_kernel h] at heffect
  have hkernel : m'.kernel = m.kernel := by
    generalize m'.kernel = k' at heffect
    cases heffect with
    | refused _ => rfl
    | booted _ _ _ _ _ _ => exact absurd rfl hfail
    | created _ _ => exact absurd rfl hfail
  calc m' = ⟨m'.kernel, m'.ram⟩ := rfl
    _ = m := by rw [hram, ramAfterAdd_failed B _ _ _ hfail, hkernel]

/-- The task that a successful call registered, with the stack it was given. -/
theorem boot_fresh (h : bootCall B m call = (m', result)) (hok : result = .ok) :
    ∃ task, call.task B = some task ∧ task ∈ m'.kernel.tasks ∧
      (m'.kernel.tcb task).stackPointer =
        (rtosStackInitialize (m'.kernel.tcb task)).stackPointer ∧
      m'.ram = (rtosStackInitializeRam B task (m'.kernel.tcb task) m.ram).1 := by
  have heffect := bootKernel_effect B m.kernel call
  have hram := boot_ram h
  rw [boot_kernel h] at heffect
  subst hok
  generalize m'.kernel = k' at heffect hram ⊢
  cases heffect with
  | refused hfail => exact absurd rfl hfail
  | booted _ _ _ _ _ hregistered =>
      obtain ⟨tcb, ⟨_, _, hpointer, _⟩, rfl⟩ := hregistered.rest
      refine ⟨B.idle, rfl, ?_, ?_, hram⟩
      · exact List.mem_append_right _ (List.mem_singleton_self _)
      · simpa using hpointer
  | @created task _ _ _ _ _ _ _ hregistered =>
      obtain ⟨tcb, ⟨_, _, hpointer, _⟩, rfl⟩ := hregistered.rest
      refine ⟨task, rfl, ?_, ?_, hram⟩
      · exact List.mem_append_right _ (List.mem_singleton_self _)
      · simpa using hpointer

theorem boot_valid (h : bootCall B m call = (m', result))
    (hintact : Intact B m'.kernel) (hok : result = .ok) :
    rtosTaskStackValid m'.ram m'.kernel (call.task B) = true := by
  obtain ⟨task, htask, hmem, hpointer, hram⟩ := boot_fresh h hok
  have hshape := hintact.shape task hmem
  rw [htask]
  refine hshape.valid hpointer ?_
  rw [hram]
  exact hshape.canary

theorem boot_tasks (h : bootCall B m call = (m', result)) :
    m'.kernel.tasks = registeredTasks B m.kernel.tasks (call, result) := by
  have heffect := bootKernel_effect B m.kernel call
  rw [boot_kernel h] at heffect
  generalize m'.kernel = k' at heffect ⊢
  cases heffect with
  | refused hfail =>
      unfold registeredTasks
      split
      · next heq => exact absurd (Prod.mk.inj heq).2 hfail
      · next heq => exact absurd (Prod.mk.inj heq).2 hfail
      · rfl
  | booted _ hempty _ _ _ hregistered =>
      obtain ⟨_, _, rfl⟩ := hregistered.rest
      simp [registeredTasks, hempty]
  | created _ hregistered =>
      obtain ⟨_, _, rfl⟩ := hregistered.rest
      rfl

omit [DecidableEq τ] in
theorem intact_of_unused {k : Kernel τ ι} (h : Unused k) : Intact B k where
  stopped := h.running
  nodup := by simp [h.tasks]
  shape t ht := by simp [h.tasks] at ht
  apart := by simp [h.tasks]
  table hinit := by simp [h.initialized] at hinit

theorem run_intact {m₀ : Machine τ ι} {events : List (BootCall τ × Status)}
    (hunused : Unused m₀.kernel) (hrun : Run (FittingStep B) m₀ events m) :
    Intact B m.kernel ∧ m.kernel.tasks = events.foldl (registeredTasks B) [] := by
  induction hrun with
  | nil => exact ⟨intact_of_unused hunused, hunused.tasks⟩
  | @snoc events m₁ m₂ event _ hlast ih =>
      obtain ⟨call, result⟩ := event
      obtain ⟨hintact, htasks⟩ := ih
      constructor
      · have hstep := hintact.step hlast.2
        rwa [boot_kernel hlast.returns] at hstep
      · rw [boot_tasks hlast.returns, htasks, List.foldl_append]
        rfl

/-- As long as every stack ends below `2 ^ 32` and storage is not shared, each call leaves the
registry in order. -/
theorem registry_integrity (B : Board τ) {m₀ m m' : Machine τ ι}
    {events : List (BootCall τ × Status)} {call : BootCall τ} {result : Status}
    (hunused : Unused m₀.kernel) (hrun : Run (FittingStep B) m₀ events m)
    (hstep : FittingStep B m (call, result) m') :
    (m'.kernel.tasks.map B.tcbAddress).Nodup ∧
      (m'.kernel.tasks.Pairwise fun t u => Disjoint (stackAddresses (m'.kernel.tcb t))
        (stackAddresses (m'.kernel.tcb u))) ∧
      (result = .ok → rtosTaskStackValid m'.ram m'.kernel (call.task B) = true) ∧
      m'.kernel.tasks = (events ++ [(call, result)]).foldl (registeredTasks B) [] ∧
      (m'.kernel.initialized = true → ∃ applications, m'.kernel.tasks = B.idle :: applications ∧
        applications.length = m'.kernel.applicationTaskCount ∧
          m'.kernel.applicationTaskCount ≤ B.maxTasks) ∧
      (result ≠ .ok → m' = m) := by
  obtain ⟨hintact, htasks⟩ := run_intact hunused (hrun.snoc hstep)
  have hcall := hstep.returns
  exact ⟨hintact.nodup, hintact.apart, boot_valid hcall hintact, htasks, hintact.table,
    boot_refused hcall⟩

end Runs

section Wrapped

/-- The idle task's stack lies at `0x20002000`, below it the variables of the kernel, the main
stack and the TCBs. -/
def demoBoard : Board Nat where
  idle := 0
  idleEntry := 0x08000101
  idleStack := 0x20002000
  maxTasks := 8
  idleEntry_ne := demoPlatform.idleEntry_ne
  idleStack_ne := by decide
  idleStack_aligned := by decide
  tcbAddress := fun task => 0x20001000 + BitVec.ofNat 32 (64 * (task % 9))
  tcbAddress_ne := by
    intro task
    have hlt : task % 9 < 9 := Nat.mod_lt _ (by decide)
    bv_omega
  reserved := [⟨0x20001800, 0x400⟩, ⟨0x20001C00, 0x400⟩]
  trampoline := 0x08000301
  idleStack_fits := by decide

def demoStart : Machine Nat Nat where
  kernel := demoReset.toKernel
  ram := fun _ => 0

theorem demoStart_unused : Unused demoStart.kernel :=
  ⟨rfl, rfl, rfl⟩

def demoInit : BootCall Nat :=
  .init (some ⟨1000, 5⟩)

def demoCreate (task : Nat) (stack stackWords : Word) : BootCall Nat :=
  .taskCreateStatic (some task) 0x08000201 0 stack stackWords 2

def demoBooted : Machine Nat Nat :=
  (bootCall demoBoard demoStart demoInit).1

def demoCreated (stack stackWords : Word) : Machine Nat Nat :=
  (bootCall demoBoard demoBooted (demoCreate 1 stack stackWords)).1

theorem demoBooted_step : FittingStep demoBoard demoStart (demoInit, .ok) demoBooted :=
  ⟨.returned (fun h => h) (Prod.ext rfl (by decide)), trivial⟩

theorem demo_separate {stack stackWords : Word}
    (hstack : ∀ block ∈ demoBoard.tcbBlock 1 :: registryBlocks demoBoard demoBooted.kernel,
      ¬(stackBlock stack stackWords).Meets block) :
    Separate demoBoard demoBooted.kernel 1 stack stackWords :=
  ⟨hstack, by decide⟩

/-- The stack of `0x37FFF7C0` words at `0x20002100` ends at `2 ^ 32`, which is 0 to the overlap
test. It is accepted although half of the idle stack lies in it. -/
theorem wrapped_stack_accepted :
    Unused demoStart.kernel ∧
      Run (BootStep demoBoard) demoStart
        [(demoInit, .ok), (demoCreate 1 0x20002100 0x37FFF7C0, .ok)]
        (demoCreated 0x20002100 0x37FFF7C0) ∧
      ¬(demoCreated 0x20002100 0x37FFF7C0).kernel.tasks.Pairwise fun t u =>
        Disjoint (stackAddresses ((demoCreated 0x20002100 0x37FFF7C0).kernel.tcb t))
          (stackAddresses ((demoCreated 0x20002100 0x37FFF7C0).kernel.tcb u)) := by
  have hcreated : BootStep demoBoard demoBooted (demoCreate 1 0x20002100 0x37FFF7C0, .ok)
      (demoCreated 0x20002100 0x37FFF7C0) :=
    .returned (fun hover => hover.2 (demo_separate (by decide))) (Prod.ext rfl (by decide))
  refine ⟨demoStart_unused, .cons demoBooted_step.1 (.single hcreated), ?_⟩
  have htasks : (demoCreated 0x20002100 0x37FFF7C0).kernel.tasks = [0, 1] := by decide
  have hidle : (0x20002100 : ℕ) ∈ stackAddresses
      ((demoCreated 0x20002100 0x37FFF7C0).kernel.tcb 0) := Set.mem_Ico.mpr (by decide)
  have hinside : (0x20002100 : ℕ) ∈ stackAddresses
      ((demoCreated 0x20002100 0x37FFF7C0).kernel.tcb 1) := Set.mem_Ico.mpr (by decide)
  rw [htasks]
  intro hapart
  exact Set.disjoint_left.mp (by simpa using hapart) hidle hinside

/-- Any stack that passes the checks and goes on to `2 ^ 32` or beyond fails the check of its
pointer at once. -/
theorem wrapped_stack_invalid {B : Board τ} {m m' : Machine τ ι} {task : τ}
    {function argument stack stackWords : Word} {priority : Nat}
    (hpasses : Passes B.toPlatform m.kernel task function stack stackWords priority)
    (hseparate : Separate B m.kernel task stack stackWords)
    (hend : 2 ^ 32 ≤ stack.toNat + 4 * stackWords.toNat)
    (hcall : bootCall B m (.taskCreateStatic (some task) function argument stack stackWords
      priority) = (m', .ok)) :
    rtosTaskStackValid m'.ram m'.kernel (some task) = false := by
  have hbytes : 4 * stackWords.toNat < 2 ^ 32 := by
    have hself := not_or.mp (hseparate.stack _ List.mem_cons_self)
    exact Nat.lt_of_le_of_lt (Nat.le_of_not_lt hself.1) (BitVec.isLt _)
  have haligned := aligned_eight.mp hpasses.arguments.aligned
  have heffect := bootKernel_effect B m.kernel
    (.taskCreateStatic (some task) function argument stack stackWords priority)
  rw [boot_kernel hcall] at heffect
  generalize m'.kernel = k' at heffect ⊢
  cases heffect with
  | refused hfail => exact absurd rfl hfail
  | created _ hregistered =>
      obtain ⟨t, ⟨rfl, rfl, hpointer, -⟩, rfl⟩ := hregistered.rest
      have hlow : (slot t.stackBase 1).toNat = t.stackBase.toNat + 4 :=
        toNat_slot (by have := t.stackBase.isLt; omega)
      have hhigh : (slot t.stackBase t.stackWords.toNat).toNat =
          t.stackBase.toNat + 4 * t.stackWords.toNat - 2 ^ 32 := by
        rw [slot, BitVec.toNat_add, BitVec.toNat_ofNat]
        omega
      have hsaved : t.stackPointer.toNat =
          (t.stackBase.toNat + 4 * t.stackWords.toNat - 64) % 2 ^ 32 := by
        rw [hpointer, rtosStackInitialize]
        bv_omega
      have hoff : t.stackPointer < slot t.stackBase 1 ∨
          slot t.stackBase t.stackWords.toNat < t.stackPointer := by
        rw [BitVec.lt_def, BitVec.lt_def, hlow, hhigh, hsaved]
        omega
      simp only [rtosTaskStackValid, Function.update_self]
      split
      · rfl
      · exact if_pos (Or.inr (or_assoc.mp (Or.inl hoff)))

theorem registry_integrity_demo :
    ((demoCreated 0x20000000 128).kernel.tasks.map demoBoard.tcbAddress).Nodup ∧
      rtosTaskStackValid (demoCreated 0x20000000 128).ram
        (demoCreated 0x20000000 128).kernel (some 1) = true := by
  have hseparate : Separate demoBoard demoBooted.kernel 1 0x20000000 128 :=
    demo_separate (by decide)
  have hcreated : FittingStep demoBoard demoBooted (demoCreate 1 0x20000000 128, .ok)
      (demoCreated 0x20000000 128) :=
    ⟨.returned (fun hover => hover.2 hseparate) (Prod.ext rfl (by decide)),
      fun _ => ⟨by decide, hseparate⟩⟩
  have hintegrity :=
    registry_integrity demoBoard demoStart_unused (.single demoBooted_step) hcreated
  exact ⟨hintegrity.1, hintegrity.2.2.1 rfl⟩

end Wrapped

end Stm32f411.TaskRegistry
