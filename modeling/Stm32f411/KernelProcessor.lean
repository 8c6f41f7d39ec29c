import Mathlib.Tactic.DeriveFintype
import Stm32f411.SectionRuns
import Stm32f411.TickCode

/-!
The kernel on a processor with nested handlers: `rtos_port_enter_critical` and
`rtos_port_exit_critical` as moves of BASEPRI, PendSV with its own writes to BASEPRI, and every
section and the SysTick handler cut into statements.
-/

namespace Stm32f411.KernelProcessor

open Stm32f411.StatementPrograms
open Stm32f411.MaskedSections
open Stm32f411.RtosTypes
open Stm32f411.RtosKernel
open Stm32f411.RtosIpc
open Stm32f411.RtosSystem
open Stm32f411.RtosKernelSpec
open Stm32f411.RtosCallSpec
open Stm32f411.SectionCode
open Stm32f411.KernelMeaning
open Stm32f411.CallMeaning
open Stm32f411.TickCode

variable {τ ι : Type}

section Model

variable [DecidableEq τ] [DecidableEq ι]

/-- An interrupt handler: its exception number and the four implemented bits of its
`NVIC->IP` entry. -/
structure Handler where
  exception : Word
  priority : Fin 16
  exception_ne : exception ≠ 0
  deriving DecidableEq

/-- A `max_syscall_irq_priority` that `rtos_init` accepts. -/
structure SyscallPriority where
  priority : Nat
  pos : 0 < priority
  lt : priority < 15

/-- `rtos_max_syscall_priority_mask`. -/
def SyscallPriority.mask (m : SyscallPriority) : Word :=
  BitVec.ofNat 32 m.priority <<< 4

theorem SyscallPriority.mask_shift (m : SyscallPriority) : (m.mask >>> 4).toNat = m.priority := by
  have hlt := m.lt
  simp only [SyscallPriority.mask, BitVec.toNat_ushiftRight, BitVec.toNat_shiftLeft,
    BitVec.toNat_ofNat, Nat.shiftLeft_eq, Nat.shiftRight_eq_div_pow]
  omega

/-- What a critical section is for. -/
inductive SectionOp (ι : Type)
  | call (call : Call ι)
  | taskReturn
  | schedule (stackValid : Bool)

/-- What threads and handlers do without a section. -/
inductive FreeOp (ι : Type)
  | call (call : Call ι)
  | resume
  | write (buffer : BufferPtr) (bytes : Nat → Byte)

inductive ClockOp
  | enter | access | leave

def ClockOp.codeOp : ClockOp → CodeOp τ ι
  | .enter => .enter
  | .access => .access
  | .leave => .leave

def modeOf : Actor τ Handler → Mode
  | .thread _ => .thread
  | .service h => .handler h.exception h.priority
  | .clock => .handler 15 15
  | .switcher => .handler 14 15

/-- The thread's own name, which the source reads from `rtos_current_task` before the
section. -/
def callerName : Actor τ Handler → Option τ
  | .thread t => some t
  | _ => none

/-- The task is not idle, not asleep in a call, and neither is it finished. -/
def mayRun (P : Platform τ) (v : CodeWorld τ ι) (t : τ) : Bool :=
  decide (t ≠ P.idle) && (v.inCall t).isNone &&
    (decide ((v.tcb t).state = .ready) || decide ((v.tcb t).state = .running))

/-- The kernel as the tests before a section read it. `rtos_max_syscall_priority_mask` is
written by `rtos_init` only. -/
def configured (m : SyscallPriority) (v : CodeWorld τ ι) : Kernel τ ι :=
  { v.toKernel with maxSyscallPriorityMask := m.mask }

def sectionTests (P : Platform τ) (m : SyscallPriority) (v : CodeWorld τ ι) :
    Actor τ Handler → SectionOp ι → Bool
  | .thread t, .call call => mayRun P v t && callTests (configured m v) .thread call
  | .thread t, .taskReturn => mayRun P v t && decide ((v.tcb t).mutexHoldCount = 0)
  | .service h, .call call =>
      callTests (configured m v) (.handler h.exception h.priority) call
  | _, _ => false

def onKernel {α : Type} (c : KernelCode τ ι α) : Code (CodeWorld τ ι) α :=
  c.onPart (fun v => v.toKernel) fun v k => { v with toKernel := k }

/-- The section of a call, with the entry and the return of the call recorded. -/
def callSection (a : Actor τ Handler) (call : Call ι) : Code (CodeWorld τ ι) Unit := do
  let data ← Code.get fun v => callData v.toKernel call
  onKernel (mark (.called (callerName a) call data))
  match ← onKernel (callCode (callerName a) call) with
  | .returned result =>
      let data ← Code.get fun v => callData v.toKernel call
      onKernel (mark (.returned (callerName a) call result data))
  | .suspended =>
      Code.modify fun v => { v with
        inCall := match callerName a with
          | none => v.inCall
          | some self => Function.update v.inCall self (some call) }

/-- The end of `rtos_task_entry_trampoline`. -/
def taskReturnCode (self : τ) : KernelCode τ ι Unit := do
  assign self fun t => { t with state := .terminated }
  pendContextSwitchCode

def sectionCode : Actor τ Handler → SectionOp ι → Code (CodeWorld τ ι) Unit
  | .thread t, .call call => callSection (.thread t) call
  | .service h, .call call => callSection (.service h) call
  | .thread t, .taskReturn => onKernel (taskReturnCode t)
  | .switcher, .schedule stackValid => onKernel (scheduleCode stackValid)
  | _, _ => .stuck

/-- A call that is refused before its section, a yield, the return from a call the task had
slept in, and a write to memory. -/
def freeStep (P : Platform τ) (m : SyscallPriority) (v : CodeWorld τ ι) :
    Actor τ Handler → FreeOp ι → Option (CodeWorld τ ι)
  | .thread t, .call call =>
      if mayRun P v t ∧ callTests (configured m v) .thread call = false then
        some { v with toWorld := callStep v.toWorld .thread call }
      else none
  | .service h, .call call =>
      if callTests (configured m v) (.handler h.exception h.priority) call = false then
        some { v with toWorld := callStep v.toWorld (.handler h.exception h.priority) call }
      else none
  | .thread t, .resume =>
      if (v.tcb t).state = .running then
        (v.inCall t).map fun call => { v with toWorld := resumeStep v.toWorld t call }
      else none
  | .thread _, .write buffer bytes =>
      some { v with toWorld := { v.toWorld with toKernel := v.toKernel.setBuffer buffer bytes } }
  | .service _, .write buffer bytes =>
      some { v with toWorld := { v.toWorld with toKernel := v.toKernel.setBuffer buffer bytes } }
  | _, _ => none

/-- The processor of the kernel, with the levels and the mask as values of BASEPRI. -/
def kernelSystem (P : Platform τ) (m : SyscallPriority) :
    System τ Handler (CodeWorld τ ι) (SectionOp ι) (FreeOp ι) ClockOp where
  ceiling := 16 * m.priority
  lowest := 0xF0
  level h := 16 * h.priority
  tests := sectionTests P m
  code := sectionCode
  free := freeStep P m
  clock v op := codeStep P v op.codeOp
  current v := v.currentTask
  clockIdle v := v.tickCode.isNone
  ceiling_pos := Nat.mul_pos (by decide) m.pos
  ceiling_lt := by have := m.lt; omega
  level_le h := by have := h.priority.isLt; omega

end Model

section Sections

variable {P : Platform τ} {m : SyscallPriority} {v v' : CodeWorld τ ι}

@[simp] theorem run_onKernel {α : Type} (c : KernelCode τ ι α) (v : CodeWorld τ ι) :
    (onKernel c).run v =
      (c.run v.toKernel).map fun result => (result.1, { v with toKernel := result.2 }) := by
  exact run_onPart (fun v : CodeWorld τ ι => v.toKernel) (fun v k => { v with toKernel := k })
    (fun _ _ => rfl) (fun _ => rfl) (fun _ _ _ => rfl) c v

variable [DecidableEq τ] [DecidableEq ι]

/-- A section that runs alone is the atomic call. -/
theorem run_callSection {a : Actor τ Handler} {call : Call ι}
    (hmode : HandlerNumbered (modeOf a))
    (hcaller : callerOf v.toKernel (modeOf a) = callerName a)
    (htests : callTests v.toKernel (modeOf a) call = true) :
    (callSection a call).run v =
      some ((), { v with toWorld := callStep v.toWorld (modeOf a) call }) := by
  have hcode := callCode_computes (k := v.toKernel.record
    (.called (callerName a) call (callData v.toKernel call))) hmode htests
  rw [Computes] at hcode
  have hcaller' : callerOf (v.toKernel.record
      (.called (callerName a) call (callData v.toKernel call))) (modeOf a) = callerName a :=
    hcaller
  rw [hcaller'] at hcode
  unfold callSection callStep
  simp only [run_bind, run_get, Option.bind_some, run_onKernel, run_mark, Option.map_some, hcode,
    hcaller]
  cases hresult : rtosCall (v.toKernel.record
      (.called (callerName a) call (callData v.toKernel call))) (modeOf a) call with
  | mk k outcome =>
      cases outcome with
      | returned result => rfl
      | suspended => rfl

end Sections

section Calls

variable {k k' : Kernel τ ι} {mode : Mode} {call : Call ι} {outcome : Outcome}

/-- Which of the three kinds an object is of, if any. -/
structure SameKind (o o' : Object τ) : Prop where
  semaphore : o'.semaphore?.isSome = o.semaphore?.isSome
  mutex : o'.mutex?.isSome = o.mutex?.isSome
  queue : o'.queue?.isSome = o.queue?.isSome

theorem SameKind.refl (o : Object τ) : SameKind o o := ⟨rfl, rfl, rfl⟩

theorem sameKind_setObject [DecidableEq ι] {p : ι} {o o' : Object τ} (hobj : k.objects p = o)
    (h : SameKind o o') (p' : ι) : SameKind (k.objects p') ((k.setObject p o').objects p') := by
  rcases eq_or_ne p' p with rfl | hne
  · simpa [hobj] using h
  · simpa [hne] using SameKind.refl _

/-- What no call changes, besides the frame: the mask, the kind of every object, and the
hold counts of tasks that neither call nor sleep. -/
structure Steady (k k' : Kernel τ ι) (mode : Mode) : Prop where
  mask : k'.maxSyscallPriorityMask = k.maxSyscallPriorityMask
  kind : ∀ p, SameKind (k.objects p) (k'.objects p)
  holds : ∀ t, ¬ThreadCall k mode t → (k.tcb t).state ≠ .blocked →
    (k'.tcb t).mutexHoldCount = (k.tcb t).mutexHoldCount

theorem Steady.maybePreempt (h : Steady k k' mode) (t : Option τ) :
    Steady k (rtosMaybePreempt k' t) mode := by
  unfold rtosMaybePreempt
  split
  · exact ⟨h.mask, h.kind, h.holds⟩
  · exact h

variable [DecidableEq τ] [DecidableEq ι]

theorem CallEffect.steady (h : CallEffect k mode call k' outcome) : Steady k k' mode := by
  cases h with
  | refused _ _ => exact ⟨rfl, fun _ => .refl _, fun _ _ _ => rfl⟩
  | ignored _ => exact ⟨rfl, fun _ => .refl _, fun _ _ _ => rfl⟩
  | yielded _ _ => exact ⟨rfl, fun _ => .refl _, fun _ _ _ => rfl⟩
  | @delayed self ticks hthread _ _ =>
      refine ⟨rfl, fun _ => .refl _, fun t hcaller _ => ?_⟩
      have hne : t ≠ self := fun heq => hcaller (heq ▸ hthread)
      simp [hne]
  | @slept self _ _ _ _ _ hthread _ _ _ _ =>
      refine ⟨rfl, fun _ => .refl _, fun t hcaller _ => ?_⟩
      have hne : t ≠ self := fun heq => hcaller (heq ▸ hthread)
      simp [hne]
  | @sleptOnMutex self _ _ _ _ hthread _ _ _ _ _ =>
      refine ⟨rfl, fun _ => .refl _, fun t hcaller _ => ?_⟩
      have hne : t ≠ self := fun heq => hcaller (heq ▸ hthread)
      simp [hne]
  | took _ hobj _ => exact ⟨rfl, sameKind_setObject hobj ⟨rfl, rfl, rfl⟩, fun _ _ _ => rfl⟩
  | gave _ hobj _ _ => exact ⟨rfl, sameKind_setObject hobj ⟨rfl, rfl, rfl⟩, fun _ _ _ => rfl⟩
  | @gaveTo _ p _ waiter _ _ _ =>
      apply Steady.maybePreempt
      refine ⟨rfl, fun _ => .refl _, fun t _ _ => ?_⟩
      rcases eq_or_ne t waiter with rfl | hne
      · simp [leaveWait]
      · simp [hne]
  | @locked self _ _ _ hthread _ hobj _ =>
      refine ⟨rfl, sameKind_setObject hobj ⟨rfl, rfl, rfl⟩, fun t hcaller _ => ?_⟩
      have hne : t ≠ self := fun heq => hcaller (heq ▸ hthread)
      simp [hne]
  | @unlocked self _ _ hthread hobj _ _ =>
      refine ⟨rfl, sameKind_setObject hobj ⟨rfl, rfl, rfl⟩, fun t hcaller _ => ?_⟩
      have hne : t ≠ self := fun heq => hcaller (heq ▸ hthread)
      simp [releaseHold, hne]
  | @unlockedTo self waiter p _ hthread hobj _ hfind =>
      apply Steady.maybePreempt
      refine ⟨rfl, sameKind_setObject hobj ⟨rfl, rfl, rfl⟩, fun t hcaller hawake => ?_⟩
      have hne : t ≠ self := fun heq => hcaller (heq ▸ hthread)
      have hwaiter : t ≠ waiter := by
        rintro rfl
        have hwaits := (findWaiter_waits hfind).2
        rw [isWaiter_kept (kept_release k p self t)] at hwaits
        exact hawake (isWaiter_iff.mp hwaits).1
      simp [grantHold, releaseHold, hne, hwaiter]
  | sent _ hobj _ _ => exact ⟨rfl, sameKind_setObject hobj ⟨rfl, rfl, rfl⟩, fun _ _ _ => rfl⟩
  | @sentTo _ _ _ _ receiver _ _ _ =>
      apply Steady.maybePreempt
      refine ⟨?_, fun p' => ?_, fun t _ _ => ?_⟩
      · unfold handItem setWaitBytes
        split <;> rfl
      · simpa [handItem] using SameKind.refl _
      · rcases eq_or_ne t receiver with rfl | hne
        · simp [handItem, leaveWait]
        · simp [handItem, hne]
  | received _ hobj _ _ => exact ⟨rfl, sameKind_setObject hobj ⟨rfl, rfl, rfl⟩, fun _ _ _ => rfl⟩
  | @receivedFrom _ p q _ sender _ hobj _ _ =>
      apply Steady.maybePreempt
      refine ⟨rfl, fun p' => ?_, fun t _ _ => ?_⟩
      · rcases eq_or_ne p' p with rfl | hne
        · simp only [hobj, pushItem, Kernel.modifyTask_objects,
            Kernel.record_objects, Kernel.setObject_objects, Function.update_self]
          exact ⟨rfl, rfl, rfl⟩
        · simpa [pushItem, popItem, hne] using SameKind.refl _
      · rcases eq_or_ne t sender with rfl | hne
        · simp [pushItem, popItem, leaveWait]
        · simp [pushItem, popItem, hne]

end Calls

end Stm32f411.KernelProcessor
