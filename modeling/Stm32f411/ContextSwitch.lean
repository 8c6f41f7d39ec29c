import Stm32f411.RtosStepSpec
import Stm32f411.TaskStacks

/-!
`SVC_Handler` and `PendSV_Handler` of `rtos_port.s`, and the whole microcontroller: tasks and
interrupt handlers run, call the kernel and write their own stacks, and now and then PendSV
switches to another task.
-/

namespace Stm32f411.ContextSwitch

open Stm32f411.LabelledRuns
open Stm32f411.RtosTypes
open Stm32f411.RtosKernel
open Stm32f411.RtosSystem
open Stm32f411.WordBlocks
open Stm32f411.TaskStacks

variable {τ ι : Type} [DecidableEq τ] [DecidableEq ι]

section Handlers

/-- The registers that the handlers save and load. In a handler LR holds EXC_RETURN. -/
structure Cpu where
  r4To11 : Fin 8 → Word
  s16To31 : Fin 16 → Word
  psp : Word
  lr : Word

/-- `stmdb r0!` of `n` registers: the lowest one at the lowest address. -/
def storeBelow (ram : Ram) (r0 : Word) (n : Nat) (registers : Nat → Word) : Ram × Word :=
  let r0 := r0 - BitVec.ofNat 32 (4 * n)
  (storeBlock ram r0 registers n, r0)

/-- The first part of `PendSV_Handler`, with the stack pointer it stores in the TCB. -/
def saveContext (cpu : Cpu) (ram : Ram) : Ram × Word :=
  let saved :=
    if cpu.lr &&& 0x10 = 0 then
      storeBelow ram cpu.psp 16 fun i => cpu.s16To31 (Fin.ofNat 16 i)
    else (ram, cpu.psp)
  storeBelow saved.1 saved.2 8 fun i => cpu.r4To11 (Fin.ofNat 8 i)

/-- The last part of `PendSV_Handler`. -/
def restoreContext (ram : Ram) (t : RtosTask ι) (cpu : Cpu) : Cpu :=
  let r0 := slot t.stackPointer 8
  if t.excReturn &&& 0x10 = 0 then
    { r4To11 := fun i => ram (slot t.stackPointer i)
      s16To31 := fun i => ram (slot r0 i)
      psp := slot r0 16
      lr := t.excReturn }
  else
    { cpu with
      r4To11 := fun i => ram (slot t.stackPointer i)
      psp := r0
      lr := t.excReturn }

/-- The C function called in the middle runs on the main stack and keeps the callee-saved
registers. Without a current task the handler would write through NULL. -/
def pendSVHandler (k : Kernel τ ι) (ram : Ram) (cpu : Cpu) :
    Except (Fault τ) (Kernel τ ι × Ram × Cpu) :=
  match k.currentTask with
  | none => .error ⟨.hardfault, none⟩
  | some current => do
      let saved := saveContext cpu ram
      let stored := k.modifyTask current fun t =>
        { t with stackPointer := saved.2, excReturn := cpu.lr }
      let k ← rtosScheduleFromPendsv stored (rtosTaskStackValid saved.1 stored (some current))
      match k.currentTask with
      | none => .error ⟨.hardfault, none⟩
      | some next => .ok (k, saved.1, restoreContext saved.1 (k.tcb next) cpu)

/-- `SVC_Handler` restores the first task as if it had no floating-point context. -/
def svcHandler (ram : Ram) (t : RtosTask ι) (cpu : Cpu) : Cpu :=
  { cpu with
    r4To11 := fun i => ram (slot t.stackPointer i)
    psp := slot t.stackPointer 8
    lr := t.excReturn }

end Handlers

section Steps

structure Mcu (τ ι : Type) where
  world : World τ ι
  ram : Ram
  cpu : Cpu

/-- What happens, with the registers where a task is interrupted or dispatched. -/
inductive Happening (τ ι : Type)
  | boot (call : BootCall τ)
  | op (op : Op τ ι)
  | ran
  | started (first : τ) (found : Cpu)
  | switched (out : τ) (saved : Cpu) (next : τ) (found : Cpu)

/-- The operations that neither touch the stacks nor dispatch a task. -/
def IsPlain : Op τ ι → Prop
  | .init _ => False
  | .taskCreate _ _ _ _ _ _ => False
  | .start _ _ => False
  | .pendSV _ => False
  | _ => True

/-- The bytes that `PendSV_Handler` stores. -/
def saveSize (cpu : Cpu) : Nat :=
  if cpu.lr &&& 0x10 = 0 then 96 else 32

/-- PSP lies in the task's stack, with room for the save. -/
structure RoomToSave (t : RtosTask ι) (cpu : Cpu) : Prop where
  aligned : cpu.psp.toNat % 8 = 0
  low : t.stackBase.toNat + saveSize cpu ≤ cpu.psp.toNat
  high : cpu.psp.toNat ≤ stackEnd t

inductive McuStep (B : Board τ) (m : Mcu τ ι) : Happening τ ι → Mcu τ ι → Prop
  /-- No TCB lies in a stack, and none is overwritten. -/
  | boot (call : BootCall τ) {result : Machine τ ι × Status} :
      bootCall B ⟨m.world.toKernel, m.ram⟩ call = result →
      ¬Overwrites B m.world.toKernel call →
      (∀ task, call.task B = some task → ∀ t ∈ result.1.kernel.tasks,
        ¬(B.tcbBlock task).Meets (stackBlock (result.1.kernel.tcb t).stackBase
          (result.1.kernel.tcb t).stackWords)) →
      McuStep B m (.boot call) { m with
        world := { m.world with toKernel := result.1.kernel }
        ram := result.1.ram }
  | op {op : Op τ ι} {w : World τ ι} :
      IsPlain op → step B.toPlatform m.world op = some w →
      McuStep B m (.op op) { m with world := w }
  /-- Nobody writes another task's stack. -/
  | ran (ram : Ram) (cpu : Cpu) :
      (∀ t ∈ m.world.tasks, m.world.currentTask ≠ some t → ∀ a,
        ¬Outside (m.world.tcb t).stackBase.toNat (stackEnd (m.world.tcb t)) a →
          ram a = m.ram a) →
      McuStep B m .ran { m with ram := ram, cpu := cpu }
  | refused {hookRegistered tickConfigured : Bool} {k : Kernel τ ι} {result : Status} :
      rtosStart m.world.toKernel hookRegistered tickConfigured = (k, result) → result ≠ .ok →
      McuStep B m (.op (.start hookRegistered tickConfigured))
        { m with world := { m.world with toKernel := k } }
  | started {hookRegistered tickConfigured : Bool} {k : Kernel τ ι} {first : τ} {found : Cpu} :
      rtosStart m.world.toKernel hookRegistered tickConfigured = (k, .ok) →
      k.currentTask = some first → found = svcHandler m.ram (k.tcb first) m.cpu →
      McuStep B m (.started first found)
        { m with world := { m.world with toKernel := k }, cpu := found }
  | switched {k : Kernel τ ι} {ram : Ram} {out next : τ} {found : Cpu} :
      m.world.running = true → m.world.currentTask = some out →
      RoomToSave (m.world.tcb out) m.cpu →
      pendSVHandler m.world.toKernel m.ram m.cpu = .ok (k, ram, found) →
      k.currentTask = some next →
      McuStep B m (.switched out m.cpu next found)
        { world := { m.world with toKernel := k }, ram := ram, cpu := found }

end Steps

end Stm32f411.ContextSwitch
