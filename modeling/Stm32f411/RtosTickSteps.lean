import Stm32f411.RtosSystem

/-!
The system again, with the SysTick handler in small steps. SysTick has the lowest
priority and takes no critical section, so other interrupts come between its look at a
TCB and each of its writes to it; threads and PendSV do not.
-/

namespace Stm32f411.RtosTickSteps

open Stm32f411.RtosTypes
open Stm32f411.RtosKernel
open Stm32f411.RtosSystem
open Stm32f411.LabelledRuns

variable {τ ι : Type} [DecidableEq τ]

section Model

variable [DecidableEq ι]

/-- One statement of a visit, once it is decided: the mutex time-out flag or the write of
one field. -/
inductive TickWrite
  | mutexTimeout
  | waitResult
  | waitType
  | waitObject
  | waitBuffer
  | waitForever
  | state
deriving DecidableEq

/-- The statements that carry a decision out, in the order of the source. -/
def tickWrites : TickDecision → List TickWrite
  | .skip => []
  | .ready => [.state]
  | .timeOut =>
      [.mutexTimeout, .waitResult, .waitType, .waitObject, .waitBuffer, .waitForever, .state]

/-- One such statement, on the kernel and the mutex time-out flag. -/
def tickWritten (task : τ) (acc : Kernel τ ι × Bool) : TickWrite → Kernel τ ι × Bool
  | .mutexTimeout => (acc.1, acc.2 || decide ((acc.1.tcb task).waitType = .mutex))
  | .waitResult => (acc.1.modifyTask task fun t => { t with waitResult := .errTimeout }, acc.2)
  | .waitType => (acc.1.modifyTask task fun t => { t with waitType := .none }, acc.2)
  | .waitObject => (acc.1.modifyTask task fun t => { t with waitObject := none }, acc.2)
  | .waitBuffer => (acc.1.modifyTask task fun t => { t with waitBuffer := none }, acc.2)
  | .waitForever => (acc.1.modifyTask task fun t => { t with waitForever := false }, acc.2)
  | .state => (acc.1.modifyTask task fun t => { t with state := .ready }, acc.2)

/-- The local variables of a `rtos_tick_isr` under way: the tasks left to visit, and what
is left to write of the visit it is in. -/
structure TickRun (τ : Type) where
  now : Word
  mutexTimeout : Bool
  rest : List τ
  writes : List (τ × TickWrite)

structure TickWorld (τ ι : Type) extends World τ ι where
  tickRun : Option (TickRun τ)

inductive TickOp (τ ι : Type)
  | base (op : Op τ ι)
  | enter
  | read
  | write
  | exit

/-- What can happen while the SysTick handler is on the stack: calls of other handlers,
and writes to memory. -/
def interrupts : Op τ ι → Bool
  | .call (.handler _ _) _ => true
  | .write _ _ => true
  | _ => false

/-- The steps outside a tick; the tick itself is not one of them. -/
def outsideTick : Op τ ι → Bool
  | .tick => false
  | _ => true

def admits (v : TickWorld τ ι) (op : Op τ ι) : Bool :=
  match v.tickRun with
  | none => outsideTick op
  | some _ => interrupts op

def tickStep (P : Platform τ) (v : TickWorld τ ι) : TickOp τ ι → Option (TickWorld τ ι)
  | .base op =>
      if admits v op then
        (step P v.toWorld op).map fun w => { v with toWorld := w }
      else none
  | .enter =>
      match v.tickRun with
      | some _ => none
      | none =>
          let k : Kernel τ ι := { v.toKernel with tick := v.tick + 1 }
          if k.running = false then some { v with toKernel := k }
          else some { v with toKernel := k, tickRun := some ⟨k.tick, false, k.tasks, []⟩ }
  | .read =>
      match v.tickRun with
      | some ⟨now, mutexTimeout, task :: rest, []⟩ =>
          some { v with
            tickRun := some ⟨now, mutexTimeout, rest,
              (tickWrites (tickDecision now (v.tcb task))).map fun write => (task, write)⟩ }
      | _ => none
  | .write =>
      match v.tickRun with
      | some ⟨now, mutexTimeout, rest, (task, write) :: writes⟩ =>
          let acc := tickWritten task (v.toKernel, mutexTimeout) write
          some { v with toKernel := acc.1, tickRun := some ⟨now, acc.2, rest, writes⟩ }
      | _ => none
  | .exit =>
      match v.tickRun with
      | some ⟨_, mutexTimeout, [], []⟩ =>
          some { v with toKernel := tickFinish (v.toKernel, mutexTimeout), tickRun := none }
      | _ => none

/-- The state before `rtos_init`, with no tick under way. -/
def TickReset (v : TickWorld τ ι) : Prop :=
  Reset v.toWorld ∧ v.tickRun = none

end Model

section Uninterrupted

variable {P : Platform τ} {w : World τ ι}

/-- The world in the middle of a tick. -/
def during (w : World τ ι) (now : Word) (rest : List τ) (writes : List (τ × TickWrite))
    (acc : Kernel τ ι × Bool) : TickWorld τ ι :=
  { w with toKernel := acc.1, tickRun := some ⟨now, acc.2, rest, writes⟩ }

theorem tickWrites_written (task : τ) (decision : TickDecision) (acc : Kernel τ ι × Bool) :
    (tickWrites decision).foldl (tickWritten task) acc = tickApply task decision acc := by
  cases decision with
  | skip => rfl
  | ready => rfl
  | timeOut => simp [tickWrites, tickWritten, tickApply, rtosKernelWakeTask, leaveWait,
      Kernel.modifyTask]

variable [DecidableEq ι]

theorem writes_run (now : Word) (rest : List τ) (task : τ) (writes : List TickWrite)
    (acc : Kernel τ ι × Bool) :
    ∃ ops, Run (Steps (tickStep P))
      (during w now rest (writes.map fun write => (task, write)) acc) ops
      (during w now rest [] (writes.foldl (tickWritten task) acc)) := by
  induction writes generalizing acc with
  | nil => exact ⟨[], .nil⟩
  | cons write writes ih =>
      obtain ⟨ops, hrun⟩ := ih (tickWritten task acc write)
      have hstep : Steps (tickStep P)
          (during w now rest ((write :: writes).map fun write => (task, write)) acc) .write
          (during w now rest (writes.map fun write => (task, write))
            (tickWritten task acc write)) := rfl
      exact ⟨_, Run.append (.single hstep) hrun⟩

theorem visits_run (now : Word) (rest : List τ) (acc : Kernel τ ι × Bool) :
    ∃ ops, Run (Steps (tickStep P)) (during w now rest [] acc) ops
      (during w now [] [] (rest.foldl (tickVisit now) acc)) := by
  induction rest generalizing acc with
  | nil => exact ⟨[], .nil⟩
  | cons task rest ih =>
      have hread : Steps (tickStep P) (during w now (task :: rest) [] acc) .read
          (during w now rest
            ((tickWrites (tickDecision now (acc.1.tcb task))).map fun write => (task, write))
            acc) := rfl
      obtain ⟨writes, hwrites⟩ := writes_run (P := P) (w := w) now rest task
        (tickWrites (tickDecision now (acc.1.tcb task))) acc
      rw [tickWrites_written] at hwrites
      obtain ⟨ops, hrest⟩ := ih (tickVisit now acc task)
      exact ⟨_, (Run.append (.single hread) hwrites).append hrest⟩

/-- A tick that nothing interrupts is the atomic one. -/
theorem tick_run (w : World τ ι) :
    ∃ ops, Run (Steps (tickStep P)) ⟨w, none⟩ ops
      ⟨{ w with toKernel := sysTickHandler w.toKernel }, none⟩ := by
  cases hrun : w.running with
  | false =>
      have henter : Steps (tickStep P) ⟨w, none⟩ .enter
          ⟨{ w with toKernel := sysTickHandler w.toKernel }, none⟩ := by
        simp [Steps, tickStep, sysTickHandler, rtosTickIsr, hrun]
      exact ⟨_, .single henter⟩
  | true =>
      let k : Kernel τ ι := { w.toKernel with tick := w.tick + 1 }
      have henter : Steps (tickStep P) ⟨w, none⟩ .enter
          (during w k.tick k.tasks [] (k, false)) := by
        simp [Steps, tickStep, during, hrun, k]
      obtain ⟨ops, hvisits⟩ := visits_run (P := P) (w := w) k.tick k.tasks (k, false)
      have hexit : Steps (tickStep P)
          (during w k.tick [] [] (k.tasks.foldl (tickVisit k.tick) (k, false))) .exit
          ⟨{ w with toKernel := sysTickHandler w.toKernel }, none⟩ := by
        have htick : sysTickHandler w.toKernel =
            tickFinish (k.tasks.foldl (tickVisit k.tick) (k, false)) := by
          rw [sysTickHandler, rtosTickIsr, if_neg (by simp [hrun])]
        rw [htick]
        rfl
      exact ⟨_, ((Run.single henter).append hvisits).append (.single hexit)⟩

theorem base_step {w' : World τ ι} {op : Op τ ι} (hop : outsideTick op = true)
    (hstep : RtosSystem.step P w op = some w') :
    Steps (tickStep P) ⟨w, none⟩ (.base op) ⟨w', none⟩ := by
  simp only [Steps, tickStep, admits, hop, if_true, hstep, Option.map_some]

/-- The runs with atomic ticks are among those with interruptible ones. -/
theorem reached_tick (h : Reached P w) :
    Reachable (Steps (tickStep P)) TickReset (⟨w, none⟩ : TickWorld τ ι) := by
  refine h.simulate (fun w => (⟨w, none⟩ : TickWorld τ ι)) (fun _ hw => ⟨hw, rfl⟩) ?_
  intro w op w' hstep
  cases hop : outsideTick op with
  | true => exact ⟨_, .single (base_step hop hstep)⟩
  | false =>
      cases op with
      | tick =>
          obtain rfl := Option.some.inj hstep
          exact tick_run w
      | _ => simp [outsideTick] at hop

end Uninterrupted

end Stm32f411.RtosTickSteps
