import Stm32f411.RtosTickSteps
import Stm32f411.CallMeaning

/-!
The SysTick handler load by load and store by store. It takes no critical section, so the
calls of other handlers come in between anywhere; threads and PendSV do not.
-/

namespace Stm32f411.TickCode

open Stm32f411.LabelledRuns
open Stm32f411.RtosTypes
open Stm32f411.RtosKernel
open Stm32f411.RtosSystem
open Stm32f411.RtosTickSteps (outsideTick interrupts)
open Stm32f411.StatementPrograms
open Stm32f411.StatementPrograms.Code
open Stm32f411.SectionCode
open Stm32f411.KernelMeaning

variable {τ ι : Type}

section Code

variable [DecidableEq τ]

def stateIs (task : τ) (state : TaskState) : KernelCode τ ι Bool :=
  get fun k => decide ((k.tcb task).state = state)

def deadlineReachedCode (now : Word) (task : τ) : KernelCode τ ι Bool :=
  get fun k => rtosDeadlineReached now (k.tcb task).wakeTick

/-- One turn of the loop of `rtos_tick_isr`, with its flag. -/
def tickVisitCode (now : Word) (mutexTimeout : Bool) (task : τ) : KernelCode τ ι Bool := do
  if ← both (stateIs task .delayed) (deadlineReachedCode now task) then
    assign task fun t => { t with state := .ready }
    pure mutexTimeout
  else if ← both (stateIs task .blocked) (both (get fun k => !(k.tcb task).waitForever)
      (deadlineReachedCode now task)) then
    let waitType ← get fun k => (k.tcb task).waitType
    wakeTaskCode task .errTimeout
    pure (mutexTimeout || decide (waitType = .mutex))
  else pure mutexTimeout

def tickFinishCode (mutexTimeout : Bool) : KernelCode τ ι Unit := do
  if mutexTimeout = true then recomputePrioritiesCode else pure ()
  pendContextSwitchCode

def tickIsrCode : KernelCode τ ι Unit := do
  if ← get Kernel.running then
    let now ← get Kernel.tick
    let tasks ← get Kernel.tasks
    let mutexTimeout ← foldOver (tickVisitCode now) false tasks
    tickFinishCode mutexTimeout
  else pure ()

/-- `SysTick_Handler`. -/
def sysTickCode : KernelCode τ ι Unit := do
  let ticks ← get Kernel.tick
  modify fun k => { k with tick := ticks + 1 }
  tickIsrCode

end Code

section System

variable [DecidableEq τ] [DecidableEq ι]

/-- The system, and what is left of a handler under way. -/
structure CodeWorld (τ ι : Type) extends World τ ι where
  tickCode : Option (KernelCode τ ι Unit)

inductive CodeOp (τ ι : Type)
  | base (op : Op τ ι)
  | enter
  | access
  | leave

def admits (v : CodeWorld τ ι) (op : Op τ ι) : Bool :=
  match v.tickCode with
  | none => outsideTick op
  | some _ => interrupts op

def codeStep (P : Platform τ) (v : CodeWorld τ ι) : CodeOp τ ι → Option (CodeWorld τ ι)
  | .base op =>
      if admits v op then
        (step P v.toWorld op).map fun w => { v with toWorld := w }
      else none
  | .enter =>
      match v.tickCode with
      | some _ => none
      | none => some { v with tickCode := some sysTickCode }
  | .access =>
      match v.tickCode with
      | some rest => (rest.step v.toKernel).map fun next =>
          { v with toKernel := next.2, tickCode := some next.1 }
      | none => none
  | .leave =>
      match v.tickCode with
      | some (.done _) => some { v with tickCode := none }
      | _ => none

/-- The state before `rtos_init`, with no handler under way. -/
def CodeReset (v : CodeWorld τ ι) : Prop :=
  Reset v.toWorld ∧ v.tickCode = none

end System

section Uninterrupted

variable {k : Kernel τ ι}

@[simp] theorem run_stateIs (task : τ) (state : TaskState) (k : Kernel τ ι) :
    (stateIs task state).run k = some (decide ((k.tcb task).state = state), k) := rfl

@[simp] theorem run_deadlineReached (now : Word) (task : τ) (k : Kernel τ ι) :
    (deadlineReachedCode now task).run k =
      some (rtosDeadlineReached now (k.tcb task).wakeTick, k) := rfl

variable [DecidableEq τ]

theorem run_tickVisit (now : Word) (mutexTimeout : Bool) (task : τ) (k : Kernel τ ι) :
    (tickVisitCode now mutexTimeout task).run k =
      some ((tickVisit now (k, mutexTimeout) task).2,
        (tickVisit now (k, mutexTimeout) task).1) := by
  have hdelayed : (both (stateIs task .delayed) (deadlineReachedCode now task)).run k =
      some (decide ((k.tcb task).state = .delayed) &&
        rtosDeadlineReached now (k.tcb task).wakeTick, k) := run_both rfl rfl
  have hblocked : (both (stateIs task .blocked) (both (get fun k => !(k.tcb task).waitForever)
      (deadlineReachedCode now task))).run k =
        some (decide ((k.tcb task).state = .blocked) && (!(k.tcb task).waitForever &&
          rtosDeadlineReached now (k.tcb task).wakeTick), k) := run_both rfl (run_both rfl rfl)
  unfold tickVisitCode tickVisit tickDecision
  simp only [run_bind, hdelayed, Option.bind_some, run_ite, Bool.and_eq_true, decide_eq_true_eq]
  split
  · rfl
  · simp only [hblocked, Option.bind_some, Bool.and_eq_true, Bool.not_eq_true', decide_eq_true_eq]
    split
    · simp only [run_get, run_wakeTask, Option.bind_some, run_pure, tickApply]
    · rfl

theorem run_tickVisits (now : Word) (tasks : List τ) (mutexTimeout : Bool) (k : Kernel τ ι) :
    (foldOver (tickVisitCode now) mutexTimeout tasks).run k =
      some ((tasks.foldl (tickVisit now) (k, mutexTimeout)).2,
        (tasks.foldl (tickVisit now) (k, mutexTimeout)).1) := by
  induction tasks generalizing mutexTimeout k with
  | nil => rfl
  | cons task tasks ih =>
      rw [foldOver, run_bind, run_tickVisit]
      exact ih _ _

theorem run_tickFinish (mutexTimeout : Bool) (k : Kernel τ ι) :
    (tickFinishCode mutexTimeout).run k = some ((), tickFinish (k, mutexTimeout)) := by
  cases mutexTimeout with
  | true =>
      simp only [tickFinishCode, if_true, run_bind, run_recomputePriorities, Option.bind_some,
        run_pendContextSwitch, tickFinish]
  | false => rfl

/-- A handler that nothing interrupts is the atomic one. -/
theorem run_sysTick (k : Kernel τ ι) : sysTickCode.run k = some ((), sysTickHandler k) := by
  unfold sysTickCode sysTickHandler tickIsrCode rtosTickIsr
  simp only [run_bind, run_get, run_modify, Option.bind_some, run_ite]
  cases k.running with
  | false => rfl
  | true =>
      simp only [if_true, Bool.true_eq_false, if_false, Option.bind_some, run_tickVisits,
        run_tickFinish]

variable [DecidableEq ι]
variable {P : Platform τ} {w : World τ ι}

/-- The accesses of code that ends, one after the other. -/
theorem accesses_run (c : KernelCode τ ι Unit) {k' : Kernel τ ι}
    (h : c.run w.toKernel = some ((), k')) :
    ∃ ops, Run (Steps (codeStep P)) ⟨w, some c⟩ ops
      ⟨{ w with toKernel := k' }, some (.done ())⟩ := by
  induction c generalizing w with
  | done a =>
      obtain ⟨rfl, rfl⟩ := Prod.mk.inj (Option.some.inj h)
      exact ⟨[], .nil⟩
  | stuck => cases h
  | look next ih =>
      have hstep : Steps (codeStep P) ⟨w, some (.look next)⟩ .access
          ⟨w, some (next w.toKernel)⟩ := rfl
      obtain ⟨ops, hrun⟩ := ih _ h
      exact ⟨_, (Run.single hstep).append hrun⟩
  | write f next ih =>
      have hstep : Steps (codeStep P) ⟨w, some (.write f next)⟩ .access
          ⟨{ w with toKernel := f w.toKernel }, some next⟩ := rfl
      obtain ⟨ops, hrun⟩ := ih (w := { w with toKernel := f w.toKernel }) h
      exact ⟨_, (Run.single hstep).append hrun⟩

theorem tick_run (w : World τ ι) :
    ∃ ops, Run (Steps (codeStep P)) ⟨w, none⟩ ops
      ⟨{ w with toKernel := sysTickHandler w.toKernel }, none⟩ := by
  have henter : Steps (codeStep P) ⟨w, none⟩ .enter ⟨w, some sysTickCode⟩ := rfl
  obtain ⟨ops, hrun⟩ := accesses_run (P := P) sysTickCode (run_sysTick w.toKernel)
  have hleave : Steps (codeStep P)
      ⟨{ w with toKernel := sysTickHandler w.toKernel }, some (.done ())⟩ .leave
      ⟨{ w with toKernel := sysTickHandler w.toKernel }, none⟩ := rfl
  exact ⟨_, ((Run.single henter).append hrun).append (.single hleave)⟩

theorem base_step {w' : World τ ι} {op : Op τ ι} (hop : outsideTick op = true)
    (hstep : RtosSystem.step P w op = some w') :
    Steps (codeStep P) ⟨w, none⟩ (.base op) ⟨w', none⟩ := by
  simp only [Steps, codeStep, admits, hop, if_true, hstep, Option.map_some]

/-- The runs with atomic ticks are among those of the handler's code. -/
theorem reached_code (h : Reached P w) :
    Reachable (Steps (codeStep P)) CodeReset (⟨w, none⟩ : CodeWorld τ ι) := by
  refine h.simulate (fun w => (⟨w, none⟩ : CodeWorld τ ι)) (fun _ hw => ⟨hw, rfl⟩) ?_
  intro w op w' hstep
  cases hop : outsideTick op with
  | true => exact ⟨_, .single (base_step hop hstep)⟩
  | false =>
      cases op with
      | tick =>
          obtain rfl := Option.some.inj hstep
          exact tick_run w
      | _ => simp [outsideTick] at hop

end Uninterrupted

section Writes

variable {S : τ → Prop} {tasks : List τ}

/-- The tasks asleep are among those of `S`. -/
def Sees (tasks : List τ) (S : τ → Prop) (k : Kernel τ ι) : Prop :=
  k.tasks = tasks ∧
    ∀ t ∈ tasks, (k.tcb t).state = .blocked ∨ (k.tcb t).state = .delayed → S t

/-- What every store of the handler leaves alone: it changes the state of tasks of `S` only,
and makes them READY. -/
structure Mild (S : τ → Prop) (k k' : Kernel τ ι) : Prop where
  frame : ∃ tcb tick pended, k' = { k with tcb := tcb, tick := tick, pended := pended }
  state : ∀ t, (k'.tcb t).state = (k.tcb t).state ∨ S t ∧ (k'.tcb t).state = .ready
  holds : ∀ t, (k'.tcb t).mutexHoldCount = (k.tcb t).mutexHoldCount

abbrev MildCode {α : Type} (tasks : List τ) (S : τ → Prop) (Q : α → Prop)
    (c : KernelCode τ ι α) : Prop :=
  c.Respects (Sees tasks S) (Mild S) Q

theorem mild_assign [DecidableEq τ] {task : τ} {f : RtosTask ι → RtosTask ι}
    (hstate : ∀ t, (f t).state = t.state ∨ S task ∧ (f t).state = .ready)
    (hholds : ∀ t, (f t).mutexHoldCount = t.mutexHoldCount) :
    MildCode tasks S (fun _ => True) (assign task f) := by
  refine respects_modify fun k => ⟨⟨_, k.tick, k.pended, rfl⟩, fun t => ?_, fun t => ?_⟩
  · rcases eq_or_ne t task with rfl | hne
    · simpa using hstate (k.tcb t)
    · simp [hne]
  · rcases eq_or_ne t task with rfl | hne
    · simpa using hholds (k.tcb t)
    · simp [hne]

theorem mild_same [DecidableEq τ] {task : τ} {f : RtosTask ι → RtosTask ι}
    (hstate : ∀ t, (f t).state = t.state)
    (hholds : ∀ t, (f t).mutexHoldCount = t.mutexHoldCount) :
    MildCode tasks S (fun _ => True) (assign task f) :=
  mild_assign (fun t => Or.inl (hstate t)) hholds

theorem mild_wake [DecidableEq τ] {task : τ} (result : Status) (htask : S task) :
    MildCode tasks S (fun _ => True) (wakeTaskCode task result : KernelCode τ ι Unit) := by
  unfold wakeTaskCode
  refine Respects.bind (mild_same (fun _ => rfl) fun _ => rfl) fun _ _ => ?_
  refine Respects.bind (mild_same (fun _ => rfl) fun _ => rfl) fun _ _ => ?_
  refine Respects.bind (mild_same (fun _ => rfl) fun _ => rfl) fun _ _ => ?_
  refine Respects.bind (mild_same (fun _ => rfl) fun _ => rfl) fun _ _ => ?_
  refine Respects.bind (mild_same (fun _ => rfl) fun _ => rfl) fun _ _ => ?_
  exact mild_assign (fun _ => Or.inr ⟨htask, rfl⟩) fun _ => rfl

theorem mild_pend :
    MildCode tasks S (fun _ => True) (pendContextSwitchCode : KernelCode τ ι Unit) :=
  respects_modify fun k => ⟨⟨k.tcb, k.tick, _, rfl⟩, fun _ => Or.inl rfl, fun _ => rfl⟩

theorem respects_get_true {α : Type} (f : Kernel τ ι → α) :
    MildCode tasks S (fun _ => True) (get f) :=
  respects_get fun _ _ => trivial

/-- A conjunction that holds has looked at its left side. -/
theorem mild_both {left right : KernelCode τ ι Bool} {Q : Prop}
    (hleft : MildCode tasks S (fun b => b = true → Q) left)
    (hright : MildCode tasks S (fun _ => True) right) :
    MildCode tasks S (fun b => b = true → Q) (both left right) := by
  refine hleft.bind fun b hb => respects_ite (fun hyes => ?_) fun _ => ?_
  · exact hright.mono fun _ _ _ => hb hyes
  · exact fun hno => absurd hno Bool.false_ne_true

/-- A task seen asleep is one of `S`. -/
theorem mild_stateIs {task : τ} {state : TaskState} (htask : task ∈ tasks)
    (hstate : state = .blocked ∨ state = .delayed) :
    MildCode tasks S (fun b => b = true → S task) (stateIs task state : KernelCode τ ι Bool) := by
  refine respects_get fun k hk hyes => hk.2 task htask ?_
  rwa [of_decide_eq_true hyes]

theorem mild_tickVisit [DecidableEq τ]
    (now : Word) (mutexTimeout : Bool) {task : τ} (htask : task ∈ tasks) :
    MildCode tasks S (fun _ => True)
      (tickVisitCode now mutexTimeout task : KernelCode τ ι Bool) := by
  refine (mild_both (mild_stateIs htask (Or.inr rfl)) (respects_get_true _)).bind
    fun due hdue => respects_ite (fun hyes => ?_) fun _ => ?_
  · refine Respects.bind (Q := fun _ => True) ?_ fun _ _ => respects_pure trivial
    exact mild_assign (fun _ => Or.inr ⟨hdue hyes, rfl⟩) fun _ => rfl
  · refine (mild_both (mild_stateIs htask (Or.inl rfl)) ?_).bind
      fun due hdue => respects_ite (fun hyes => ?_) fun _ => respects_pure trivial
    · refine (respects_get_true _).bind fun _ _ =>
        respects_ite (fun _ => ?_) fun _ => respects_pure trivial
      exact respects_get_true _
    · refine (respects_get_true _).bind fun _ _ => (mild_wake _ (hdue hyes)).bind fun _ _ => ?_
      exact respects_pure trivial

theorem mild_lookAt {α : Type} (f : Kernel τ ι → Option α) :
    MildCode tasks S (fun _ => True) (lookAt f) := by
  intro k _
  dsimp only
  split <;> trivial

variable [DecidableEq τ]

theorem mild_relaxStep (changed : Bool) (waiter : τ) :
    MildCode tasks S (fun _ => True) (relaxStep changed waiter : KernelCode τ ι Bool) := by
  have hguard : MildCode tasks S (fun _ => True)
      (both (get fun k => decide ((k.tcb waiter).state = .blocked))
        (get fun k => decide ((k.tcb waiter).waitType = .mutex)) : KernelCode τ ι Bool) :=
    (respects_get_true _).bind fun _ _ =>
      respects_ite (fun _ => respects_get_true _) fun _ => respects_pure trivial
  refine hguard.bind fun _ _ => respects_ite (fun _ => ?_) fun _ => respects_pure trivial
  refine (respects_get_true _).bind fun object _ => ?_
  cases object with
  | none => trivial
  | some mutex =>
      refine (respects_get_true _).bind fun owner _ => ?_
      cases owner with
      | none => trivial
      | some owner =>
          refine (mild_lookAt _).bind fun _ _ => (respects_get_true _).bind fun _ _ =>
            (respects_get_true _).bind fun _ _ =>
              respects_ite (fun _ => ?_) fun _ => respects_pure trivial
          refine (mild_lookAt _).bind fun _ _ => (respects_get_true _).bind fun _ _ => ?_
          refine Respects.bind (Q := fun _ => True) ?_ fun _ _ => respects_pure trivial
          exact mild_same (fun _ => rfl) fun _ => rfl

theorem mild_relaxPasses (items : List τ) (n : Nat) :
    MildCode tasks S (fun _ => True) (relaxPasses items n : KernelCode τ ι Unit) := by
  induction n with
  | zero => trivial
  | succ n ih =>
      refine (respects_foldOver false fun changed waiter _ => mild_relaxStep changed waiter).bind
        fun _ _ => ?_
      exact respects_ite (fun _ => ih) fun _ => respects_pure trivial

theorem mild_recompute :
    MildCode tasks S (fun _ => True) (recomputePrioritiesCode : KernelCode τ ι Unit) := by
  refine (respects_get_true _).bind fun items _ => ?_
  refine Respects.bind (respects_forEach fun task _ => ?_) fun _ _ => mild_relaxPasses _ _
  exact (respects_get_true _).bind fun _ _ => mild_same (fun _ => rfl) fun _ => rfl

theorem mild_tickFinish (mutexTimeout : Bool) :
    MildCode tasks S (fun _ => True) (tickFinishCode mutexTimeout : KernelCode τ ι Unit) := by
  unfold tickFinishCode
  split
  · exact mild_recompute.bind fun _ _ => mild_pend
  · exact mild_pend

/-- All of the handler's stores are mild. -/
theorem mild_sysTick : MildCode tasks S (fun _ => True) (sysTickCode : KernelCode τ ι Unit) := by
  refine (respects_get_true _).bind fun ticks _ => Respects.bind (respects_modify fun k =>
    ⟨⟨k.tcb, _, k.pended, rfl⟩, fun _ => Or.inl rfl, fun _ => rfl⟩) fun _ _ => ?_
  refine (respects_get_true _).bind fun _ _ =>
    respects_ite (fun _ => ?_) fun _ => respects_pure trivial
  refine (respects_get_true _).bind fun now _ => ?_
  refine Respects.bind (Q := fun items => items = tasks) (respects_get fun k hk => hk.1) ?_
  rintro items rfl
  exact (respects_foldOver false fun flag task htask => mild_tickVisit now flag htask).bind
    fun flag _ => mild_tickFinish flag

end Writes

end Stm32f411.TickCode
