import Mathlib.Order.Interval.Set.Disjoint
import Stm32f411.ContextInvariant

/-!
A task that is resumed finds its registers as they were when it was last interrupted, and a
task that is dispatched for the first time finds the frame it was created with.
-/

namespace Stm32f411.ContextPreservation

open Stm32f411.LabelledRuns
open Stm32f411.RtosTypes
open Stm32f411.RtosKernel
open Stm32f411.RtosSystem hiding demoBoot
open Stm32f411.RtosStepSpec
open Stm32f411.TaskStacks
open Stm32f411.TaskRegistry
open Stm32f411.ContextSwitch
open Stm32f411.ContextSaves
open Stm32f411.ContextFrames
open Stm32f411.ContextInvariant

variable {τ ι : Type} [DecidableEq τ]

section Runs

variable {B : Board τ} {m m' : Mcu τ ι} {happening : Happening τ ι}

/-- The task that a step dispatches, with the registers it finds. -/
def dispatched : Happening τ ι → Option (τ × Cpu)
  | .started first found => some (first, found)
  | .switched _ _ next found => some (next, found)
  | _ => none

/-- The task that `rtos_select_next` chooses in a step. At a switch the interrupted task is
ready again if it ran. -/
def chosen (m : Mcu τ ι) : Happening τ ι → Option τ
  | .started _ _ => (rtosSelectNext { m.world.toKernel with tick := 0 }).2
  | .switched out saved _ _ =>
      (rtosSelectNext (switchedOut (savedIn m.world.toKernel out saved m.ram))).2
  | _ => none

/-- The step leaves the processor to the chosen task. -/
structure Dispatches (m : Mcu τ ι) (happening : Happening τ ι) (m' : Mcu τ ι) (task : τ)
    (found : Cpu) : Prop where
  chosen : chosen m happening = some task
  current : m'.world.currentTask = some task
  state : (m'.world.tcb task).state = .running
  cpu : m'.cpu = found

/-- A step that leaves the registered stacks apart. -/
def Switching [DecidableEq ι]
    (B : Board τ) (m : Mcu τ ι) (happening : Happening τ ι) (m' : Mcu τ ι) : Prop :=
  McuStep B m happening m' ∧ StacksApart m'.world.toKernel

/-- What one step does to the last interruptions. -/
def interrupted (last : τ → Option Cpu) : Happening τ ι → τ → Option Cpu
  | .switched out saved _ _ => Function.update last out (some saved)
  | _ => last

theorem lastInterrupted_snoc (happenings : List (Happening τ ι)) (happening : Happening τ ι) :
    lastInterrupted (happenings ++ [happening]) =
      interrupted (lastInterrupted happenings) happening := by
  funext t
  rw [lastInterrupted, List.foldl_append]
  cases happening with
  | switched out saved next found =>
      change (if out = t then some saved else lastInterrupted happenings t) = _
      rw [interrupted, Function.update_apply]
      exact if_congr eq_comm rfl rfl
  | _ => rfl

variable [DecidableEq ι]

theorem sound_step {last : τ → Option Cpu} (h : Sound B last m)
    (hstep : Switching B m happening m') :
    Sound B (interrupted last happening) m' ∧ ∀ task found,
      dispatched happening = some (task, found) →
        Dispatches m happening m' task found ∧
          Finds B m'.ram task (m'.world.tcb task) found (interrupted last happening task) := by
  obtain ⟨hmove, hapart⟩ := hstep
  cases hmove with
  | boot call hcall _ _ => exact ⟨h.boot hcall hapart, fun _ _ hnone => by cases hnone⟩
  | op hplain hop =>
      refine ⟨h.same (sameContexts_plain hplain hop) fun _ _ _ _ _ => rfl, ?_⟩
      exact fun _ _ hnone => by cases hnone
  | ran ram cpu hram =>
      exact ⟨h.same (sameContexts_refl _) hram, fun _ _ hnone => by cases hnone⟩
  | @refused hookRegistered tickConfigured k result hresult hfail =>
      have heffect := start_effect m.world.toKernel hookRegistered tickConfigured
      rw [hresult] at heffect
      have hsame := (heffect.resolve_right fun hok => hfail hok.1).2
      exact ⟨h.same hsame fun _ _ _ _ _ => rfl, fun _ _ hnone => by cases hnone⟩
  | @started hookRegistered tickConfigured k first found hresult hfirst hfound =>
      have heffect := start_effect m.world.toKernel hookRegistered tickConfigured
      rw [hresult] at heffect
      have hstart := (heffect.resolve_left fun hfail => hfail.1 rfl).2
      obtain ⟨hsound, hfinds⟩ := h.start hstart hfirst hfound
      obtain ⟨hchosen, hrunning⟩ := start_selects hresult hfirst
      refine ⟨hsound, fun task found' hdispatched => ?_⟩
      obtain ⟨rfl, rfl⟩ := Prod.mk.inj (Option.some.inj hdispatched)
      exact ⟨⟨hchosen, hfirst, hrunning, rfl⟩, hfinds⟩
  | switched hrunning hout hroom hswitch hnext =>
      obtain ⟨hsound, hfinds⟩ := h.switch hrunning hout hroom hswitch hnext
      obtain ⟨-, -, hswitched, hchosen⟩ := pendSV_ok hswitch hout hnext
      refine ⟨hsound, fun task found' hdispatched => ?_⟩
      obtain ⟨rfl, rfl⟩ := Prod.mk.inj (Option.some.inj hdispatched)
      refine ⟨⟨hchosen, hnext, ?_, rfl⟩, hfinds⟩
      rw [hswitched.tcb_eq, if_pos rfl]

theorem run_sound {m₀ : Mcu τ ι} {happenings : List (Happening τ ι)} (hreset : Reset m₀.world)
    (hrun : Run (Switching B) m₀ happenings m) : Sound B (lastInterrupted happenings) m := by
  induction hrun with
  | nil =>
      have hnone : ∀ t, t ∉ m₀.world.tasks := fun t ht => by simp [hreset.tasks] at ht
      refine ⟨⟨fun t ht => absurd ht (hnone t), by simp [hreset.tasks]⟩,
        fun t ht => absurd ht (hnone t), fun _ => ⟨hreset.currentTask, fun _ => rfl⟩,
        fun t ht => ?_, fun t ht => absurd ht (hnone t)⟩
      rw [hreset.currentTask] at ht
      cases ht
  | snoc _ hlast ih =>
      rw [lastInterrupted_snoc]
      exact (sound_step ih hlast).1

/-- Whoever is dispatched is the scheduler's choice and finds the registers of its last
interruption; a task that never ran finds the frame it was created with. -/
theorem contexts_preserved (B : Board τ) {m₀ m m' : Mcu τ ι}
    {happenings : List (Happening τ ι)} {happening : Happening τ ι} {task : τ} {found : Cpu}
    (hreset : Reset m₀.world) (hrun : Run (Switching B) m₀ happenings m)
    (hstep : Switching B m happening m') (hdispatched : dispatched happening = some (task, found)) :
    Dispatches m happening m' task found ∧ Finds B m'.ram task (m'.world.tcb task) found
      (lastInterrupted (happenings ++ [happening]) task) := by
  rw [lastInterrupted_snoc]
  exact (sound_step (run_sound hreset hrun) hstep).2 task found hdispatched

end Runs

section Demo

def demoMcu : Mcu Nat Nat where
  world := demoReset
  ram := fun _ => 0
  cpu := ⟨fun _ => 0, fun _ => 0, 0, 0⟩

def demoBoot (m : Mcu Nat Nat) (call : BootCall Nat) : Mcu Nat Nat :=
  { m with
    world := { m.world with
      toKernel := (bootCall demoBoard ⟨m.world.toKernel, m.ram⟩ call).1.kernel }
    ram := (bootCall demoBoard ⟨m.world.toKernel, m.ram⟩ call).1.ram }

/-- Two tasks of one priority. -/
def demoFirst : BootCall Nat := demoCreate 1 0x20000000 128
def demoSecond : BootCall Nat := demoCreate 2 0x20000200 128

def demoReady : Mcu Nat Nat :=
  demoBoot (demoBoot (demoBoot demoMcu demoInit) demoFirst) demoSecond

/-- Task 1 runs. -/
def demoStarted : Mcu Nat Nat :=
  let k := (rtosStart demoReady.world.toKernel true true).1
  { demoReady with
    world := { demoReady.world with toKernel := k }
    cpu := svcHandler demoReady.ram (k.tcb 1) demoReady.cpu }

/-- The registers of a task that uses the floating-point unit, and of one that does not. -/
def demoFloating : Cpu :=
  ⟨fun i => 0x40 + BitVec.ofNat 32 i, fun i => 0x80 + BitVec.ofNat 32 i, 0x20000180, 0xFFFFFFED⟩

def demoBasic : Cpu :=
  ⟨fun i => 0xC0 + BitVec.ofNat 32 i, fun _ => 0, 0x20000380, 0xFFFFFFFD⟩

def demoRan (m : Mcu Nat Nat) (cpu : Cpu) : Mcu Nat Nat := { m with cpu := cpu }

/-- A PendSV. -/
def demoSwitch (m : Mcu Nat Nat) : Mcu Nat Nat :=
  match pendSVHandler m.world.toKernel m.ram m.cpu with
  | .ok (k, ram, cpu) => ⟨{ m.world with toKernel := k }, ram, cpu⟩
  | .error _ => m

/-- Task 2 runs for the first time. -/
def demoSwitched : Mcu Nat Nat := demoSwitch (demoRan demoStarted demoFloating)

def demoResumed : Mcu Nat Nat := demoSwitch (demoRan demoSwitched demoBasic)

theorem demoSwitch_step {m : Mcu Nat Nat} {out next : Nat} (hrunning : m.world.running = true)
    (hout : m.world.currentTask = some out) (hroom : RoomToSave (m.world.tcb out) m.cpu)
    (hok : (pendSVHandler m.world.toKernel m.ram m.cpu).isOk = true)
    (hnext : (demoSwitch m).world.currentTask = some next) :
    McuStep demoBoard m (.switched out m.cpu next (demoSwitch m).cpu) (demoSwitch m) := by
  unfold demoSwitch at hnext ⊢
  cases hswitch : pendSVHandler m.world.toKernel m.ram m.cpu with
  | error fault =>
      rw [hswitch] at hok
      cases hok
  | ok result =>
      rw [hswitch] at hnext
      exact .switched hrunning hout hroom hswitch hnext

def demoStack : Nat → Word
  | 0 => 0x20002000
  | 1 => 0x20000000
  | _ => 0x20000200

theorem demo_apart {k : Kernel Nat Nat} (htasks : k.tasks <+: [0, 1, 2])
    (hstacks : ∀ t ∈ k.tasks, (k.tcb t).stackBase = demoStack t)
    (hwords : ∀ t ∈ k.tasks, (k.tcb t).stackWords = 128) : StacksApart k := by
  have haddresses : ∀ t ∈ k.tasks, stackAddresses (k.tcb t) =
      Set.Ico (demoStack t).toNat ((demoStack t).toNat + 512) := by
    intro t ht
    rw [stackAddresses, stackEnd, hstacks t ht, hwords t ht]
    rfl
  have hstart : ∀ t ∈ k.tasks, (demoStack t).toNat < 0x80000000 := by
    intro t ht
    unfold demoStack
    split <;> decide
  refine ⟨fun t ht => ?_, ?_⟩
  · have hlow := hstart t ht
    rw [stackEnd, hstacks t ht, hwords t ht]
    change (demoStack t).toNat + 512 < 2 ^ 32
    omega
  · have hpairs : [0, 1, 2].Pairwise fun t u =>
        Disjoint (Set.Ico (demoStack t).toNat ((demoStack t).toNat + 512))
          (Set.Ico (demoStack u).toNat ((demoStack u).toNat + 512)) := by
      simp only [Set.Ico_disjoint_Ico]
      decide
    refine (hpairs.sublist htasks.sublist).imp_of_mem fun ht hu hdisjoint => ?_
    rwa [haddresses _ ht, haddresses _ hu]

theorem demoStarted_run : Run (Switching demoBoard) demoMcu
    [.boot demoInit, .boot demoFirst, .boot demoSecond, .started 1 demoStarted.cpu]
    demoStarted := by
  have hinit : Switching demoBoard demoMcu (.boot demoInit) (demoBoot demoMcu demoInit) := by
    refine ⟨.boot demoInit rfl (fun h => h) fun task htask => ?_,
      demo_apart (by decide) (by decide) (by decide)⟩
    obtain rfl := Option.some.inj htask
    decide
  have hfirst : Switching demoBoard (demoBoot demoMcu demoInit) (.boot demoFirst)
      (demoBoot (demoBoot demoMcu demoInit) demoFirst) := by
    refine ⟨.boot demoFirst rfl (fun h => h.2 ⟨by decide, by decide⟩) fun task htask => ?_,
      demo_apart (by decide) (by decide) (by decide)⟩
    obtain rfl := Option.some.inj htask
    decide
  have hsecond : Switching demoBoard (demoBoot (demoBoot demoMcu demoInit) demoFirst)
      (.boot demoSecond) demoReady := by
    refine ⟨.boot demoSecond rfl (fun h => h.2 ⟨by decide, by decide⟩) fun task htask => ?_,
      demo_apart (by decide) (by decide) (by decide)⟩
    obtain rfl := Option.some.inj htask
    decide
  have hok : rtosStart demoReady.world.toKernel true true = (demoStarted.world.toKernel, .ok) :=
    Prod.ext rfl (by decide)
  have hstart : Switching demoBoard demoReady (.started 1 demoStarted.cpu) demoStarted :=
    ⟨.started hok (by decide) rfl, demo_apart (by decide) (by decide) (by decide)⟩
  exact .cons hinit (.cons hfirst (.cons hsecond (.single hstart)))

theorem demoRan_step {m : Mcu Nat Nat} (cpu : Cpu) (h : StacksApart m.world.toKernel) :
    Switching demoBoard m .ran (demoRan m cpu) :=
  ⟨.ran m.ram cpu fun _ _ _ _ _ => rfl, h⟩

theorem demoSwitched_apart : StacksApart demoSwitched.world.toKernel :=
  demo_apart (by decide +kernel) (by decide +kernel) (by decide +kernel)

theorem demoSwitched_step : Switching demoBoard (demoRan demoStarted demoFloating)
    (.switched 1 demoFloating 2 demoSwitched.cpu) demoSwitched :=
  ⟨demoSwitch_step (by decide) (by decide) ⟨by decide, by decide, by decide⟩
    (by decide +kernel) (by decide +kernel), demoSwitched_apart⟩

/-- Task 1 is interrupted with a floating-point frame, task 2 finds the frame it was created
with, and task 1 finds its registers again. -/
theorem contexts_preserved_demo :
    FindsFrame demoBoard demoSwitched.ram 2 (demoSwitched.world.tcb 2) demoSwitched.cpu ∧
      FindsContext demoFloating demoResumed.cpu := by
  have hran : Run (Switching demoBoard) demoMcu _ (demoRan demoStarted demoFloating) :=
    demoStarted_run.snoc (demoRan_step demoFloating
      (demo_apart (by decide) (by decide) (by decide)))
  have hresumed : Switching demoBoard (demoRan demoSwitched demoBasic)
      (.switched 2 demoBasic 1 demoResumed.cpu) demoResumed :=
    ⟨demoSwitch_step (by decide +kernel) (by decide +kernel)
      ⟨by decide, by decide +kernel, by decide +kernel⟩ (by decide +kernel) (by decide +kernel),
      demo_apart (by decide +kernel) (by decide +kernel) (by decide +kernel)⟩
  have hlater := (hran.snoc demoSwitched_step).snoc (demoRan_step demoBasic demoSwitched_apart)
  exact ⟨(contexts_preserved demoBoard demoReset_reset hran demoSwitched_step rfl).2,
    (contexts_preserved demoBoard demoReset_reset hlater hresumed rfl).2⟩

end Demo

end Stm32f411.ContextPreservation
