import Stm32f411.SectionBystanders

/-!
Critical sections exclude each other, and each is one step of the kernel, on a processor that
interrupts come to wherever the hardware lets them.
-/

namespace Stm32f411.CriticalSections

open Stm32f411.LabelledRuns
open Stm32f411.MaskedSections
open Stm32f411.SettledSections
open Stm32f411.SectionRuns
open Stm32f411.RtosTypes
open Stm32f411.RtosKernel
open Stm32f411.RtosSystem
open Stm32f411.TickCode
open Stm32f411.KernelProcessor
open Stm32f411.LiveProcessor
open Stm32f411.SectionBystanders

variable {τ ι : Type} [DecidableEq τ] [DecidableEq ι]

section Runs

variable {P : Platform τ} {m : SyscallPriority}

/-- The kernel as a successful `rtos_start` leaves it. -/
structure Started (P : Platform τ) (m : SyscallPriority) (v : CodeWorld τ ι) : Prop where
  stopped : ∃ w, Reached P w ∧ w.running = false ∧
    ∃ hookRegistered tickConfigured,
      RtosSystem.step P w (.start hookRegistered tickConfigured) = some v.toWorld
  running : v.running = true
  mask : v.maxSyscallPriorityMask = m.mask
  tickCode : v.tickCode = none

theorem Started.live {v : CodeWorld τ ι} (h : Started P m v) : Live P m v := by
  obtain ⟨⟨w, hreached, hoff, hook, tick, hstep⟩, hrunning, hmask, htick⟩ := h
  have hreached' : Reached P v.toWorld := Reachable.step hreached hstep
  obtain ⟨world, run⟩ := v
  obtain rfl : run = none := htick
  have hsound := KernelSoundness.reached_sound hreached
  have hidle : ∀ t, w.inCall t = none := (CallHistory.reached_traced hreached).stopped hoff
  obtain rfl := Option.some.inj hstep
  rcases RtosBootSpec.start_cases w.toKernel hook tick with hsame | ⟨_, cursor, hk⟩ | hstart
  · simp [hsame, hoff] at hrunning
  · simp [hk, hoff] at hrunning
  · obtain ⟨_, _, first, cursor, hfirst, _, _, hk⟩ := hstart
    have hstate : ∀ t ∈ w.tasks, ((rtosStart w.toKernel hook tick).1.tcb t).state = .ready ∨
        t = first ∧ ((rtosStart w.toKernel hook tick).1.tcb t).state = .running := by
      intro t ht
      rcases eq_or_ne t first with rfl | hne
      · exact .inr ⟨rfl, by simp [hk]⟩
      · exact .inl (by simpa [hk, hne] using hsound.stopped_ready hoff t ht)
    refine ⟨reached_code hreached', hrunning, hmask, ⟨first, by simpa [hk] using hfirst,
      by simp [hk]⟩, fun t ht hasleep => ?_, fun t hself hready => ?_, by simp⟩
    · rcases hstate t (by simpa [hk] using ht) with hs | ⟨_, hs⟩ <;> simp [hs] at hasleep
    · obtain rfl : first = t := by simpa [hk] using hself
      simp [hk] at hready

/-- The states of the running processor. -/
def Runs (P : Platform τ) (m : SyscallPriority)
    (Q : Processor τ Handler (CodeWorld τ ι) (SectionOp ι)) : Prop :=
  Reachable (Steps (MaskedSections.step (kernelSystem P m)))
    (Start (kernelSystem P m) (Started P m)) Q

theorem runs_settled {Q : Processor τ Handler (CodeWorld τ ι) (SectionOp ι)} (h : Runs P m Q) :
    ∃ v, Settled (kernelSystem P m) (Live P m) Q v := by
  obtain ⟨v, _, hsettled⟩ := reached_settled kernelSystem_lawful (fun _ => Started.live) h
  exact ⟨v, hsettled⟩

/-- The sections of threads and handlers come to an end. -/
theorem section_ends {v : CodeWorld τ ι} (h : Live P m v) {a : Actor τ Handler} {o : SectionOp ι}
    (hmay : (kernelSystem P m).mayAct v a) (hactor : a ≠ .switcher)
    (htests : sectionTests P m v a o = true) : ∃ v', (sectionCode a o).run v = some ((), v') := by
  have hcaller := callerOf_mayAct hmay
  cases a with
  | thread t =>
      cases o with
      | call call =>
          simp only [sectionTests, Bool.and_eq_true, h.configured] at htests
          exact ⟨_, run_callSection (modeOf_numbered _) hcaller htests.2⟩
      | taskReturn => exact ⟨_, by simp [sectionCode, taskReturnCode]; rfl⟩
      | schedule stackValid => simp [sectionTests] at htests
  | service handler =>
      cases o with
      | call call =>
          simp only [sectionTests, h.configured] at htests
          exact ⟨_, run_callSection (modeOf_numbered _) hcaller htests⟩
      | _ => simp [sectionTests] at htests
  | clock => simp [sectionTests] at htests
  | switcher => exact absurd rfl hactor

end Runs

section Demo

def demoPriority : SyscallPriority := ⟨5, by decide, by decide⟩

/-- Too urgent for BASEPRI to hold back. -/
def demoUrgent : Handler := ⟨20, ⟨3, by decide⟩, by decide⟩

def demoProcessor : Processor Nat Handler (CodeWorld Nat Nat) (SectionOp Nat) where
  mask := 0
  thread := 2
  activity := fun _ => .outside
  handlers := []
  shared := ⟨demoRun demoBoot, none⟩

/-- Task 2 is two statements into its take of semaphore 1 when a handler comes. -/
def demoTake : List (MaskedSections.Event Nat Handler (SectionOp Nat) (FreeOp Nat) ClockOp) :=
  [.test (.call (.semaphoreTake (some 1) 3)), .save, .raise, .access, .access,
    .take (.service demoUrgent)]

def demoInside : Processor Nat Handler (CodeWorld Nat Nat) (SectionOp Nat) :=
  (exec (MaskedSections.step (kernelSystem demoPlatform demoPriority)) demoProcessor
    demoTake).getD demoProcessor

theorem demoProcessor_start :
    Start (kernelSystem demoPlatform demoPriority) (Started demoPlatform demoPriority)
      demoProcessor where
  mask := rfl
  handlers := rfl
  activity _ := rfl
  shared :=
    { stopped := ⟨demoRun demoBoot.dropLast, demoRun_reached _, by decide, true, true,
        demoRun_step demoBoot.dropLast (.start true true) (by decide)⟩
      running := by decide
      mask := by decide
      tickCode := rfl }
  current := by decide
  clockIdle := rfl

theorem demoInside_runs : Runs demoPlatform demoPriority demoInside :=
  ⟨demoProcessor, demoTake, demoProcessor_start, exec_run (by decide)⟩

theorem demoInside_inside : demoInside.Inside (.thread 2) :=
  .inl ⟨2, rfl, _, _, _, rfl⟩

end Demo

section Results

variable {P : Platform τ} {m : SyscallPriority}

/-- At most one context is in a critical section; meanwhile nobody else writes to the
kernel, and whoever leaves the processor leaves BASEPRI as it was. -/
theorem sections_exclude {Q : Processor τ Handler (CodeWorld τ ι) (SectionOp ι)}
    (h : Runs P m Q) :
    (∀ a b, Q.Inside a → Q.Inside b → a = b) ∧
      (∀ a event Q', Q.Inside a → MaskedSections.step (kernelSystem P m) Q event = some Q' →
        Q.top.actor ≠ a → Q'.shared = Q.shared) ∧
      ∀ Q', MaskedSections.step (kernelSystem P m) Q .leave = some Q' →
        Q'.mask = Q.top.entryMask := by
  obtain ⟨v, hsettled⟩ := runs_settled h
  refine ⟨fun a b => settled_exclusion hsettled, fun a event Q' ha hstep hother => ?_,
    fun Q' hstep => leave_restores hsettled (MaskedSections.step_cases hstep)⟩
  exact (settled_untouched hsettled ha (MaskedSections.step_cases hstep)).resolve_right hother

theorem sections_exclude_demo :
    (∀ a, demoInside.Inside a → a = .thread 2) ∧
      ∀ Q', MaskedSections.step (kernelSystem demoPlatform demoPriority) demoInside .leave =
        some Q' → Q'.mask = 80 := by
  obtain ⟨hone, _, hleave⟩ := sections_exclude demoInside_runs
  exact ⟨fun a ha => hone a _ ha demoInside_inside, hleave⟩

/-- However interrupts cut the sections up, the kernel behind them is one that calls in one
piece reach: outside sections it is that kernel, and an open section has left to do what
makes its call one such step. -/
theorem sections_atomic {Q : Processor τ Handler (CodeWorld τ ι) (SectionOp ι)}
    (h : Runs P m Q) :
    ∃ v, Reachable (Steps (codeStep P)) CodeReset v ∧ ((∀ a, ¬Q.Inside a) → Q.shared = v) ∧
      ∀ f ∈ Q.frames, ∀ o previous rest, f.activity = .inside o previous rest →
        (f.actor ≠ .switcher → ∃ v', rest.run Q.shared = some ((), v')) ∧
        ∀ v', rest.run Q.shared = some ((), v') →
          codeStep P v (opOf (.op f.actor o)) = some v' := by
  obtain ⟨v, hsettled⟩ := runs_settled h
  have hlive := hsettled.ok
  refine ⟨v, hlive.reached, shared_eq_settled hsettled, fun f hf o previous rest hin => ?_⟩
  obtain ⟨hmay, htests, hrun⟩ := open_section hsettled hf hin
  rw [← hrun]
  exact ⟨fun hactor => section_ends hlive hmay hactor (htests.resolve_left hactor),
    fun v' hdone => section_codeStep hlive hmay htests hdone⟩

theorem sections_atomic_demo :
    ∃ v v', Reachable (Steps (codeStep demoPlatform)) CodeReset v ∧
      codeStep demoPlatform v (.base (.call .thread (.semaphoreTake (some (1 : Nat)) 3))) =
        some v' := by
  obtain ⟨v, hreached, _, hopen⟩ := sections_atomic demoInside_runs
  obtain ⟨hends, hstep⟩ := hopen demoInside.threadFrame (by simp [Processor.frames]) _ _ _ rfl
  obtain ⟨v', hdone⟩ := hends (by decide)
  exact ⟨v, v', hreached, hstep v' hdone⟩

end Results

end Stm32f411.CriticalSections
