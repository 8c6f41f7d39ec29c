import Stm32f411.LiveProcessor

/-!
What a step of one context leaves alone: the tests that another context has passed on its way
to a section still hold when it gets there.
-/

namespace Stm32f411.SectionBystanders

open Stm32f411.MaskedSections
open Stm32f411.SettledSections
open Stm32f411.RtosTypes
open Stm32f411.RtosKernel
open Stm32f411.RtosSystem
open Stm32f411.RtosTickSteps (outsideTick interrupts)
open Stm32f411.RtosKernelSpec
open Stm32f411.RtosCallSpec
open Stm32f411.RtosStepSpec
open Stm32f411.SectionCode
open Stm32f411.TickCode
open Stm32f411.KernelProcessor
open Stm32f411.LiveProcessor

variable {τ ι : Type}

section Bystanders

variable {P : Platform τ} {m : SyscallPriority} {v v' : CodeWorld τ ι} {w w' : World τ ι} {t : τ}

/-- What the tests of a thread read about itself is as before. -/
structure Bystander (w w' : World τ ι) (t : τ) : Prop where
  inCall : w'.inCall t = w.inCall t
  awake : Runnable w'.toKernel t
  holds : (w'.tcb t).mutexHoldCount = (w.tcb t).mutexHoldCount

theorem runnable_state {k k' : Kernel τ ι} (hstate : (k'.tcb t).state = (k.tcb t).state)
    (hawake : Runnable k t) : Runnable k' t := by
  unfold Runnable at hawake ⊢
  rwa [hstate]

variable [DecidableEq τ]

theorem bystander_call [DecidableEq ι]
    {mode : Mode} {call : Call ι} (hmode : modeRuns P w mode = true)
    (hother : callerOf w.toKernel mode ≠ some t) (hawake : Runnable w.toKernel t) :
    Bystander w (callStep w mode call) t := by
  have hnot : ∀ {k : Kernel τ ι} {event : Event τ ι}, k = w.toKernel.record event →
      ¬ThreadCall k mode t := by
    rintro k event rfl hcall
    exact hother (callerOf_thread ⟨hcall.mode_eq, hcall.running, hcall.current⟩)
  have hblocked : (w.tcb t).state ≠ .blocked := by
    rcases hawake with hs | hs <;> simp [hs]
  have hsystem := callStep_system hmode call
  generalize callStep w mode call = w' at hsystem
  cases hsystem with
  | quiet hquiet _ => exact absurd hquiet (by simp [IsQuiet])
  | @returned _ _ k' _ _ _ heffect =>
      obtain ⟨_, _, hkept⟩ := heffect.untouched (hnot rfl) hblocked
      refine ⟨rfl, ?_, (CallEffect.steady heffect).holds t (hnot rfl) hblocked⟩
      exact runnable_state (by simp [hkept, callEntered]) hawake
  | @suspended _ _ k' self _ hthread _ heffect =>
      obtain ⟨_, _, hkept⟩ := heffect.untouched (hnot rfl) hblocked
      have hne : t ≠ self := by
        rintro rfl
        exact hother (callerOf_thread hthread)
      refine ⟨by simp [hne], ?_, (CallEffect.steady heffect).holds t (hnot rfl) hblocked⟩
      exact runnable_state (by simp [hkept, callEntered]) hawake

theorem bystander_resume {call : Call ι} {self : τ} (hne : t ≠ self)
    (hawake : Runnable w.toKernel t) : Bystander w (resumeStep w self call) t :=
  ⟨by simp [resumeStep, hne], hawake, rfl⟩

theorem bystander_return {self : τ} (hne : t ≠ self) (hawake : Runnable w.toKernel t) :
    Bystander w
      { w with
        toKernel := rtosPortPendContextSwitch
          (w.toKernel.modifyTask self fun t => { t with state := .terminated }) } t := by
  exact ⟨rfl, runnable_state (by simp [rtosPortPendContextSwitch, hne]) hawake,
    by simp [rtosPortPendContextSwitch, hne]⟩

theorem bystander_switch {k' : Kernel τ ι} {next : τ} (hswitch : Switched w.toKernel next k')
    (hawake : Runnable w.toKernel t) : Bystander w { w with toKernel := k' } t :=
  ⟨rfl, (hswitch.runnable_iff t).mpr hawake, by simp [hswitch.tcb_eq]⟩

variable [DecidableEq ι]

theorem callerOf_mayAct {a : Actor τ Handler} (hmay : (kernelSystem P m).mayAct v a) :
    callerOf v.toKernel (modeOf a) = callerName a := by
  cases a with
  | thread self => exact hmay.1
  | _ => rfl

/-- Only the current thread returns, from its task or from a call. -/
theorem taskReturn_thread {a : Actor τ Handler}
    (hatomic : Atomic (kernelSystem P m) v (.op a .taskReturn) v') :
    ∃ self, a = .thread self ∧ v.currentTask = some self := by
  cases hatomic with
  | op hmay htests hrun =>
      cases a with
      | thread self => exact ⟨self, rfl, hmay.1⟩
      | switcher => simp [kernelSystem, sectionCode] at hrun
      | _ => simp [kernelSystem, sectionTests] at htests

theorem resume_thread {a : Actor τ Handler}
    (hatomic : Atomic (kernelSystem P m) v (.free a .resume) v') :
    ∃ self, a = .thread self ∧ v.currentTask = some self := by
  cases hatomic with
  | free hmay hfree =>
      cases a with
      | thread self => exact ⟨self, rfl, hmay.1⟩
      | _ => simp [kernelSystem, freeStep] at hfree

theorem mayAct_of_atomic {l : Label τ Handler (SectionOp ι) (FreeOp ι) ClockOp}
    (hatomic : Atomic (kernelSystem P m) v l v') : (kernelSystem P m).mayAct v l.actor := by
  cases hatomic with
  | op hmay _ _ => exact hmay
  | free hmay _ => exact hmay
  | clock _ => trivial

theorem bystander_called {a : Actor τ Handler} {call : Call ι}
    (hmay : (kernelSystem P m).mayAct v a)
    (hstep : codeStep P v (.base (.call (modeOf a) call)) = some v')
    (hother : a ≠ .thread t) (hawake : Runnable v.toKernel t) :
    Bystander v.toWorld v'.toWorld t := by
  obtain ⟨_, w', hsystem, rfl⟩ := base_of_codeStep hstep
  simp only [RtosSystem.step, Option.ite_none_right_eq_some, Option.some.injEq] at hsystem
  obtain ⟨hmode, rfl⟩ := hsystem
  apply bystander_call hmode _ hawake
  rw [callerOf_mayAct hmay]
  intro hname
  cases a with
  | thread self => exact hother (congrArg Actor.thread (Option.some.inj hname))
  | _ => cases hname

theorem bystander_clock {x : ClockOp} (h : Live P m v) (hstep : codeStep P v x.codeOp = some v')
    (hawake : Runnable v.toKernel t) : Bystander v.toWorld v'.toWorld t := by
  cases clock_cases hstep with
  | entered _ => exact ⟨rfl, hawake, rfl⟩
  | @accessed c next k' hcode haccess =>
      obtain ⟨_, rfl | hmild⟩ := (h.code c hcode).step ⟨rfl, h.asleep⟩ haccess
      · exact ⟨rfl, hawake, rfl⟩
      · refine ⟨rfl, ?_, hmild.holds t⟩
        rcases hmild.state t with hsame | ⟨_, hready⟩
        · exact runnable_state hsame hawake
        · exact .inl hready
  | left => exact ⟨rfl, hawake, rfl⟩

theorem bystander {l : Label τ Handler (SectionOp ι) (FreeOp ι) ClockOp} (h : Live P m v)
    (hatomic : Atomic (kernelSystem P m) v l v') (hother : l.actor ≠ .thread t)
    (hawake : Runnable v.toKernel t) : Bystander v.toWorld v'.toWorld t := by
  have hstep := atomic_codeStep h hatomic
  have hmay := mayAct_of_atomic hatomic
  cases l with
  | op a o =>
      cases o with
      | call call => exact bystander_called hmay hstep hother hawake
      | taskReturn =>
          obtain ⟨_, rfl, hcurrent⟩ := taskReturn_thread hatomic
          obtain ⟨_, w', hsystem, rfl⟩ := base_of_codeStep hstep
          obtain ⟨self, hself, _, _, rfl⟩ := taskReturn_step hsystem
          obtain rfl := Option.some.inj (hself.symm.trans hcurrent)
          exact bystander_return (fun heq => hother (congrArg Actor.thread heq.symm)) hawake
      | schedule stackValid =>
          obtain ⟨_, w', hsystem, rfl⟩ := base_of_codeStep hstep
          obtain ⟨_, k', hschedule, rfl⟩ := pendSV_step hsystem
          obtain ⟨next, hswitch⟩ := schedule_ok hschedule
          exact bystander_switch hswitch hawake
  | free a x =>
      cases x with
      | call call => exact bystander_called hmay hstep hother hawake
      | resume =>
          obtain ⟨self, rfl, hcurrent⟩ := resume_thread hatomic
          obtain ⟨_, w', hsystem, rfl⟩ := base_of_codeStep hstep
          simp only [RtosSystem.step, hcurrent, Option.ite_none_right_eq_some,
            Option.map_eq_some_iff] at hsystem
          obtain ⟨_, call, _, rfl⟩ := hsystem
          exact bystander_resume (fun heq => hother (congrArg Actor.thread heq.symm)) hawake
      | write buffer bytes =>
          obtain ⟨_, w', hsystem, rfl⟩ := base_of_codeStep hstep
          obtain rfl := Option.some.inj hsystem
          exact ⟨rfl, hawake, rfl⟩
  | clock x => exact bystander_clock h hstep hawake

omit [DecidableEq ι] in
theorem quiet_objects {k k' : Kernel τ ι} (hstep : RunningStep P k k') :
    k'.objects = k.objects := by
  cases hstep with
  | switched hswitch =>
      obtain ⟨_, _, _, _, rfl⟩ := hswitch
      rfl
  | _ => rfl

theorem base_kind {op : Op τ ι} (hrunning : v.running = true)
    (hstep : codeStep P v (.base op) = some v') (p : ι) :
    SameKind (v.objects p) (v'.objects p) := by
  obtain ⟨hadmits, w', hsystem, rfl⟩ := base_of_codeStep hstep
  cases step_system hsystem with
  | ticked => cases hrun : v.tickCode <;> simp [admits, hrun, outsideTick, interrupts] at hadmits
  | quiet _ hquiet =>
      rw [show _ = v.objects from quiet_objects (hquiet.running hrunning)]
      exact .refl _
  | returned _ _ heffect => exact (CallEffect.steady heffect).kind p
  | suspended _ _ _ heffect => exact (CallEffect.steady heffect).kind p
  | resumed _ _ _ => exact .refl _

theorem clock_frame {x : ClockOp} (h : Live P m v) (hstep : codeStep P v x.codeOp = some v') :
    v'.objects = v.objects ∧ v'.currentTask = v.currentTask := by
  cases clock_cases hstep with
  | entered _ => exact ⟨rfl, rfl⟩
  | @accessed c next k' hcode haccess =>
      obtain ⟨_, rfl | hmild⟩ := (h.code c hcode).step ⟨rfl, h.asleep⟩ haccess
      · exact ⟨rfl, rfl⟩
      · obtain ⟨_, _, _, rfl⟩ := hmild.frame
        exact ⟨rfl, rfl⟩
  | left => exact ⟨rfl, rfl⟩

theorem kind_step {l : Label τ Handler (SectionOp ι) (FreeOp ι) ClockOp} (h : Live P m v)
    (hatomic : Atomic (kernelSystem P m) v l v') (p : ι) :
    SameKind (v.objects p) (v'.objects p) := by
  have hstep := atomic_codeStep h hatomic
  cases l with
  | op a o => cases o <;> exact base_kind h.running hstep p
  | free a x => cases x <;> exact base_kind h.running hstep p
  | clock x =>
      rw [(clock_frame h hstep).1]
      exact .refl _

theorem callStep_currentTask {mode : Mode} (hmode : modeRuns P w mode = true) (call : Call ι) :
    (callStep w mode call).currentTask = w.currentTask := by
  have hsystem := callStep_system hmode call
  generalize callStep w mode call = w' at hsystem
  cases hsystem with
  | quiet hquiet _ => exact absurd hquiet (by simp [IsQuiet])
  | returned _ _ heffect => exact heffect.frame.currentTask
  | suspended _ _ _ heffect => exact heffect.frame.currentTask

theorem called_currentTask {mode : Mode} {call : Call ι}
    (hstep : codeStep P v (.base (.call mode call)) = some v') :
    v'.currentTask = v.currentTask := by
  obtain ⟨_, w', hsystem, rfl⟩ := base_of_codeStep hstep
  simp only [RtosSystem.step, Option.ite_none_right_eq_some, Option.some.injEq] at hsystem
  obtain ⟨hmode, rfl⟩ := hsystem
  exact callStep_currentTask hmode call

theorem current_step {l : Label τ Handler (SectionOp ι) (FreeOp ι) ClockOp} (h : Live P m v)
    (hatomic : Atomic (kernelSystem P m) v l v') (hactor : l.actor ≠ .switcher) :
    v'.currentTask = v.currentTask := by
  have hstep := atomic_codeStep h hatomic
  cases l with
  | op a o =>
      cases o with
      | call call => exact called_currentTask hstep
      | taskReturn =>
          obtain ⟨_, w', hsystem, rfl⟩ := base_of_codeStep hstep
          obtain ⟨self, _, _, _, rfl⟩ := taskReturn_step hsystem
          rfl
      | schedule stackValid =>
          cases hatomic with
          | op _ htests _ =>
              cases a with
              | switcher => exact absurd rfl hactor
              | _ => simp [kernelSystem, sectionTests] at htests
  | free a x =>
      cases x with
      | call call => exact called_currentTask hstep
      | resume =>
          obtain ⟨self, rfl, hcurrent⟩ := resume_thread hatomic
          obtain ⟨_, w', hsystem, rfl⟩ := base_of_codeStep hstep
          simp only [RtosSystem.step, hcurrent, Option.ite_none_right_eq_some,
            Option.map_eq_some_iff] at hsystem
          obtain ⟨_, call, _, rfl⟩ := hsystem
          rfl
      | write buffer bytes =>
          obtain ⟨_, w', hsystem, rfl⟩ := base_of_codeStep hstep
          obtain rfl := Option.some.inj hsystem
          rfl
  | clock x => exact (clock_frame h hstep).2

theorem base_tickCode {op : Op τ ι} (hstep : codeStep P v (.base op) = some v') :
    v'.tickCode = v.tickCode := by
  obtain ⟨_, w', _, rfl⟩ := base_of_codeStep hstep
  rfl

theorem tickCode_step {l : Label τ Handler (SectionOp ι) (FreeOp ι) ClockOp} (h : Live P m v)
    (hatomic : Atomic (kernelSystem P m) v l v') (hactor : l.actor ≠ .clock) :
    v'.tickCode = v.tickCode := by
  have hstep := atomic_codeStep h hatomic
  cases l with
  | op a o => cases o <;> exact base_tickCode hstep
  | free a x => cases x <;> exact base_tickCode hstep
  | clock x => exact absurd rfl hactor

end Bystanders

section Laws

variable {P : Platform τ} {m : SyscallPriority} {v v' : CodeWorld τ ι} {t : τ}

/-- The tests of a call read the objects' kinds and three variables of the kernel. -/
theorem callTests_congr {k k' : Kernel τ ι} {mode : Mode} (call : Call ι)
    (hkind : ∀ p, SameKind (k.objects p) (k'.objects p)) (hrun : k'.running = k.running)
    (hcurrent : k'.currentTask.isSome = k.currentTask.isSome)
    (hmask : k'.maxSyscallPriorityMask = k.maxSyscallPriorityMask) :
    callTests k' mode call = callTests k mode call := by
  have hvalid : rtosKernelThreadApiValid k' mode = rtosKernelThreadApiValid k mode := by
    rw [rtosKernelThreadApiValid, rtosKernelThreadApiValid, hrun, hcurrent]
  have haware : rtosPortIsKernelAwareIsr k' mode = rtosPortIsKernelAwareIsr k mode := by
    cases mode with
    | thread => rfl
    | handler exception priority =>
        rw [rtosPortIsKernelAwareIsr, rtosPortIsKernelAwareIsr, hmask]
  unfold callTests
  split <;> simp only [hvalid, haware, (hkind _).semaphore, (hkind _).mutex, (hkind _).queue]

theorem aware_priority {k : Kernel τ ι} {exception : Word} {priority : Nat}
    (h : rtosPortIsKernelAwareIsr k (.handler exception priority) = true) :
    (k.maxSyscallPriorityMask >>> 4).toNat ≤ priority := by
  simp only [rtosPortIsKernelAwareIsr] at h
  split at h
  · cases h
  · split at h
    · cases h
    · simp only [Bool.and_eq_true, decide_eq_true_eq] at h
      exact h.1

/-- A handler that passes the tests of a section is one the section holds back. -/
theorem callTests_aware {k : Kernel τ ι} {exception : Word} {priority : Nat} {call : Call ι}
    (hexception : exception ≠ 0) (h : callTests k (.handler exception priority) call = true) :
    (k.maxSyscallPriorityMask >>> 4).toNat ≤ priority := by
  have hinvalid : rtosKernelThreadApiValid k (.handler exception priority) = false := by
    have hipsr : ¬rtosPortGetIpsr (.handler exception priority) = 0 := hexception
    rw [rtosKernelThreadApiValid, decide_eq_false hipsr, Bool.and_false, Bool.false_and]
  unfold callTests at h
  split at h <;> simp only [hinvalid, Bool.and_false, Bool.false_and, Bool.and_eq_true,
    Bool.false_eq_true] at h
  all_goals exact aware_priority h.2

variable [DecidableEq τ]

theorem mayRun_runnable (h : mayRun P v t = true) : Runnable v.toKernel t := by
  simp only [mayRun, Bool.and_eq_true, Bool.or_eq_true, decide_eq_true_eq] at h
  exact h.2

theorem Bystander.mayRun (h : Bystander v.toWorld v'.toWorld t)
    (hmay : mayRun P v t = true) : KernelProcessor.mayRun P v' t = true := by
  simp only [KernelProcessor.mayRun, Bool.and_eq_true, Bool.or_eq_true,
    decide_eq_true_eq] at hmay ⊢
  exact ⟨⟨hmay.1.1, by rw [h.inCall]; exact hmay.1.2⟩, h.awake⟩

variable [DecidableEq ι]

theorem callTests_step {l : Label τ Handler (SectionOp ι) (FreeOp ι) ClockOp} (h : Live P m v)
    (hatomic : Atomic (kernelSystem P m) v l v') (mode : Mode) (call : Call ι) :
    callTests (configured m v') mode call = callTests (configured m v) mode call := by
  have h' := h.step hatomic
  rw [h.configured, h'.configured]
  obtain ⟨_, _, hcurrent⟩ := h.current
  obtain ⟨_, _, hcurrent'⟩ := h'.current
  exact callTests_congr call (kind_step h hatomic) (h'.running.trans h.running.symm)
    (by simp [hcurrent, hcurrent']) (h'.mask.trans h.mask.symm)

/-- Tests that a context has made stay true while others act. -/
theorem sectionTests_step {l : Label τ Handler (SectionOp ι) (FreeOp ι) ClockOp}
    {a : Actor τ Handler} {o : SectionOp ι} (h : Live P m v)
    (hatomic : Atomic (kernelSystem P m) v l v')
    (hother : ∀ t, a = .thread t → l.actor ≠ .thread t)
    (htests : sectionTests P m v a o = true) : sectionTests P m v' a o = true := by
  cases a with
  | thread t =>
      cases o with
      | call call =>
          simp only [sectionTests, Bool.and_eq_true] at htests ⊢
          have hby := bystander h hatomic (hother t rfl) (mayRun_runnable htests.1)
          exact ⟨hby.mayRun htests.1, by rw [callTests_step h hatomic]; exact htests.2⟩
      | taskReturn =>
          simp only [sectionTests, Bool.and_eq_true, decide_eq_true_eq] at htests ⊢
          have hby := bystander h hatomic (hother t rfl) (mayRun_runnable htests.1)
          exact ⟨hby.mayRun htests.1, hby.holds.trans htests.2⟩
      | schedule stackValid => exact htests
  | service handler =>
      cases o with
      | call call =>
          simp only [sectionTests] at htests ⊢
          rw [callTests_step h hatomic]
          exact htests
      | _ => exact htests
  | _ => exact htests

theorem kernelSystem_lawful : Lawful (kernelSystem P m) (Live P m : CodeWorld τ ι → Prop) where
  free_switcher _ x := by cases x <;> rfl
  aware v handler o h := by
    cases o with
    | call call =>
        have hpriority := callTests_aware handler.exception_ne h
        rw [show (configured m v).maxSyscallPriorityMask = m.mask from rfl,
          m.mask_shift] at hpriority
        exact Nat.mul_le_mul_left 16 hpriority
    | _ => simp [kernelSystem, sectionTests] at h
  preserves _ _ _ h hatomic := h.step hatomic
  keeps _ _ _ _ _ h hatomic hother htests := sectionTests_step h hatomic hother htests
  current _ _ _ h hatomic hactor := current_step h hatomic hactor
  clockIdle v l v' h hatomic hactor hidle := by
    show v'.tickCode.isNone = true
    rw [tickCode_step h hatomic hactor]
    exact hidle

end Laws

end Stm32f411.SectionBystanders
