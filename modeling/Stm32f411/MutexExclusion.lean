import Stm32f411.CallHistory

/-!
Each mutex in the history of a run. Grants and unlocks alternate, the owner field names
the task of the last grant, and a lock returns RTOS_OK exactly if it was granted.
-/

namespace Stm32f411.MutexExclusion

open Stm32f411.OpenSpans
open Stm32f411.LabelledRuns
open Stm32f411.RtosTypes
open Stm32f411.RtosKernel
open Stm32f411.RtosIpc
open Stm32f411.RtosSystem
open Stm32f411.RtosKernelSpec
open Stm32f411.RtosBootSpec
open Stm32f411.RtosCallSpec
open Stm32f411.RtosStepSpec
open Stm32f411.KernelSoundness
open Stm32f411.PriorityInheritance
open Stm32f411.CallTraces
open Stm32f411.CallHistory

variable {τ ι : Type}

/-- A grant or an unlock of `p`. -/
def Transfers (p : ι) : Event τ ι → Prop
  | .locked q _ => q = p
  | .unlocked q _ => q = p
  | _ => False

/-- Grants and unlocks of `p` alternate, each unlock by the task of the grant before it;
the last component is the task that holds `p` in the end. -/
inductive Alternates (p : ι) : List (Event τ ι) → Option τ → Prop
  | start : Alternates p [] none
  | other {log : List (Event τ ι)} {event : Event τ ι} {owner : Option τ} :
      Alternates p log owner → ¬Transfers p event → Alternates p (log ++ [event]) owner
  | grant {log : List (Event τ ι)} {t : τ} :
      Alternates p log none → Alternates p (log ++ [.locked p t]) (some t)
  | unlock {log : List (Event τ ι)} {t : τ} :
      Alternates p log (some t) → Alternates p (log ++ [.unlocked p t]) none

def Excludes (p : ι) (k : Kernel τ ι) : Prop :=
  Alternates p k.log (k.objects p).owner?

section Rules

variable {P : Platform τ} {k k' : Kernel τ ι} {p : ι}

theorem Alternates.extend {log more : List (Event τ ι)} {owner : Option τ}
    (h : Alternates p log owner) (hmore : ∀ event ∈ more, ¬Transfers p event) :
    Alternates p (log ++ more) owner := by
  induction more generalizing log with
  | nil => simpa using h
  | cons event more ih =>
      have hevent := h.other (hmore event (by simp))
      simpa using ih hevent fun e he => hmore e (by simp [he])

/-- The mutex stays as it is while the history grows by other events. -/
theorem Excludes.extend (h : Excludes p k) (more : List (Event τ ι))
    (hlog : k'.log = k.log ++ more) (hmore : ∀ event ∈ more, ¬Transfers p event)
    (howner : (k'.objects p).owner? = (k.objects p).owner?) : Excludes p k' := by
  rw [Excludes, hlog, howner]
  exact Alternates.extend h hmore

variable [DecidableEq τ] [DecidableEq ι]

theorem Excludes.callEffect (h : Excludes p k) {mode : Mode} {call : Call ι}
    {outcome : Outcome} (heffect : CallEffect k mode call k' outcome) : Excludes p k' := by
  cases heffect with
  | refused _ _ => exact h
  | ignored _ => exact h
  | yielded _ _ => exact h
  | delayed _ _ _ => exact h
  | slept _ _ _ _ _ => exact h
  | sleptOnMutex _ _ _ _ _ _ => exact h
  | @took self q s _ _ hobj _ =>
      exact h.extend [.took q self] rfl (by simp [Transfers])
        (setObject_view Object.owner? (by simp [hobj]) p)
  | gave _ hobj _ _ =>
      exact h.extend [] (by simp) (by simp) (setObject_view Object.owner? (by simp [hobj]) p)
  | @gaveTo _ q _ waiter _ _ _ =>
      exact h.extend [.took q waiter] (by simp) (by simp [Transfers]) (by simp)
  | @locked self q m _ _ _ hobj howner =>
      rcases eq_or_ne p q with rfl | hne
      · have hfree : Alternates p k.log none := by
          simpa [Excludes, hobj, howner] using h
        simpa [Excludes] using hfree.grant
      · exact h.extend [.locked q self] rfl (by simp [Transfers, hne.symm])
          (by simp [hne])
  | @unlocked self q m _ hobj howner _ =>
      rcases eq_or_ne p q with rfl | hne
      · have howned : Alternates p k.log (some self) := by
          simpa [Excludes, hobj, howner] using h
        simpa [Excludes, releaseHold] using howned.unlock
      · exact h.extend [.unlocked q self] rfl (by simp [Transfers, hne.symm])
          (by simp [releaseHold, hne])
  | @unlockedTo self waiter q m _ hobj howner _ =>
      rcases eq_or_ne p q with rfl | hne
      · have howned : Alternates p k.log (some self) := by
          simpa [Excludes, hobj, howner] using h
        simpa [Excludes, releaseHold, grantHold] using howned.unlock.grant (t := waiter)
      · exact h.extend [.unlocked q self, .locked q waiter]
          (by simp [releaseHold, grantHold]) (by simp [Transfers, hne.symm])
          (by simp [releaseHold, grantHold, hne])
  | @sent _ q s _ _ hobj _ _ =>
      exact h.extend _ rfl (by simp [Transfers]) (setObject_view Object.owner? (by simp [hobj]) p)
  | @sentTo _ q _ item receiver _ _ _ =>
      exact h.extend _ ((maybePreempt_log _).trans (handItem_log k _ q _ item receiver))
        (by simp [Transfers]) (by simp [handItem_objects])
  | received _ hobj _ _ =>
      exact h.extend _ rfl (by simp [Transfers])
        (setObject_view (k := k.setBuffer _ _) Object.owner? (by simp [hobj]) p)
  | @receivedFrom _ q s item sender _ hobj _ _ =>
      have hpopped : Excludes p (popItem k (callerOf k mode) q s item) :=
        h.extend _ rfl (by simp [Transfers])
          (setObject_view (k := k.setBuffer item _) Object.owner? (by simp [hobj]) p)
      apply hpopped.extend _ (maybePreempt_log _) (by simp [Transfers])
      rw [maybePreempt_objects]
      exact setObject_view (k := popItem k (callerOf k mode) q s item) Object.owner?
        (by simp [popItem_object]) p

theorem Excludes.step (h : Excludes p k) (hs : Sound P k) (hstep : KernelStep P k k') :
    Excludes p k' := by
  cases hstep with
  | quiet hquiet =>
      rcases hquiet.objects with ⟨hobjects, hlog⟩ | ⟨q, object, kind, hstopped, hobj, rfl⟩
      · exact h.extend [] (by simpa using hlog) (by simp) (by rw [hobjects])
      · apply h.extend [.initialised q kind] rfl (by simp [Transfers])
        have hunowned : object.owner? = (k.objects q).owner? := by
          rw [initialised_owner hobj, hs.stopped_owner hstopped]
        exact setObject_view Object.owner? hunowned p
  | @marked event hmark =>
      refine h.extend [event] rfl ?_ rfl
      cases event <;> simp_all [IsMark, Transfers]
  | call _ heffect => exact h.callEffect heffect
  | ticked =>
      obtain ⟨tcb, pended, htick⟩ := sysTickHandler_frame k
      rw [htick]
      exact h

theorem reached_excludes {w : World τ ι} (h : Reached P w) (p : ι) :
    Excludes p w.toKernel := by
  have hboth : Sound P w.toKernel ∧ Excludes p w.toKernel := by
    refine reached_kernel (I := fun k => Sound P k ∧ Excludes p k) (fun w hreset => ?_)
      (fun k k' hk hstep => ⟨hk.1.step hstep, hk.2.step hk.1 hstep⟩) h
    refine ⟨.reset hreset, ?_⟩
    rw [Excludes, hreset.log, hreset.objects]
    exact .start
  exact hboth.2

/-- Grants and unlocks alternate up to the owner recorded in the mutex, and within each
call of lock and of unlock there is one exactly if the call returned RTOS_OK. -/
theorem mutex_exclusive {w : World τ ι} (h : Reached P w) (p : ι) :
    Alternates p w.log (w.objects p).owner? ∧
      (∀ before after caller timeoutTicks result data,
        w.log = before ++
          .returned caller (.mutexLock (some p) timeoutTicks) result data :: after →
        ∃ entry body, openSpan (callMark caller) before =
            some ((.mutexLock (some p) timeoutTicks, entry), body) ∧
          effectsOf (fun _ => ()) caller body =
            if result = .ok then [.locked p] else []) ∧
      ∀ before after caller result data,
        w.log = before ++ .returned caller (.mutexUnlock (some p)) result data :: after →
        ∃ entry body, openSpan (callMark caller) before =
            some ((.mutexUnlock (some p), entry), body) ∧
          effectsOf (fun _ => ()) caller body =
            if result = .ok then [.unlocked p] else [] := by
  have hexact := (reached_traced h).exact
  refine ⟨reached_excludes h p, ?_, ?_⟩
  · intro before after caller timeoutTicks result data hlog
    exact hexact before after caller _ result data hlog
  · intro before after caller result data hlog
    exact hexact before after caller _ result data hlog

/-- Task 1 hands the mutex to task 2, which sleeps on it. -/
theorem mutex_exclusive_demo :
    let w := demoRun (demoBoot ++ [.call .thread (.semaphoreTake (some 1) 5), .pendSV true,
      .call .thread (.mutexLock (some 0) 0), .call .thread (.semaphoreGive (some 1)),
      .pendSV true, .resume, .call .thread (.mutexLock (some 0) rtosWaitForever), .pendSV true,
      .call .thread (.mutexUnlock (some 0)), .pendSV true, .resume])
    (w.objects 0).owner? = some 2 ∧ Alternates 0 w.log (w.objects 0).owner? ∧
      ∃ entry body, openSpan (callMark (some 2)) w.log.dropLast =
          some ((.mutexLock (some 0) rtosWaitForever, entry), body) ∧
        effectsOf (fun _ => ()) (some 2) body = [.locked 0] := by
  have hexclusive := mutex_exclusive (demoRun_reached (demoBoot ++
    [.call .thread (.semaphoreTake (some 1) 5), .pendSV true,
      .call .thread (.mutexLock (some 0) 0), .call .thread (.semaphoreGive (some 1)),
      .pendSV true, .resume, .call .thread (.mutexLock (some 0) rtosWaitForever), .pendSV true,
      .call .thread (.mutexUnlock (some 0)), .pendSV true, .resume])) 0
  exact ⟨by decide, hexclusive.1,
    hexclusive.2.1 _ [] (some 2) rtosWaitForever .ok [] (by decide)⟩

end Rules

end Stm32f411.MutexExclusion
