import Stm32f411.OwnershipCount
import Stm32f411.PriorityInheritance

/-!
The 8-bit hold count of a task against the mutexes it owns. The two agree as long as no
task is given a 256th mutex; then the count reads zero, and the trampoline terminates
its owner.
-/

namespace Stm32f411.MutexBookkeeping

open Stm32f411.LabelledRuns
open Stm32f411.OwnershipCount
open Stm32f411.RtosTypes
open Stm32f411.RtosKernel
open Stm32f411.RtosIpc
open Stm32f411.RtosSystem
open Stm32f411.RtosKernelSpec
open Stm32f411.RtosBootSpec
open Stm32f411.RtosCallSpec
open Stm32f411.RtosStepSpec
open Stm32f411.KernelSoundness

variable {τ ι : Type}

def owners (k : Kernel τ ι) : ι → Option τ :=
  fun p => (k.objects p).owner?

noncomputable def ownedCount (k : Kernel τ ι) (t : τ) : Nat :=
  (held (owners k) t).ncard

def HoldsExact (k : Kernel τ ι) : Prop :=
  ∀ t ∈ k.tasks, (k.tcb t).mutexHoldCount.toNat = ownedCount k t

/-- The task a call makes the owner of a mutex. -/
def grantedTask [DecidableEq τ] [DecidableEq ι] (k : Kernel τ ι) (mode : Mode) : Call ι → Option τ
  | .mutexLock (some p) timeoutTicks =>
      if rtosTimeoutValid timeoutTicks = true ∧ rtosKernelThreadApiValid k mode = true ∧
          (k.objects p).mutex? = some ⟨none⟩ then k.currentTask
      else none
  | .mutexUnlock (some p) =>
      if rtosKernelThreadApiValid k mode = true ∧
          (k.objects p).mutex? = some ⟨k.currentTask⟩ then rtosKernelFindWaiter k .mutex p
      else none
  | _ => none

/-- The step gives no mutex to a task that owns 255 already. -/
def GrantWithin [DecidableEq τ] [DecidableEq ι] (w : World τ ι) : Op τ ι → Prop
  | .call mode call => ∀ t, grantedTask w.toKernel mode call = some t →
      ownedCount w.toKernel t < 255
  | _ => True

structure Booked (k : Kernel τ ι) : Prop where
  finite : (taken (owners k)).Finite
  exact : HoldsExact k
  alive : ∀ t ∈ k.tasks, ∀ p, owners k p = some t → (k.tcb t).state ≠ .terminated

section Rules

variable {P : Platform τ} {k k' : Kernel τ ι}

theorem owners_setObject [DecidableEq ι] (k : Kernel τ ι) (p : ι) (object : Object τ) :
    owners (k.setObject p object) = Function.update (owners k) p object.owner? := by
  funext q
  rcases eq_or_ne q p with rfl | hne
  · simp [owners]
  · simp [owners, hne]

theorem owners_congr (hobjects : k'.objects = k.objects) : owners k' = owners k := by
  funext p
  simp [owners, hobjects]

theorem Booked.congr (h : Booked k) (htasks : k'.tasks = k.tasks)
    (howners : owners k' = owners k)
    (hkept : ∀ t ∈ k.tasks, (k'.tcb t).mutexHoldCount = (k.tcb t).mutexHoldCount ∧
      ((k'.tcb t).state = .terminated → (k.tcb t).state = .terminated)) : Booked k' := by
  constructor
  · rw [howners]
    exact h.finite
  · intro t ht
    rw [htasks] at ht
    rw [(hkept t ht).1, ownedCount, howners]
    exact h.exact t ht
  · intro t ht p hp hdead
    rw [htasks] at ht
    rw [howners] at hp
    exact h.alive t ht p hp ((hkept t ht).2 hdead)

theorem Booked.sameObjects (h : Booked k) (htasks : k'.tasks = k.tasks)
    (hobjects : k'.objects = k.objects) (htcb : k'.tcb = k.tcb) : Booked k' := by
  apply h.congr htasks (owners_congr hobjects)
  intro t _
  rw [htcb]
  exact ⟨rfl, id⟩

theorem Booked.modifyTask [DecidableEq τ] (h : Booked k) {w : τ} {f : RtosTask ι → RtosTask ι}
    (hholds : (f (k.tcb w)).mutexHoldCount = (k.tcb w).mutexHoldCount)
    (halive : (f (k.tcb w)).state ≠ .terminated) : Booked (k.modifyTask w f) := by
  refine h.congr rfl rfl fun t _ => ?_
  rcases eq_or_ne t w with rfl | hne
  · simp [hholds, halive]
  · simp [hne]

theorem Booked.recompute [DecidableEq τ]
    (h : Booked k) : Booked (rtosKernelRecomputePriorities k) :=
  h.congr rfl rfl fun _ _ => ⟨rfl, id⟩

theorem Booked.maybePreempt (h : Booked k) (t : Option τ) : Booked (rtosMaybePreempt k t) :=
  h.sameObjects (maybePreempt_tasks t) (maybePreempt_objects t) (maybePreempt_tcb t)

theorem Booked.setWaitBytes (h : Booked k) (t : τ) (bytes : Nat → Byte) :
    Booked (setWaitBytes k t bytes) :=
  h.sameObjects (setWaitBytes_tasks t bytes) (setWaitBytes_objects t bytes)
    (setWaitBytes_tcb t bytes)

variable [DecidableEq ι]

/-- An object without an owner is replaced by another. -/
theorem Booked.setUnowned (h : Booked k) {p : ι} {object : Object τ}
    (hbefore : owners k p = none) (hafter : object.owner? = none) :
    Booked (k.setObject p object) := by
  refine h.congr rfl ?_ fun _ _ => ⟨rfl, id⟩
  rw [owners_setObject, hafter, ← hbefore, Function.update_eq_self]

theorem Booked.pushItem (h : Booked k) {p : ι} {q : Queue} (hobj : owners k p = none)
    (sender : Option τ) (bytes : Nat → Byte) : Booked (pushItem k sender p q bytes) :=
  (h.setUnowned hobj (Object.owner?_queue _)).sameObjects rfl rfl rfl

theorem Booked.popItem (h : Booked k) {p : ι} {q : Queue} (hobj : owners k p = none)
    (caller : Option τ) (item : BufferPtr) : Booked (popItem k caller p q item) :=
  (h.setUnowned hobj (Object.owner?_queue _)).sameObjects rfl rfl rfl

end Rules

section Ownership

variable [DecidableEq τ] [DecidableEq ι]
variable {k : Kernel τ ι}

theorem holds_released {holds : BitVec 8} {n : Nat} (h : holds.toNat = n + 1) :
    (if holds ≠ 0 then holds - 1 else holds).toNat = n := by
  have hne : holds ≠ 0 := by
    rintro rfl
    simp at h
  rw [if_pos hne, toNat_pred hne, h]
  rfl

/-- A free mutex goes to a task that owns fewer than 255. -/
theorem Booked.grant (h : Booked k) {p : ι} {t : τ}
    (hfree : owners k p = none) (hlimit : ownedCount k t < 255)
    (halive : (k.tcb t).state ≠ .terminated) :
    Booked ((k.setObject p (.mutex ⟨some t⟩)).modifyTask t fun u =>
      { u with mutexHoldCount := u.mutexHoldCount + 1 }) := by
  have howners : owners ((k.setObject p (.mutex ⟨some t⟩)).modifyTask t fun u =>
      { u with mutexHoldCount := u.mutexHoldCount + 1 }) =
      Function.update (owners k) p (some t) := owners_setObject k p _
  constructor
  · rw [howners]
    exact finite_taken_update h.finite p _
  · intro u hu
    rw [ownedCount, howners]
    rcases eq_or_ne u t with rfl | hne
    · have hexact := h.exact u hu
      rw [ncard_held_gain h.finite (by simp [hfree]), ← ownedCount, ← hexact]
      rw [← hexact] at hlimit
      have hlt : (k.tcb u).mutexHoldCount < 255 := hlimit
      simpa using toNat_succ hlt
    · rw [held_update_other (by simp [hfree]) (by simpa using hne.symm), ← ownedCount]
      simpa [hne] using h.exact u hu
  · intro u hu q hq
    rw [howners] at hq
    rcases eq_or_ne u t with rfl | hne
    · simpa using halive
    · have hqp : q ≠ p := by
        rintro rfl
        exact hne (by simpa using hq.symm)
      rw [Function.update_of_ne hqp] at hq
      simpa [hne] using h.alive u hu q hq

/-- The owner gives a mutex up. -/
theorem Booked.release (h : Booked k) {p : ι} {self : τ} (howner : owners k p = some self) :
    Booked ((releaseHold k p self).setObject p (.mutex ⟨none⟩)) := by
  have howners : owners ((releaseHold k p self).setObject p (.mutex ⟨none⟩)) =
      Function.update (owners k) p none := owners_setObject _ p _
  constructor
  · rw [howners]
    exact finite_taken_update h.finite p _
  · intro u hu
    rw [ownedCount, howners]
    rcases eq_or_ne u self with rfl | hne
    · have hlose := ncard_held_lose h.finite howner (o := none) (by simp)
      have hexact := h.exact u hu
      rw [ownedCount, ← hlose] at hexact
      simpa [releaseHold] using holds_released hexact
    · rw [held_update_other (by simpa [howner] using hne.symm) (by simp), ← ownedCount]
      simpa [releaseHold, hne] using h.exact u hu
  · intro u hu q hq
    rw [howners] at hq
    have hqp : q ≠ p := by
      rintro rfl
      simp at hq
    rw [Function.update_of_ne hqp] at hq
    obtain ⟨_, _, hkept⟩ := kept_release k p self u
    rw [Kernel.setObject_tcb, hkept]
    exact h.alive u hu q hq

theorem ownedCount_release (h : Booked k) (p : ι) (self t : τ) :
    ownedCount ((releaseHold k p self).setObject p (.mutex ⟨none⟩)) t ≤ ownedCount k t := by
  rw [ownedCount, owners_setObject]
  exact ncard_held_drop h.finite p t

end Ownership

section Calls

variable {P : Platform τ} {k k' : Kernel τ ι} {mode : Mode}

theorem findWaiter_releaseHold [DecidableEq τ] [DecidableEq ι] (k : Kernel τ ι) (p : ι) (self : τ) :
    rtosKernelFindWaiter (releaseHold k p self) .mutex p = rtosKernelFindWaiter k .mutex p := by
  have hfield : ∀ t, ((releaseHold k p self).tcb t).effectivePriority =
        (k.tcb t).effectivePriority ∧
      ((releaseHold k p self).tcb t).waitSequence = (k.tcb t).waitSequence := by
    intro t
    rcases eq_or_ne t self with rfl | hne
    · simp [releaseHold]
    · simp [releaseHold, hne]
  refine findWaiter_congr rfl ?_ ?_
  · exact fun t => isWaiter_kept (kept_release k p self t) .mutex p
  · intro t u
    rw [outranks, outranks, (hfield t).1, (hfield t).2, (hfield u).1, (hfield u).2]

theorem threadApiValid_of_call {self : τ} (h : ThreadCall k mode self) :
    rtosKernelThreadApiValid k mode = true := by
  obtain ⟨rfl, hrun, hself⟩ := h
  simp [rtosKernelThreadApiValid, rtosPortGetIpsr, hrun, hself]

variable [DecidableEq τ] [DecidableEq ι]

theorem grantedTask_lock {self : τ} {p : ι} {m : Mutex τ} {timeoutTicks : Word}
    (hthread : ThreadCall k mode self) (hvalid : rtosTimeoutValid timeoutTicks = true)
    (hobj : k.objects p = .mutex m) (howner : m.owner = none) :
    grantedTask k mode (.mutexLock (some p) timeoutTicks) = some self := by
  have hapi := threadApiValid_of_call hthread
  have hfree : m = ⟨none⟩ := by rw [← howner]
  simp [grantedTask, hvalid, hapi, hobj, hfree, hthread.current]

theorem grantedTask_unlock {self waiter : τ} {p : ι} {m : Mutex τ}
    (hthread : ThreadCall k mode self) (hobj : k.objects p = .mutex m)
    (howner : m.owner = some self)
    (hfind : rtosKernelFindWaiter (releaseHold k p self) .mutex p = some waiter) :
    grantedTask k mode (.mutexUnlock (some p)) = some waiter := by
  have hapi := threadApiValid_of_call hthread
  have howned : m = ⟨some self⟩ := by rw [← howner]
  simp [grantedTask, hapi, hobj, howned, hthread.current, ← findWaiter_releaseHold k p self,
    hfind]

theorem Booked.grantHold (h : Booked k) {p : ι} {self waiter : τ}
    (howner : owners k p = some self) (hlimit : ownedCount k waiter < 255)
    (hblocked : (k.tcb waiter).state = .blocked) :
    Booked (grantHold (releaseHold k p self) p waiter) := by
  have hreleased := h.release howner
  have hstate : (((releaseHold k p self).setObject p (.mutex ⟨none⟩)).tcb waiter).state =
      .blocked := by
    obtain ⟨_, _, hkept⟩ := kept_release k p self waiter
    rw [Kernel.setObject_tcb, hkept, ← hblocked]
  have hgranted := hreleased.grant (p := p) (t := waiter) (by simp [owners])
    ((ownedCount_release h p self waiter).trans_lt hlimit) (by rw [hstate]; simp)
  have hwoken := hgranted.modifyTask (w := waiter) (f := leaveWait .ok) rfl
    (by simp [leaveWait])
  refine hwoken.sameObjects rfl ?_ rfl
  simp [RtosIpc.grantHold]

theorem Booked.callEffect (h : Booked k) (hcaller : CallerRuns P k mode) {call : Call ι}
    {outcome : Outcome}
    (hwithin : ∀ t, grantedTask k mode call = some t → ownedCount k t < 255)
    (heffect : CallEffect k mode call k' outcome) : Booked k' := by
  cases heffect with
  | refused _ _ => exact h
  | ignored _ => exact h
  | yielded _ _ => exact h.sameObjects rfl rfl rfl
  | @delayed self ticks _ _ _ =>
      exact (h.modifyTask (w := self) (f := fun t => { t with
        wakeTick := k.tick + ticks
        waitForever := false
        state := .delayed }) rfl (by simp)).sameObjects rfl rfl rfl
  | slept _ _ _ _ _ =>
      exact (h.modifyTask (f := enterWait k _ _ _ _) rfl (by simp [enterWait])).sameObjects
        rfl rfl rfl
  | @sleptOnMutex self _ p _ timeoutTicks _ _ _ _ _ _ =>
      have hslept : Booked (sleepOn k self .mutex p none timeoutTicks) :=
        (h.modifyTask (f := enterWait k _ _ _ _) rfl (by simp [enterWait])).sameObjects
          rfl rfl rfl
      exact hslept.recompute
  | took _ hobj _ =>
      exact (h.setUnowned (by simp [owners, hobj]) (Object.owner?_semaphore _)).sameObjects
        rfl rfl rfl
  | gave _ hobj _ _ =>
      exact h.setUnowned (by simp [owners, hobj]) (Object.owner?_semaphore _)
  | gaveTo _ _ _ =>
      apply Booked.maybePreempt
      exact (h.modifyTask (f := leaveWait .ok) rfl (by simp [leaveWait])).sameObjects
        rfl rfl rfl
  | locked hthread hvalid hobj howner =>
      have hlimit := hwithin _ (grantedTask_lock hthread hvalid hobj howner)
      obtain ⟨hstate, _⟩ := hcaller.thread hthread.mode_eq _ hthread.current
      exact (h.grant (by simp [owners, hobj, howner]) hlimit (by simp [hstate])).sameObjects
        rfl rfl rfl
  | unlocked hthread hobj howner _ =>
      exact (h.release (by simp [owners, hobj, howner])).recompute
  | unlockedTo hthread hobj howner hfind =>
      have hlimit := hwithin _ (grantedTask_unlock hthread hobj howner hfind)
      rw [findWaiter_releaseHold] at hfind
      have hwaits := isWaiter_iff.mp (findWaiter_waits hfind).2
      exact (h.grantHold (by simp [owners, hobj, howner]) hlimit
        hwaits.1).recompute.maybePreempt _
  | sent _ hobj _ _ => exact h.pushItem (by simp [owners, hobj]) _ _
  | sentTo _ hobj _ =>
      apply Booked.maybePreempt
      apply Booked.modifyTask (f := leaveWait .ok) _ rfl (by simp [leaveWait])
      exact (h.setWaitBytes _ _).sameObjects rfl rfl rfl
  | received _ hobj _ _ => exact h.popItem (by simp [owners, hobj]) _ _
  | @receivedFrom _ p q item _ _ hobj _ _ =>
      apply Booked.maybePreempt
      apply Booked.modifyTask (f := leaveWait .ok) _ rfl (by simp [leaveWait])
      have hpopped := h.popItem (p := p) (q := q) (by simp [owners, hobj]) (callerOf k mode) item
      exact hpopped.pushItem (by simp [owners, popItem_object]) _ _

end Calls

section Steps

variable {P : Platform τ} {k k' : Kernel τ ι}

theorem ownedCount_eq_zero (h : ∀ p, owners k p = none) (t : τ) : ownedCount k t = 0 := by
  simp [ownedCount, held, h]

theorem tickTask_holds (now : Word) (t : RtosTask ι) :
    (tickTask now t).mutexHoldCount = t.mutexHoldCount ∧
      ((tickTask now t).state = .terminated → t.state = .terminated) := by
  unfold tickTask
  split
  · exact ⟨rfl, id⟩
  · simp
  · simp [leaveWait]

theorem Booked.tick [DecidableEq τ]
    (h : Booked k) (hs : Sound P k) : Booked (sysTickHandler k) := by
  obtain ⟨tcb, pended, hframe⟩ := sysTickHandler_frame k
  apply h.congr (by rw [hframe]) (owners_congr (by rw [hframe]))
  intro t ht
  cases hrun : k.running with
  | false =>
      rw [sysTickHandler_stopped hrun]
      exact ⟨rfl, id⟩
  | true =>
      obtain ⟨_, htask⟩ := sysTickHandler_running hrun hs.nodup
      obtain ⟨priority, htcb⟩ := htask t ht
      rw [htcb]
      exact tickTask_holds (k.tick + 1) (k.tcb t)

/-- Before the start no mutex has an owner and every count is zero. -/
theorem Booked.of_stopped (howners : ∀ p, owners k p = none)
    (hholds : ∀ t ∈ k.tasks, (k.tcb t).mutexHoldCount = 0) : Booked k := by
  constructor
  · simp [taken, howners]
  · intro t ht
    rw [hholds t ht, ownedCount_eq_zero howners]
    rfl
  · intro t _ p hp
    simp [howners] at hp

theorem Booked.holds_stopped (h : Booked k) (howners : ∀ p, owners k p = none) {t : τ}
    (ht : t ∈ k.tasks) : (k.tcb t).mutexHoldCount = 0 := by
  have hexact := h.exact t ht
  rw [ownedCount_eq_zero howners] at hexact
  exact BitVec.eq_of_toNat_eq (by simpa using hexact)

/-- A count of zero can be trusted: its task owns nothing. -/
theorem Booked.owns_nothing (h : Booked k) {t : τ} (ht : t ∈ k.tasks)
    (hcount : (k.tcb t).mutexHoldCount = 0) (p : ι) : owners k p ≠ some t := by
  have hzero : ownedCount k t = 0 := by
    rw [← h.exact t ht, hcount]
    rfl
  rw [ownedCount, Set.ncard_eq_zero (finite_held h.finite t)] at hzero
  exact Set.eq_empty_iff_forall_notMem.mp hzero p

variable [DecidableEq τ] [DecidableEq ι]

theorem Booked.quiet (h : Booked k) (hs : Sound P k) (hquiet : QuietStep P k k') :
    Booked k' := by
  cases hquiet with
  | unchanged => exact h
  | booted hboot =>
      obtain ⟨hstopped, hfresh, _, _, _, rfl⟩ := hboot
      refine .of_stopped (hs.stopped_owner hstopped) fun t ht => ?_
      obtain rfl : t = P.idle := by simpa using ht
      exact hfresh.mutexHoldCount
  | @created _ task _ _ hstopped _ hadd =>
      have howners : ∀ p, owners k p = none := hs.stopped_owner hstopped
      obtain ⟨hnew, _, hfresh, _, rfl⟩ := hadd
      refine .of_stopped howners fun t ht => ?_
      rcases List.mem_append.mp ht with hold | hlast
      · have hne : t ≠ task := fun he => hnew (he ▸ hold)
        simpa [hne] using h.holds_stopped howners hold
      · obtain rfl : t = task := List.mem_singleton.mp hlast
        exact hfresh.mutexHoldCount
  | placed _ hstopped hobj =>
      exact (h.setUnowned (hs.stopped_owner hstopped _) (initialised_owner hobj)).sameObjects
        rfl rfl rfl
  | refusedStart _ => exact h.sameObjects rfl rfl rfl
  | started hstart =>
      obtain ⟨_, _, first, _, _, _, _, rfl⟩ := hstart
      exact (h.modifyTask (w := first) (f := fun t => { t with state := .running }) rfl
        (by simp)).sameObjects rfl rfl rfl
  | @terminated self hcur _ _ hcount =>
      have hself := hs.current_mem (hs.running_of_current hcur) hcur
      have hnothing := h.owns_nothing hself hcount
      refine ⟨h.finite, fun t ht => ?_, fun t ht p hp => ?_⟩
      · have hexact := h.exact t ht
        change _ = ownedCount k t
        rcases eq_or_ne t self with rfl | hne
        · simpa using hexact
        · simpa [hne] using hexact
      · have hne : t ≠ self := by
          rintro rfl
          exact hnothing p hp
        simpa [hne] using h.alive t ht p hp
  | switched hrun hswitch =>
      have htcb := hswitch.tcb_eq
      have hstate : ∀ t, (k'.tcb t).state = .terminated ↔ (k.tcb t).state = .terminated :=
        hswitch.state_iff (by simp) (by simp)
      obtain ⟨_, _, _, _, hk'⟩ := hswitch
      apply h.congr (by simp [hk']) (owners_congr (by simp [hk']))
      exact fun t _ => ⟨by rw [htcb], (hstate t).mp⟩
  | wrote => exact h.sameObjects rfl rfl rfl

end Steps

section Runs

variable {P : Platform τ} {w w' : World τ ι}

/-- The steps of the system that keep every task below 256 mutexes. -/
def BoundedSteps [DecidableEq τ] [DecidableEq ι]
    (P : Platform τ) (w : World τ ι) (op : Op τ ι) (w' : World τ ι) : Prop :=
  step P w op = some w' ∧ GrantWithin w op

theorem Booked.record (h : Booked k) (event : Event τ ι) : Booked (k.record event) :=
  h.sameObjects rfl rfl rfl

variable [DecidableEq τ] [DecidableEq ι]

theorem Booked.step {op : Op τ ι} (h : Booked w.toKernel) (hs : Sound P w.toKernel)
    (hwithin : GrantWithin w op) (hstep : SystemStep P w op w') : Booked w'.toKernel := by
  cases hstep with
  | ticked => exact h.tick hs
  | quiet _ hquiet => exact h.quiet hs hquiet
  | returned hruns _ heffect =>
      exact ((h.record _).callEffect (hruns.record _) hwithin heffect).record _
  | suspended hruns _ _ heffect =>
      exact (h.record _).callEffect (hruns.record _) hwithin heffect
  | resumed _ _ _ => exact h.record _

theorem bounded_reached (h : Reachable (BoundedSteps P) Reset w) : Reached P w :=
  h.mono fun _ _ _ hstep => hstep.1

theorem bounded_booked (h : Reachable (BoundedSteps P) Reset w) : Booked w.toKernel := by
  refine h.invariant (I := fun w => Booked w.toKernel) (fun w hreset => ?_) ?_
  · refine .of_stopped (fun p => ?_) fun t ht => ?_
    · simp [owners, hreset.objects]
    · simp [hreset.tasks] at ht
  · rintro w op w' hw hbooked ⟨hstep, hwithin⟩
    exact hbooked.step (reached_sound (bounded_reached hw)) hwithin (step_system hstep)

/-- As long as no task that owns 255 mutexes is given another, the hold counts are exact,
and the trampoline faults on a task that returns while it owns one. -/
theorem hold_count_exact (h : Reachable (BoundedSteps P) Reset w) :
    (taken (owners w.toKernel)).Finite ∧
      (∀ t ∈ w.tasks, (w.tcb t).mutexHoldCount.toNat = ownedCount w.toKernel t) ∧
      (∀ p t, owners w.toKernel p = some t →
        rtosTaskEntryTrampoline w.toKernel t = .error ⟨.taskReturnWithMutex, some t⟩) ∧
      ∀ p t, owners w.toKernel p = some t → (w.tcb t).state ≠ .terminated := by
  have hbooked := bounded_booked h
  have htask := fun p t hp => ((reached_sound (bounded_reached h)).owner_task p t hp).1
  refine ⟨hbooked.finite, hbooked.exact, fun p t hp => ?_, fun p t hp => ?_⟩
  · have hcount : (w.tcb t).mutexHoldCount ≠ 0 :=
      fun hzero => hbooked.owns_nothing (htask p t hp) hzero p hp
    rw [rtosTaskEntryTrampoline, if_pos hcount]
  · exact hbooked.alive t (htask p t hp) p hp

/-- A run without calls gives no mutex away. -/
theorem run_bounded {ops : List (Op τ ι)} (h : Run (Steps (step P)) w ops w')
    (hops : ∀ op ∈ ops, ∀ mode call, op ≠ .call mode call) :
    Run (BoundedSteps P) w ops w' := by
  induction h with
  | nil => exact .nil
  | @snoc _ _ _ op _ hlast ih =>
      apply Run.snoc (ih fun op hop => hops op (List.mem_append_left _ hop))
      refine ⟨hlast, ?_⟩
      cases op with
      | call mode call => exact absurd rfl (hops _ (by simp) mode call)
      | _ => trivial

end Runs

section Demo

/-- Task 1 of priority 2 locks 256 mutexes and then returns. -/
def overflowRun : List (Op Nat Nat) :=
  [.init (some ⟨1000, 5⟩), .taskCreate (some 1) 0x08000201 0 0x20001000 128 2] ++
    (List.range 256).map (fun p => .mutexInit (some p)) ++ [.start true true] ++
    (List.range 256).map (fun p => .call .thread (.mutexLock (some p) 0)) ++ [.taskReturn]

/-- Its hold count has wrapped to zero, so the trampoline terminates it, and all 256
mutexes stay with a dead owner. -/
theorem hold_count_overflows :
    let w := demoRun overflowRun
    Reached demoPlatform w ∧ (w.tcb 1).mutexHoldCount = 0 ∧
      (∀ p < 256, owners w.toKernel p = some 1) ∧ (w.tcb 1).state = .terminated :=
  ⟨demoRun_reached _, by decide +kernel⟩

theorem demoBoot_bounded : Reachable (BoundedSteps demoPlatform) Reset (demoRun demoBoot) :=
  ⟨demoReset, demoBoot, demoReset_reset,
    run_bounded (demoRun_run demoBoot (by decide)) (by simp [demoBoot])⟩

/-- Task 2 holds the one mutex. -/
theorem hold_count_exact_demo :
    let w := demoRun (demoBoot ++ [.call .thread (.mutexLock (some 0) 0)])
    (w.tcb 2).mutexHoldCount = 1 ∧ ownedCount w.toKernel 2 = 1 := by
  have hbooked := bounded_booked demoBoot_bounded
  have hfew : ownedCount (demoRun demoBoot).toKernel 2 = 0 :=
    (hbooked.exact 2 (by decide)).symm
  have hgranted : grantedTask (demoRun demoBoot).toKernel .thread (.mutexLock (some 0) 0) =
      some 2 := by
    decide
  have hbounded := demoBoot_bounded.step ⟨demoRun_step demoBoot
    (.call .thread (.mutexLock (some 0) 0)) (by decide), show GrantWithin _ _ by
      intro t ht
      obtain rfl : 2 = t := Option.some.inj (hgranted.symm.trans ht)
      omega⟩
  exact ⟨by decide, ((hold_count_exact hbounded).2.1 2 (by decide)).symm⟩

end Demo

end Stm32f411.MutexBookkeeping
