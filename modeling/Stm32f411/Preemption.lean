import Stm32f411.PriorityInheritance

/-!
While no switch is pended, the running task has the highest effective priority of all
tasks that can run. An unlock compares only the task it wakes with the caller; that is
enough because handing a mutex over changes no priority but the caller's own.
-/

namespace Stm32f411.Preemption

open Stm32f411.InheritanceRelaxation
open Stm32f411.RtosTypes
open Stm32f411.RtosKernel
open Stm32f411.RtosIpc
open Stm32f411.RtosSystem
open Stm32f411.RtosKernelSpec
open Stm32f411.RtosBootSpec
open Stm32f411.RtosCallSpec
open Stm32f411.RtosStepSpec
open Stm32f411.KernelSoundness
open Stm32f411.WaiterService
open Stm32f411.PriorityInheritance

variable {τ ι : Type}

def Prompt (k : Kernel τ ι) : Prop :=
  k.running = true → k.pended = false → ∀ c, k.currentTask = some c →
    ∀ t ∈ k.tasks, (k.tcb t).state = .ready →
      (k.tcb t).effectivePriority ≤ (k.tcb c).effectivePriority

section Rules

variable {P : Platform τ} {k k' : Kernel τ ι}

theorem le_of_not_shouldPreempt {c t : τ} (hc : k.currentTask = some c)
    (h : rtosKernelShouldPreempt k (some t) = false) :
    (k.tcb t).effectivePriority ≤ (k.tcb c).effectivePriority := by
  simpa [rtosKernelShouldPreempt, hc] using h

theorem prompt_of_pended (h : k.pended = true) : Prompt k := by
  intro _ hpended
  simp [h] at hpended

theorem prompt_of_stopped (h : k.running = false) : Prompt k := by
  intro hrun
  simp [h] at hrun

/-- No task becomes READY and no priority changes. -/
theorem Prompt.same (h : Prompt k) (hs : Sound P k) (htasks : k'.tasks = k.tasks)
    (hcurrent : k'.currentTask = k.currentTask) (hrunning : k'.running = k.running)
    (hpended : k'.pended = k.pended)
    (hready : ∀ t ∈ k.tasks, (k'.tcb t).state = .ready → (k.tcb t).state = .ready)
    (heffective : ∀ t ∈ k.tasks,
      (k'.tcb t).effectivePriority = (k.tcb t).effectivePriority) : Prompt k' := by
  intro hrun hpend c hc t ht hstate
  rw [htasks] at ht
  rw [hrunning] at hrun
  rw [hpended] at hpend
  rw [hcurrent] at hc
  rw [heffective t ht, heffective c (hs.current_mem hrun hc)]
  exact h hrun hpend c hc t ht (hready t ht hstate)

/-- One task becomes READY, and the preemption test looks at that task. -/
theorem Prompt.wakes (h : Prompt k) (hs : Sound P k) {w : τ} (htasks : k'.tasks = k.tasks)
    (hcurrent : k'.currentTask = k.currentTask) (hrunning : k'.running = k.running)
    (hpended : k'.pended = k.pended)
    (hready : ∀ t ∈ k.tasks, t ≠ w → (k'.tcb t).state = .ready → (k.tcb t).state = .ready)
    (heffective : ∀ t ∈ k.tasks,
      (k'.tcb t).effectivePriority = (k.tcb t).effectivePriority) :
    Prompt (rtosMaybePreempt k' (some w)) := by
  intro hrun hpend c hc t ht hstate
  rw [maybePreempt_running, hrunning] at hrun
  rw [maybePreempt_currentTask] at hc
  rw [maybePreempt_tasks, htasks] at ht
  rw [maybePreempt_tcb] at hstate ⊢
  rw [maybePreempt_pended, Bool.or_eq_false_iff, hpended] at hpend
  rcases eq_or_ne t w with rfl | htw
  · exact le_of_not_shouldPreempt hc hpend.2
  · rw [hcurrent] at hc
    rw [heffective t ht, heffective c (hs.current_mem hrun hc)]
    exact h hrun hpend.1 c hc t ht (hready t ht htw hstate)

end Rules

section Unlock

variable {P : Platform τ} {k : Kernel τ ι} {self waiter : τ} {p : ι} {m : Mutex τ}

theorem blockingOwner_closed (hs : Sound P k) : Closed (blockingOwner k) k.tasks := by
  rintro u v ⟨_, huv⟩
  obtain ⟨p, m, _, _, _, hobj, hm⟩ := blockingOwner_eq_some.mp huv
  exact (hs.owner_task p v (by simp [hobj, hm])).1

/-- With nobody waiting for it, a released mutex takes no edge away. -/
theorem blockingOwner_released [DecidableEq ι]
    (hfind : rtosKernelFindWaiter k .mutex p = none) {t : τ}
    (ht : t ∈ k.tasks) (object : Object τ) :
    blockingOwner (k.setObject p object) t = blockingOwner k t := by
  by_cases hb : (k.tcb t).state = .blocked ∧ (k.tcb t).waitType = .mutex
  · refine blockingOwner_congr rfl rfl rfl fun q hwait => ?_
    have hq : q ≠ p := by
      rintro rfl
      exact findWaiter_eq_none.mp hfind t ht (isWaiter_iff.mpr ⟨hb.1, hb.2, hwait⟩)
    simp [hq]
  · have hne : (k.tcb t).state ≠ .blocked ∨ (k.tcb t).waitType ≠ .mutex := by tauto
    rw [blockingOwner_of_ne hne, blockingOwner_of_ne (k := k.setObject p object) hne]

variable [DecidableEq τ]

/-- What handing mutex `p` over from `self` to `waiter` does to the waiting graph. -/
theorem blockingOwner_granted [DecidableEq ι]
    (hobj : k.objects p = .mutex m) (howner : m.owner = some self)
    (hfind : rtosKernelFindWaiter k .mutex p = some waiter) {t : τ} (ht : t ∈ k.tasks) :
    blockingOwner (grantHold k p waiter) t = blockingOwner k t ∨
      blockingOwner k t = some self ∧
        (k.tcb t).effectivePriority ≤ (k.tcb waiter).effectivePriority ∧
        (blockingOwner (grantHold k p waiter) t = some waiter ∨
          t = waiter ∧ blockingOwner (grantHold k p waiter) t = none) := by
  obtain ⟨_, hwaiter, hmax⟩ := findWaiter_eq_some hfind
  by_cases hw : isWaiter k .mutex p t = true
  · obtain ⟨hstate, htype, hobject⟩ := isWaiter_iff.mp hw
    refine Or.inr ⟨blockingOwner_eq_some.mpr ⟨p, m, hstate, htype, hobject, hobj, howner⟩,
      hmax t ht hw, ?_⟩
    rcases eq_or_ne t waiter with rfl | htw
    · exact Or.inr ⟨rfl, blockingOwner_of_ne (Or.inl (by simp [grantHold, leaveWait]))⟩
    · left
      rw [blockingOwner_eq_some]
      exact ⟨p, ⟨some waiter⟩, by simpa [grantHold, htw] using hstate,
        by simpa [grantHold, htw] using htype, by simpa [grantHold, htw] using hobject,
        by simp [grantHold], rfl⟩
  · have htw : t ≠ waiter := by
      rintro rfl
      exact hw hwaiter
    have hsame : (grantHold k p waiter).tcb t = k.tcb t := by simp [grantHold, htw]
    left
    by_cases hb : (k.tcb t).state = .blocked ∧ (k.tcb t).waitType = .mutex
    · refine blockingOwner_congr (by rw [hsame]) (by rw [hsame]) (by rw [hsame])
        fun q hwait => ?_
      have hq : q ≠ p := by
        rintro rfl
        exact hw (isWaiter_iff.mpr ⟨hb.1, hb.2, hwait⟩)
      simp [grantHold, hq]
    · have hne : (k.tcb t).state ≠ .blocked ∨ (k.tcb t).waitType ≠ .mutex := by tauto
      rw [blockingOwner_of_ne hne]
      exact blockingOwner_of_ne (by rwa [hsame])

theorem releaseHold_inherited (h : Inherited k) : Inherited (releaseHold k p self) := by
  refine h.congr rfl (fun t _ => ?_) (fun t _ => ?_) fun t _ => ?_
  · obtain ⟨_, _, hkept⟩ := kept_release k p self t
    exact blockingOwner_congr (by rw [hkept]) (by rw [hkept]) (by rw [hkept]) fun _ _ => rfl
  · by_cases ht : t = self <;> simp [releaseHold, ht]
  · by_cases ht : t = self <;> simp [releaseHold, ht]

/-- Recomputing exact priorities on an unchanged graph changes none of them. -/
theorem recompute_effectivePriority (h : Inherited k) (hs : Sound P k) {t : τ}
    (ht : t ∈ k.tasks) : recomputedPriority k t = (k.tcb t).effectivePriority :=
  (Exact.unique (inherited_recompute hs) h ht)

variable [DecidableEq ι]

theorem grantHold_basePriority (t : τ) :
    ((grantHold k p waiter).tcb t).basePriority = (k.tcb t).basePriority := by
  rcases eq_or_ne t waiter with rfl | ht
  · simp [grantHold, leaveWait]
  · simp [grantHold, ht]

/-- Handing a mutex over can lower the priority of the task that gives it up, down to
that of the task that gets it, and changes no other. -/
theorem grantHold_priorities (hi : Inherited k) (hs : Sound P k) (hrun : k.running = true)
    (hself : self ∈ k.tasks) (hstate : (k.tcb self).state = .running)
    (hobj : k.objects p = .mutex m) (howner : m.owner = some self)
    (hfind : rtosKernelFindWaiter k .mutex p = some waiter) :
    (∀ t ∈ k.tasks, t ≠ self →
        recomputedPriority (grantHold k p waiter) t = (k.tcb t).effectivePriority) ∧
      (recomputedPriority (grantHold k p waiter) waiter ≤
          recomputedPriority (grantHold k p waiter) self →
        (k.tcb self).effectivePriority ≤
          recomputedPriority (grantHold k p waiter) self) := by
  obtain ⟨hw, hwaits⟩ := findWaiter_waits hfind
  have hblocked := (isWaiter_iff.mp hwaits).1
  have hne : waiter ≠ self := by
    rintro rfl
    simp [hstate] at hblocked
  have hgranted := hs.grantHold hrun hobj hw hblocked
  have hexact : Exact (blockingOwner (grantHold k p waiter)) k.tasks
      (fun t => (k.tcb t).basePriority) (recomputedPriority (grantHold k p waiter)) := by
    have hrecomputed : Inherited (rtosKernelRecomputePriorities (grantHold k p waiter)) :=
      inherited_recompute hgranted
    exact Exact.congr hrecomputed (fun _ _ => rfl) (fun t _ => grantHold_basePriority t)
      fun _ _ => rfl
  exact Exact.handOver hi hexact (blockingOwner_closed hs) (blockingOwner_closed hgranted)
    (blockingOwner_of_ne (Or.inl (by simp [hstate]))) hself hw hne
    fun u hu => blockingOwner_granted hobj howner hfind hu

end Unlock

section Calls

variable [DecidableEq τ] [DecidableEq ι]
variable {P : Platform τ} {k k' : Kernel τ ι}

theorem Prompt.unlocked (h : Prompt k) (hi : Inherited k) (hs : Sound P k) {self : τ} {p : ι}
    {m : Mutex τ} (hrun : k.running = true) (hobj : k.objects p = .mutex m)
    (hfind : rtosKernelFindWaiter (releaseHold k p self) .mutex p = none) :
    Prompt (rtosKernelRecomputePriorities
      ((releaseHold k p self).setObject p (.mutex ⟨none⟩))) := by
  have hreleased : Sound P ((releaseHold k p self).setObject p (.mutex ⟨none⟩)) :=
    (hs.releaseHold p self).setOwner hrun hobj (by simp)
  have hi' : Inherited ((releaseHold k p self).setObject p (.mutex ⟨none⟩)) :=
    (releaseHold_inherited hi).congr rfl
      (fun t ht => blockingOwner_released hfind ht _) (fun _ _ => rfl) fun _ _ => rfl
  have hkept := kept_release k p self
  refine h.same hs rfl rfl rfl rfl (fun t _ hstate => ?_) fun t ht => ?_
  · obtain ⟨_, _, hkept⟩ := hkept t
    simpa [hkept] using hstate
  · apply (recompute_effectivePriority hi' hreleased ht).trans
    by_cases hts : t = self <;> simp [releaseHold, hts]

/-- The caller's own priority may fall to that of the waiter it wakes, never unnoticed
below it; every other priority stays. -/
theorem Prompt.unlockedTo (h : Prompt k) (hi : Inherited k) (hs : Sound P k)
    {self waiter : τ} {p : ι} {m : Mutex τ} (hrun : k.running = true)
    (hcur : k.currentTask = some self) (hself : (k.tcb self).state = .running)
    (hobj : k.objects p = .mutex m) (howner : m.owner = some self)
    (hfind : rtosKernelFindWaiter (releaseHold k p self) .mutex p = some waiter) :
    Prompt (rtosMaybePreempt
      (rtosKernelRecomputePriorities (grantHold (releaseHold k p self) p waiter))
      (some waiter)) := by
  have hkept := kept_release k p self
  have heffective : ∀ t, ((releaseHold k p self).tcb t).effectivePriority =
      (k.tcb t).effectivePriority := by
    intro t
    by_cases hts : t = self <;> simp [releaseHold, hts]
  have hself' : ((releaseHold k p self).tcb self).state = .running := by
    obtain ⟨_, _, hk⟩ := hkept self
    rw [hk]
    exact hself
  obtain ⟨hothers, hown⟩ := grantHold_priorities (releaseHold_inherited hi)
    (hs.releaseHold p self) hrun (hs.current_mem hrun hcur) hself' hobj howner hfind
  intro _ hpend c hc t ht hstate
  rw [maybePreempt_currentTask] at hc
  obtain rfl : self = c := Option.some.inj (hcur.symm.trans hc)
  rw [maybePreempt_pended, Bool.or_eq_false_iff] at hpend
  rw [maybePreempt_tcb] at hstate ⊢
  rw [maybePreempt_tasks] at ht
  have hle : recomputedPriority (grantHold (releaseHold k p self) p waiter) waiter ≤
      recomputedPriority (grantHold (releaseHold k p self) p waiter) self :=
    le_of_not_shouldPreempt hc hpend.2
  rcases eq_or_ne t waiter with rfl | htw
  · exact hle
  · have hready : (k.tcb t).state = .ready := by
      obtain ⟨_, _, hk⟩ := hkept t
      have hgrant : ((grantHold (releaseHold k p self) p waiter).tcb t).state = .ready := hstate
      simpa [grantHold, htw, hk] using hgrant
    have hts : t ≠ self := by
      rintro rfl
      simp [hself] at hready
    calc
      recomputedPriority (grantHold (releaseHold k p self) p waiter) t
          = ((releaseHold k p self).tcb t).effectivePriority := hothers t ht hts
      _ = (k.tcb t).effectivePriority := heffective t
      _ ≤ (k.tcb self).effectivePriority := h hrun hpend.1 self hcur t ht hready
      _ = ((releaseHold k p self).tcb self).effectivePriority := (heffective self).symm
      _ ≤ recomputedPriority (grantHold (releaseHold k p self) p waiter) self := hown hle

theorem Prompt.callEffect (h : Prompt k) (hi : Inherited k) (hs : Sound P k) {mode : Mode}
    (hcaller : CallerRuns P k mode) {call : Call ι} {outcome : Outcome}
    (heffect : CallEffect k mode call k' outcome) : Prompt k' := by
  cases heffect with
  | refused _ _ => exact h
  | ignored _ => exact h
  | yielded _ _ => exact prompt_of_pended rfl
  | delayed _ _ _ => exact prompt_of_pended rfl
  | slept _ _ _ _ _ => exact prompt_of_pended rfl
  | sleptOnMutex _ _ _ _ _ _ => exact prompt_of_pended rfl
  | took _ _ _ => exact h
  | gave _ _ _ _ => exact h
  | gaveTo _ _ _ =>
      refine h.wakes hs rfl rfl rfl rfl (fun t _ ht hstate => ?_) fun t _ => ?_
      · simpa [ht] using hstate
      · rw [Kernel.record_tcb, leaveWait_effectivePriority]
  | @locked self p m _ _ _ _ _ =>
      refine h.same hs rfl rfl rfl rfl (fun t _ hstate => ?_) fun t _ => ?_
      · obtain ⟨_, _, hk⟩ := kept_take k p (.mutex ⟨some self⟩) self t
        rw [Kernel.record_tcb, hk] at hstate
        exact hstate
      · by_cases ht : t = self <;> simp [ht]
  | unlocked hthread hobj _ hfind => exact h.unlocked hi hs hthread.running hobj hfind
  | unlockedTo hthread hobj howner hfind =>
      obtain ⟨hstate, _⟩ := hcaller.thread hthread.mode_eq _ hthread.current
      exact h.unlockedTo hi hs hthread.running hthread.current hstate hobj howner hfind
  | sent _ _ _ _ => exact h
  | sentTo _ _ _ =>
      refine h.wakes hs ?_ ?_ ?_ ?_ (fun t _ ht hstate => ?_) fun t _ => ?_
      · simp [handItem]
      · simp [handItem]
      · simp [handItem]
      · simp [handItem]
      · simpa [handItem, ht] using hstate
      · rw [handItem, wakeTask_some, leaveWait_effectivePriority]
        simp
  | received _ _ _ _ => exact h
  | receivedFrom _ _ _ _ =>
      refine h.wakes hs rfl rfl rfl rfl (fun t _ ht hstate => ?_) fun t _ => ?_
      · simpa [ht] using hstate
      · rw [leaveWait_effectivePriority]
        rfl

end Calls

section Reached

variable {P : Platform τ} {k k' : Kernel τ ι}

theorem effectivePriority_lt (hi : Inherited k) (hs : Sound P k) {t : τ} (ht : t ∈ k.tasks) :
    (k.tcb t).effectivePriority < rtosPriorityLevels := by
  obtain ⟨u, hu, _, hbase⟩ := (hi t ht).1
  have heq : (k.tcb u).basePriority = (k.tcb t).effectivePriority := hbase
  rw [← heq]
  exact hs.base_lt u hu

variable [DecidableEq τ] [DecidableEq ι]

theorem Prompt.quiet (h : Prompt k) (hi : Inherited k) (hs : Sound P k)
    (hquiet : QuietStep P k k') : Prompt k' := by
  cases hquiet with
  | unchanged => exact h
  | booted hboot =>
      obtain ⟨hstopped, _, _, _, _, rfl⟩ := hboot
      exact prompt_of_stopped hstopped
  | created _ hstopped _ hadd =>
      obtain ⟨_, _, _, _, rfl⟩ := hadd
      exact prompt_of_stopped hstopped
  | placed _ hstopped _ => exact prompt_of_stopped hstopped
  | refusedStart hstopped => exact prompt_of_stopped hstopped
  | started hstart =>
      obtain ⟨_, hstopped, first, cursor, hmem, _, hmax, rfl⟩ := hstart
      intro _ _ c hc t ht hstate
      obtain rfl : first = c := by simpa using hc
      have hlt := effectivePriority_lt hi hs ht
      have hle := hmax t ht (Or.inl (hs.stopped_ready hstopped t ht)) hlt
      rcases eq_or_ne t first with rfl | htf
      · simp at hstate
      · simpa [htf] using hle
  | terminated _ _ _ _ => exact prompt_of_pended rfl
  | switched _ hswitch =>
      have htcb := hswitch.tcb_eq
      have hmax := hswitch.highest
      have hrunnable := hswitch.runnable_iff
      obtain ⟨_, _, _, cursor, hk'⟩ := hswitch
      intro _ _ c hc t ht hstate
      obtain rfl : _ = c := by simpa [hk'] using hc
      have ht' : t ∈ k.tasks := by simpa [hk'] using ht
      rw [htcb, htcb]
      exact hmax t ht' ((hrunnable t).mp (Or.inl hstate)) (effectivePriority_lt hi hs ht')
  | wrote => exact h

theorem Prompt.step (h : Prompt k) (hi : Inherited k) (hs : Sound P k)
    (hstep : KernelStep P k k') : Prompt k' := by
  cases hstep with
  | quiet hquiet => exact h.quiet hi hs hquiet
  | marked _ => exact h
  | call hcaller heffect => exact h.callEffect hi hs hcaller heffect
  | ticked =>
      cases hrun : k.running with
      | false =>
          rw [sysTickHandler_stopped hrun]
          exact prompt_of_stopped hrun
      | true =>
          rw [sysTickHandler_eq hrun hs.nodup]
          exact prompt_of_pended rfl

theorem reached_prompt {w : World τ ι} (h : Reached P w) : Prompt w.toKernel := by
  have hall : KernelInvariant P w.toKernel ∧ Prompt w.toKernel := by
    refine reached_kernel (I := fun k => KernelInvariant P k ∧ Prompt k) ?_ ?_ h
    · intro w hreset
      exact ⟨.reset hreset, prompt_of_stopped hreset.running⟩
    · rintro k k' ⟨hk, hp⟩ hstep
      exact ⟨hk.step hstep, hp.step hk.inherited hk.sound hstep⟩
  exact hall.2

/-- With no switch pended, the current task runs and no READY task outranks it. -/
theorem no_missed_preemption {w : World τ ι} (h : Reached P w) (hrun : w.running = true)
    (hpended : w.pended = false) :
    ∃ c ∈ w.tasks, w.currentTask = some c ∧ (w.tcb c).state = .running ∧
      ∀ t ∈ w.tasks, (w.tcb t).state = .ready →
        (w.tcb t).effectivePriority ≤ (w.tcb c).effectivePriority := by
  have hs := reached_sound h
  obtain ⟨c, hc, hcur⟩ := hs.current hrun
  refine ⟨c, hc, hcur, ?_, reached_prompt h hrun hpended c hcur⟩
  by_contra hstate
  simp [hs.switch_pended c hcur hstate] at hpended

/-- Task 1 unlocks the mutex whose waiter, task 2, has timed out in the meantime. -/
theorem no_missed_preemption_demo :
    let w := demoRun (demoBoot ++ [.call .thread (.taskDelay 1), .pendSV true,
      .call .thread (.mutexLock (some 0) 0), .tick, .pendSV true, .resume,
      .call .thread (.mutexLock (some 0) 1), .tick, .pendSV true, .resume,
      .call .thread (.taskDelay 5), .pendSV true, .call .thread (.mutexUnlock (some 0))])
    w.pended = false ∧ ∃ c ∈ w.tasks, w.currentTask = some c ∧ (w.tcb c).state = .running ∧
      ∀ t ∈ w.tasks, (w.tcb t).state = .ready →
        (w.tcb t).effectivePriority ≤ (w.tcb c).effectivePriority :=
  ⟨by decide, no_missed_preemption (demoRun_reached _) (by decide) (by decide)⟩

end Reached

section Inversion

variable {P : Platform τ} {w : World τ ι}

/-- A priority rises along the owners. -/
theorem effectivePriority_le_owner (hi : Inherited w.toKernel) {t v : τ} (ht : t ∈ w.tasks)
    (hpath : Relation.ReflTransGen (WaitsForOwner w.toKernel) t v)
    (hclosed : Closed (blockingOwner w.toKernel) w.tasks) :
    v ∈ w.tasks ∧ (w.tcb t).effectivePriority ≤ (w.tcb v).effectivePriority := by
  rw [← edge_blockingOwner] at hpath
  induction hpath with
  | refl => exact ⟨ht, le_refl _⟩
  | @tail u x _ hedge ih =>
      have hx := hclosed u x hedge
      exact ⟨hx, ih.2.trans (hi.edge_le hedge hx)⟩

variable [DecidableEq τ] [DecidableEq ι]

/-- A task that waits for a mutex is held up by no less urgent work: as soon as the owner
at the end of its chain can run, the processor is with a task that has at least its
priority, of its own or from one that waits for it. -/
theorem no_unbounded_inversion (h : Reached P w) (hrun : w.running = true)
    (hpended : w.pended = false) {t v : τ} (ht : t ∈ w.tasks)
    (hpath : Relation.ReflTransGen (WaitsForOwner w.toKernel) t v)
    (hready : Runnable w.toKernel v) :
    ∃ c ∈ w.tasks, w.currentTask = some c ∧ (w.tcb c).state = .running ∧
      ∃ u ∈ w.tasks, Relation.ReflTransGen (WaitsForOwner w.toKernel) u c ∧
        (w.tcb t).effectivePriority ≤ (w.tcb u).basePriority := by
  have hinvariant := reached_invariant h
  have hs := hinvariant.sound
  have hclosed := blockingOwner_closed hs
  obtain ⟨hv, hle⟩ := effectivePriority_le_owner hinvariant.inherited ht hpath hclosed
  obtain ⟨c, hc, hcur⟩ := hs.current hrun
  have hstate : (w.tcb c).state = .running := by
    by_contra hstate
    simp [hs.switch_pended c hcur hstate] at hpended
  have hvc : (w.tcb v).effectivePriority ≤ (w.tcb c).effectivePriority := by
    rcases hready with hready | hrunning
    · exact reached_prompt h hrun hpended c hcur v hv hready
    · obtain rfl := Option.some.inj ((hs.running_current v hv hrunning).symm.trans hcur)
      exact le_refl _
  obtain ⟨u, hu, hreach, hbase⟩ := (hinvariant.inherited c hc).1
  rw [edge_blockingOwner] at hreach
  refine ⟨c, hc, hcur, hstate, u, hu, hreach, (hle.trans hvc).trans ?_⟩
  exact le_of_eq (Eq.symm hbase)

/-- Tasks 1, 2 and 3 of priorities 2, 6 and 4. Task 2 waits for the mutex of task 1 when
task 3 gets ready. -/
def demoInversion : List (Op Nat Nat) :=
  [.init (some ⟨1000, 5⟩),
    .taskCreate (some 1) 0x08000201 0 0x20001000 128 2,
    .taskCreate (some 2) 0x08000301 0 0x20002000 128 6,
    .taskCreate (some 3) 0x08000401 0 0x20003000 128 4,
    .mutexInit (some 0), .start true true, .call .thread (.taskDelay 1), .pendSV true,
    .call .thread (.taskDelay 2), .pendSV true, .call .thread (.mutexLock (some 0) 0), .tick,
    .pendSV true, .resume, .call .thread (.mutexLock (some 0) rtosWaitForever), .pendSV true,
    .tick, .pendSV true]

theorem no_unbounded_inversion_demo :
    let w := demoRun demoInversion
    (w.tcb 3).state = .ready ∧ w.currentTask = some 1 ∧
      ∃ c ∈ w.tasks, w.currentTask = some c ∧ (w.tcb c).state = .running ∧
        ∃ u ∈ w.tasks, Relation.ReflTransGen (WaitsForOwner w.toKernel) u c ∧
          (w.tcb 2).effectivePriority ≤ (w.tcb u).basePriority := by
  refine ⟨by decide, by decide, ?_⟩
  have hwaits : WaitsForOwner (demoRun demoInversion).toKernel 2 1 :=
    ⟨by decide, 0, ⟨some 1⟩, by decide, by decide, by decide, rfl, rfl⟩
  exact no_unbounded_inversion (demoRun_reached _) (by decide) (by decide) (by decide)
    (.single hwaits) (.inr (by decide))

end Inversion

end Stm32f411.Preemption
