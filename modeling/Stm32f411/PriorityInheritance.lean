import Stm32f411.WaiterService

/-!
Effective priorities are exact in every reachable state. Most steps change no edge of the
waiting graph, and the three that do recompute the priorities: a contended lock, an
unlock, and a tick that times out a mutex waiter.
-/

namespace Stm32f411.PriorityInheritance

open Stm32f411.InheritanceRelaxation
open Stm32f411.LabelledRuns
open Stm32f411.RtosTypes
open Stm32f411.RtosKernel
open Stm32f411.RtosIpc
open Stm32f411.RtosSystem
open Stm32f411.RtosKernelSpec
open Stm32f411.RtosBootSpec
open Stm32f411.RtosCallSpec
open Stm32f411.RtosStepSpec
open Stm32f411.KernelSoundness
open Stm32f411.WaiterService

variable {τ ι : Type}

/-- `u` is BLOCKED on a mutex that `v` owns. -/
def WaitsForOwner (k : Kernel τ ι) (u v : τ) : Prop :=
  u ∈ k.tasks ∧ ∃ p m, (k.tcb u).state = .blocked ∧ (k.tcb u).waitType = .mutex ∧
    (k.tcb u).waitObject = some p ∧ k.objects p = .mutex m ∧ m.owner = some v

def Inherited (k : Kernel τ ι) : Prop :=
  Exact (blockingOwner k) k.tasks (fun t => (k.tcb t).basePriority)
    fun t => (k.tcb t).effectivePriority

section Edges

variable {k k' : Kernel τ ι} {t : τ}

theorem blockingOwner_of_ne (h : (k.tcb t).state ≠ .blocked ∨ (k.tcb t).waitType ≠ .mutex) :
    blockingOwner k t = none := by
  unfold blockingOwner
  split
  · next hb => exact absurd hb (by tauto)
  · rfl

theorem blockingOwner_congr (hstate : (k'.tcb t).state = (k.tcb t).state)
    (htype : (k'.tcb t).waitType = (k.tcb t).waitType)
    (hobject : (k'.tcb t).waitObject = (k.tcb t).waitObject)
    (howner : ∀ p, (k.tcb t).waitObject = some p →
      (k'.objects p).owner? = (k.objects p).owner?) :
    blockingOwner k' t = blockingOwner k t := by
  unfold blockingOwner
  rw [hstate, htype, hobject]
  cases hp : (k.tcb t).waitObject with
  | none => rfl
  | some p => simp [howner p hp]

end Edges

section Rules

variable {P : Platform τ} {k k' : Kernel τ ι}

/-- No task gains, loses or moves an edge, and no priority changes. -/
theorem Inherited.congr (h : Inherited k) (htasks : k'.tasks = k.tasks)
    (hedge : ∀ t ∈ k.tasks, blockingOwner k' t = blockingOwner k t)
    (hbase : ∀ t ∈ k.tasks, (k'.tcb t).basePriority = (k.tcb t).basePriority)
    (heffective : ∀ t ∈ k.tasks,
      (k'.tcb t).effectivePriority = (k.tcb t).effectivePriority) : Inherited k' := by
  unfold Inherited
  rw [htasks]
  exact Exact.congr h (fun t ht => (hedge t ht).symm) (fun t ht => (hbase t ht).symm)
    fun t ht => (heffective t ht).symm

theorem inherited_recompute [DecidableEq τ]
    (hs : Sound P k) : Inherited (rtosKernelRecomputePriorities k) := by
  have hexact := recomputedPriority_exact (k := k) fun t _ owner howner => by
    obtain ⟨p, m, _, _, _, hobj, hm⟩ := blockingOwner_eq_some.mp howner
    exact (hs.owner_task p owner (by simp [hobj, hm])).1
  exact hexact

/-- Before the start nobody waits, and the priorities are the base priorities. -/
theorem inherited_of_stopped (hs : Sound P k) (hstopped : k.running = false) :
    Inherited k := by
  intro t ht
  have hnone : ∀ u ∈ k.tasks, blockingOwner k u = none := fun u hu =>
    blockingOwner_of_ne (Or.inl (by simp [hs.stopped_ready hstopped u hu]))
  dsimp only
  rw [hs.stopped_priority hstopped t ht]
  refine ⟨⟨t, ht, .refl, rfl⟩, ?_⟩
  rintro b ⟨u, hu, hreach, rfl⟩
  rcases Relation.ReflTransGen.cases_head hreach with rfl | ⟨v, ⟨huv, hedge⟩, _⟩
  · exact le_rfl
  · simp [hnone u hu] at hedge

theorem Inherited.setObject [DecidableEq ι] (h : Inherited k) {p : ι} {object : Object τ}
    (howner : ∀ t ∈ k.tasks, isWaiter k .mutex p t = true →
      object.owner? = (k.objects p).owner?) : Inherited (k.setObject p object) := by
  refine h.congr rfl (fun t ht => ?_) (fun _ _ => rfl) fun _ _ => rfl
  by_cases hw : isWaiter k .mutex p t = true
  · refine blockingOwner_congr rfl rfl rfl fun q _ => ?_
    rcases eq_or_ne q p with rfl | hq
    · simpa using howner t ht hw
    · simp [hq]
  · by_cases hb : (k.tcb t).state = .blocked ∧ (k.tcb t).waitType = .mutex
    · refine blockingOwner_congr rfl rfl rfl fun q hwait => ?_
      have hq : q ≠ p := by
        rintro rfl
        exact hw (isWaiter_iff.mpr ⟨hb.1, hb.2, hwait⟩)
      simp [hq]
    · have hne : (k.tcb t).state ≠ .blocked ∨ (k.tcb t).waitType ≠ .mutex := by tauto
      rw [blockingOwner_of_ne hne, blockingOwner_of_ne (k := k.setObject p object) hne]

/-- A task that has no edge before and none after may change in any other way. -/
theorem Inherited.modifyTask [DecidableEq τ] (h : Inherited k) {w : τ} {f : RtosTask ι → RtosTask ι}
    (hbefore : (k.tcb w).state ≠ .blocked ∨ (k.tcb w).waitType ≠ .mutex)
    (hafter : (f (k.tcb w)).state ≠ .blocked ∨ (f (k.tcb w)).waitType ≠ .mutex)
    (hbase : (f (k.tcb w)).basePriority = (k.tcb w).basePriority)
    (heffective : (f (k.tcb w)).effectivePriority = (k.tcb w).effectivePriority) :
    Inherited (k.modifyTask w f) := by
  have hfield : ∀ (g : RtosTask ι → Nat), g (f (k.tcb w)) = g (k.tcb w) →
      ∀ t, g ((k.modifyTask w f).tcb t) = g (k.tcb t) := by
    intro g hg t
    rcases eq_or_ne t w with rfl | ht
    · simpa using hg
    · simp [ht]
  refine h.congr rfl (fun t _ => ?_) (fun t _ => hfield _ hbase t)
    fun t _ => hfield _ heffective t
  rcases eq_or_ne t w with rfl | ht
  · rw [blockingOwner_of_ne hbefore]
    exact blockingOwner_of_ne (by simpa using hafter)
  · exact blockingOwner_congr (by simp [ht]) (by simp [ht]) (by simp [ht]) fun _ _ => rfl

theorem Inherited.pend (h : Inherited k) : Inherited (rtosPortPendContextSwitch k) :=
  h

theorem Inherited.record (h : Inherited k) (event : Event τ ι) : Inherited (k.record event) :=
  h

theorem Inherited.maybePreempt (h : Inherited k) (t : Option τ) :
    Inherited (rtosMaybePreempt k t) := by
  unfold rtosMaybePreempt
  split
  · exact h
  · exact h

end Rules

section Calls

variable {P : Platform τ} {k k' : Kernel τ ι}

theorem MustWait.ne_mutex [DecidableEq ι]
    {waitType : WaitType} {p : ι} (h : MustWait k waitType p) :
    waitType ≠ .mutex := by
  rintro rfl
  exact h

theorem Inherited.setWaitBytes (h : Inherited k) (t : τ) (bytes : Nat → Byte) :
    Inherited (setWaitBytes k t bytes) := by
  unfold RtosIpc.setWaitBytes
  split
  · exact h
  · exact h

variable [DecidableEq ι]

theorem Inherited.pushItem (h : Inherited k) {p : ι} {q : Queue}
    (hobj : ∃ q, k.objects p = .queue q) (sender : Option τ) (bytes : Nat → Byte) :
    Inherited (pushItem k sender p q bytes) := by
  obtain ⟨_, hobj⟩ := hobj
  exact (h.setObject fun _ _ _ => by simp [hobj]).record _

theorem Inherited.popItem (h : Inherited k) {p : ι} {q : Queue}
    (hobj : k.objects p = .queue q) (caller : Option τ) (item : BufferPtr) :
    Inherited (popItem k caller p q item) :=
  (Inherited.setObject (k := k.setBuffer item _) h fun _ _ _ => by simp [hobj]).record _

variable [DecidableEq τ]

theorem Inherited.callEffect (h : Inherited k) (hs : Sound P k) (hn : NoStranded k)
    {mode : Mode} (hcaller : CallerRuns P k mode) {call : Call ι} {outcome : Outcome}
    (heffect : CallEffect k mode call k' outcome) : Inherited k' := by
  have hs' := hs.callEffect hcaller heffect
  cases heffect with
  | refused _ _ => exact h
  | ignored _ => exact h
  | yielded _ _ => exact h
  | delayed hthread _ _ =>
      obtain ⟨hstate, _⟩ := hcaller.thread hthread.mode_eq _ hthread.current
      exact (h.modifyTask (Or.inl (by simp [hstate])) (Or.inl (by simp)) rfl rfl).pend
  | @slept self call waitType p buffer timeoutTicks hthread _ _ _ hmust =>
      obtain ⟨hstate, _⟩ := hcaller.thread hthread.mode_eq _ hthread.current
      exact h.modifyTask (w := self) (f := enterWait k waitType p buffer timeoutTicks)
        (Or.inl (by simp [hstate])) (Or.inr (MustWait.ne_mutex hmust)) rfl rfl
  | sleptOnMutex hthread _ _ hobj _ _ =>
      obtain ⟨hstate, hidle⟩ := hcaller.thread hthread.mode_eq _ hthread.current
      exact inherited_recompute
        (hs.sleepOn hthread.running hidle (by simp [hobj]) (by simp) _)
  | took _ hobj _ => exact (h.setObject fun _ _ _ => by simp [hobj]).record _
  | gave _ hobj _ _ => exact h.setObject fun _ _ _ => by simp [hobj]
  | gaveTo _ _ hfind =>
      have htype := (isWaiter_iff.mp (findWaiter_waits hfind).2).2.1
      exact ((h.modifyTask (Or.inr (by simp [htype])) (Or.inl (by simp [leaveWait])) rfl
        rfl).record _).maybePreempt _
  | locked hthread _ hobj howner =>
      obtain ⟨hstate, _⟩ := hcaller.thread hthread.mode_eq _ hthread.current
      refine ((h.setObject fun t ht hw => ?_).modifyTask (Or.inl (by simp [hstate]))
        (Or.inl (by simp [hstate])) rfl rfl).record _
      have hjust := hn t ht _ _ hw
      rw [hobj, justified_mutex, howner] at hjust
      simp at hjust
  | unlocked hthread hobj _ _ =>
      exact inherited_recompute ((hs.releaseHold _ _).setOwner hthread.running hobj (by simp))
  | unlockedTo hthread hobj _ hfind =>
      obtain ⟨hw, hwaits⟩ := findWaiter_waits hfind
      exact (inherited_recompute ((hs.releaseHold _ _).grantHold hthread.running hobj hw
        (isWaiter_iff.mp hwaits).1)).maybePreempt _
  | sent _ hobj _ _ => exact (h.setObject fun _ _ _ => by simp [hobj]).record _
  | sentTo _ hobj hfind =>
      have htype := (isWaiter_iff.mp (findWaiter_waits hfind).2).2.1
      refine ((((h.setWaitBytes _ _).record _).record _).modifyTask (Or.inr ?_)
        (Or.inl (by simp [leaveWait])) rfl rfl).maybePreempt _
      simp [htype]
  | received _ hobj _ _ => exact h.popItem hobj _ _
  | receivedFrom _ hobj _ hfind =>
      have htype := (isWaiter_iff.mp (findWaiter_waits hfind).2).2.1
      refine (((h.popItem hobj _ _).pushItem ⟨_, popItem_object _ _ _ _ _⟩ _ _).modifyTask
        (Or.inr ?_) (Or.inl (by simp [leaveWait])) rfl rfl).maybePreempt _
      rw [popItem_tcb] at htype
      simp [htype]

end Calls

variable [DecidableEq τ]

section Reached

variable {P : Platform τ} {k k' : Kernel τ ι}

/-- A tick that times no mutex waiter out leaves every edge alone. -/
theorem Inherited.tick (h : Inherited k) (hs : Sound P k) : Inherited (sysTickHandler k) := by
  cases hrun : k.running with
  | false =>
      rw [sysTickHandler_stopped hrun]
      exact h
  | true =>
      rw [sysTickHandler_eq hrun hs.nodup]
      split
      · exact (inherited_recompute hs.ticked).pend
      · next hany =>
          have htick : ∀ t ∈ k.tasks,
              (ticked { k with tick := k.tick + 1 }).tcb t = tickTask (k.tick + 1) (k.tcb t) :=
            fun t ht => by simp [ht]
          refine Inherited.pend (h.congr rfl (fun t ht => ?_) (fun t ht => ?_) fun t ht => ?_)
          · have hquiet : mutexTimesOut (k.tick + 1) (k.tcb t) = false := by
              simpa using fun hm => hany (List.any_eq_true.mpr ⟨t, ht, hm⟩)
            rcases tickTask_edge hquiet with hsame | ⟨hbefore, hafter⟩
            · refine blockingOwner_congr ?_ ?_ ?_ fun _ _ => rfl <;> rw [htick t ht, hsame]
            · rw [blockingOwner_of_ne hbefore]
              exact blockingOwner_of_ne (by rwa [htick t ht])
          · rw [htick t ht]
            exact (tickTask_priorities _ _).1
          · rw [htick t ht]
            exact (tickTask_priorities _ _).2

theorem Inherited.switched (h : Inherited k) {next : τ} (hswitch : Switched k next k') :
    Inherited k' := by
  have htcb := hswitch.tcb_eq
  have hblocked := hswitch.blocked
  obtain ⟨_, _, _, cursor, hk'⟩ := hswitch
  refine h.congr (by simp [hk']) (fun t _ => ?_) (fun t _ => by rw [htcb])
    fun t _ => by rw [htcb]
  rcases eq_or_ne (k.tcb t).state .blocked with hb | hb
  · refine blockingOwner_congr (((hblocked t).mpr hb).trans hb.symm) (by rw [htcb])
      (by rw [htcb]) fun _ _ => by simp [hk']
  · rw [blockingOwner_of_ne (Or.inl hb)]
    exact blockingOwner_of_ne (Or.inl fun hb' => hb ((hblocked t).mp hb'))

variable [DecidableEq ι]

theorem Inherited.quiet (h : Inherited k) (hs : Sound P k) (hquiet : QuietStep P k k') :
    Inherited k' := by
  have hs' := hs.quiet hquiet
  cases hquiet with
  | unchanged => exact h
  | booted hboot =>
      obtain ⟨hstopped, _, _, _, _, rfl⟩ := hboot
      exact inherited_of_stopped hs' hstopped
  | created _ hstopped _ hadd =>
      obtain ⟨_, _, _, _, rfl⟩ := hadd
      exact inherited_of_stopped hs' hstopped
  | placed _ hstopped _ => exact inherited_of_stopped hs' hstopped
  | refusedStart hstopped => exact inherited_of_stopped hs' hstopped
  | started hstart =>
      obtain ⟨_, hstopped, first, cursor, hmem, _, _, rfl⟩ := hstart
      have hready := hs.stopped_ready hstopped first hmem
      exact (h.modifyTask (w := first) (f := fun t => { t with state := .running })
        (Or.inl (by simp [hready])) (Or.inl (by simp)) rfl rfl)
  | terminated hcur hstate _ _ =>
      exact (h.modifyTask (Or.inl (by simp [hstate])) (Or.inl (by simp)) rfl rfl).pend
  | switched _ hswitch => exact h.switched hswitch
  | wrote => exact h

theorem Inherited.step (h : Inherited k) (hs : Sound P k) (hn : NoStranded k)
    (hstep : KernelStep P k k') : Inherited k' := by
  cases hstep with
  | quiet hquiet => exact h.quiet hs hquiet
  | marked _ => exact h
  | call hcaller heffect => exact h.callEffect hs hn hcaller heffect
  | ticked => exact h.tick hs

/-- The three invariants that support each other. -/
structure KernelInvariant (P : Platform τ) (k : Kernel τ ι) : Prop where
  sound : Sound P k
  noStranded : NoStranded k
  inherited : Inherited k

omit [DecidableEq τ] in
theorem KernelInvariant.reset {w : World τ ι} (h : Reset w) :
    KernelInvariant P w.toKernel :=
  have hs : Sound P w.toKernel := .reset h
  ⟨hs, .of_stopped hs h.running, inherited_of_stopped hs h.running⟩

theorem KernelInvariant.step (h : KernelInvariant P k) (hstep : KernelStep P k k') :
    KernelInvariant P k' :=
  ⟨h.sound.step hstep, h.noStranded.step h.sound hstep,
    h.inherited.step h.sound h.noStranded hstep⟩

theorem reached_invariant {w : World τ ι} (h : Reached P w) :
    KernelInvariant P w.toKernel :=
  reached_kernel (fun _ => .reset) (fun _ _ hk => hk.step) h

/-- The invariant rule for what later runs preserve. -/
theorem run_kernel {I : Kernel τ ι → Prop}
    (hstep : ∀ k k', KernelInvariant P k → I k → KernelStep P k k' → I k')
    {w w' : World τ ι} {ops : List (Op τ ι)} (hw : Reached P w) (h : I w.toKernel)
    (hrun : Run (Steps (RtosSystem.step P)) w ops w') : I w'.toKernel := by
  have hboth : Reached P w' ∧ I w'.toKernel := by
    refine hrun.preserves (I := fun w => Reached P w ∧ I w.toKernel) ?_ ⟨hw, h⟩
    rintro s op s' ⟨hs, hI⟩ hop
    refine ⟨hs.step hop, ?_⟩
    have hk := reached_invariant hs
    have hsteps := (step_system hop).kernelSteps
    generalize s'.toKernel = k' at hsteps
    have hall : KernelInvariant P k' ∧ I k' := by
      induction hsteps with
      | refl => exact ⟨hk, hI⟩
      | tail _ hlast ih => exact ⟨ih.1.step hlast, hstep _ _ ih.1 ih.2 hlast⟩
    exact hall.2
  exact hboth.2

omit [DecidableEq τ] [DecidableEq ι] in
theorem edge_blockingOwner (k : Kernel τ ι) :
    Edge (blockingOwner k) k.tasks = WaitsForOwner k := by
  funext u v
  rw [Edge, blockingOwner_eq_some]
  rfl

/-- Every effective priority is the greatest base priority among the task itself and the
tasks that wait for it, directly or through further mutexes. -/
theorem effective_priority_exact {w : World τ ι} (h : Reached P w) {t : τ}
    (ht : t ∈ w.tasks) :
    IsGreatest {b | ∃ u ∈ w.tasks,
        Relation.ReflTransGen (WaitsForOwner w.toKernel) u t ∧ (w.tcb u).basePriority = b}
      (w.tcb t).effectivePriority := by
  have hexact := (reached_invariant h).inherited t ht
  rwa [edge_blockingOwner] at hexact

/-- Task 1 of priority 2 holds the mutex task 2 of priority 6 sleeps on. -/
theorem effective_priority_exact_demo :
    let w := demoRun (demoBoot ++ [.call .thread (.semaphoreTake (some 1) 5), .pendSV true,
      .call .thread (.mutexLock (some 0) 0), .tick, .tick, .tick, .tick, .tick, .pendSV true,
      .resume, .call .thread (.mutexLock (some 0) rtosWaitForever)])
    (w.tcb 1).basePriority = 2 ∧ (w.tcb 1).effectivePriority = 6 ∧
      IsGreatest {b | ∃ u ∈ w.tasks,
        Relation.ReflTransGen (WaitsForOwner w.toKernel) u 1 ∧ (w.tcb u).basePriority = b}
        (w.tcb 1).effectivePriority :=
  ⟨by decide, by decide, effective_priority_exact (demoRun_reached _) (by decide)⟩

end Reached

end Stm32f411.PriorityInheritance
