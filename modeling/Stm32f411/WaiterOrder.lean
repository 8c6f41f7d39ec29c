import Mathlib.Data.Prod.Lex
import Stm32f411.Deadlines

/-!
Waiters are served in the order in which the run put them to sleep. The run keeps that
order as a list; a waiter's sequence number lies as far behind the kernel's counter as the
list has grown since, modulo the counter's range.
-/

namespace Stm32f411.WaiterOrder

open Stm32f411.LabelledRuns
open Stm32f411.WrappingClock
open Stm32f411.RtosTypes
open Stm32f411.RtosKernel
open Stm32f411.RtosIpc
open Stm32f411.RtosSystem
open Stm32f411.RtosKernelSpec
open Stm32f411.RtosBootSpec
open Stm32f411.RtosCallSpec
open Stm32f411.RtosStepSpec
open Stm32f411.KernelSoundness

variable {τ ι : Type}

/-- The tasks a step puts to sleep on an object. -/
def newlyBlocked (k k' : Kernel τ ι) : List τ :=
  k'.tasks.filter fun t =>
    decide ((k.tcb t).state ≠ .blocked) && decide ((k'.tcb t).state = .blocked)

/-- A step of the system, with the list of all block operations so far. -/
def orderedStep [DecidableEq τ] [DecidableEq ι]
    (P : Platform τ) (s : World τ ι × List τ) (op : Op τ ι) :
    Option (World τ ι × List τ) :=
  (step P s.1 op).map fun w => (w, s.2 ++ newlyBlocked s.1.toKernel w.toKernel)

def OrderedReset (s : World τ ι × List τ) : Prop :=
  Reset s.1 ∧ s.2 = []

/-- The number of block operations after the last one of `t`. -/
def blocksSince [DecidableEq τ] (order : List τ) (t : τ) : Nat :=
  order.reverse.idxOf t

section Order

variable [DecidableEq τ]
variable {order : List τ} {t u : τ}

theorem blocksSince_snoc_self : blocksSince (order ++ [t]) t = 0 := by
  simp [blocksSince]

theorem blocksSince_snoc_ne (h : t ≠ u) :
    blocksSince (order ++ [u]) t = blocksSince order t + 1 := by
  simp [blocksSince, List.idxOf_cons_ne _ h.symm]

theorem blocksSince_inj (ht : t ∈ order) (h : blocksSince order t = blocksSince order u) :
    t = u :=
  (List.idxOf_inj (by simpa using ht)).mp h

end Order

/-- How far a task's sequence number lies behind the counter. -/
def sequenceAge (k : Kernel τ ι) (t : τ) : Word :=
  k.waitSequence - (k.tcb t).waitSequence

section Steps

variable {P : Platform τ} {k k' k'' : Kernel τ ι}

/-- What a step does to the waiters: it adds none, or the caller. -/
inductive Arrival (k k' : Kernel τ ι) : Prop
  | nobody : (∀ t ∈ k'.tasks, (k'.tcb t).state = .blocked →
      t ∈ k.tasks ∧ (k.tcb t).state = .blocked ∧ sequenceAge k' t = sequenceAge k t) →
      Arrival k k'
  | caller {self : τ} : k'.tasks = k.tasks → self ∈ k.tasks →
      (k.tcb self).state ≠ .blocked → (k'.tcb self).state = .blocked →
      sequenceAge k' self = 0 →
      (∀ t, t ≠ self → (k'.tcb t).state = (k.tcb t).state ∧
        sequenceAge k' t = sequenceAge k t + 1) → Arrival k k'

/-- A call that returns does not move the counter. -/
theorem waitSequence_returned [DecidableEq τ] [DecidableEq ι]
    {mode : Mode} {call : Call ι} {result : Status}
    (h : CallEffect k mode call k' (.returned result)) :
    k'.waitSequence = k.waitSequence := by
  cases h with
  | gaveTo _ _ _ => rw [maybePreempt_waitSequence]; rfl
  | unlockedTo _ _ _ _ => rw [maybePreempt_waitSequence]; rfl
  | sentTo _ _ _ => simp [handItem]
  | receivedFrom _ _ _ _ => rw [maybePreempt_waitSequence]; rfl
  | _ => rfl

/-- A call that returns leaves the waiters it does not wake as they were. -/
theorem blocked_returned [DecidableEq τ] [DecidableEq ι]
    {mode : Mode} {call : Call ι} {result : Status}
    (h : CallEffect k mode call k' (.returned result)) {t : τ}
    (hblocked : (k'.tcb t).state = .blocked) :
    (k.tcb t).state = .blocked ∧ (k'.tcb t).waitSequence = (k.tcb t).waitSequence := by
  have htask := h.task t
  generalize k'.tcb t = t' at htask hblocked
  cases htask with
  | kept hkept =>
      obtain ⟨_, _, rfl⟩ := hkept
      exact ⟨hblocked, rfl⟩
  | woken _ _ hkept =>
      obtain ⟨_, _, rfl⟩ := hkept
      simp [leaveWait] at hblocked

/-- The caller sleeps as the newest waiter; the others are one block older. -/
theorem Arrival.of_slept [DecidableEq τ] {mode : Mode} {self : τ} {waitType : WaitType} {p : ι}
    {buffer : Option BufferPtr} {timeoutTicks : Word} (hs : Sound P k)
    (hcaller : CallerRuns P k mode) (hthread : ThreadCall k mode self)
    (htasks : k'.tasks = k.tasks) (hsequence : k'.waitSequence = k.waitSequence + 1)
    (hkept : ∀ t, Kept ((sleepOn k self waitType p buffer timeoutTicks).tcb t) (k'.tcb t)) :
    Arrival k k' := by
  have hrunning := (hcaller.thread hthread.mode_eq self hthread.current).1
  refine .caller htasks (hs.current_mem hthread.running hthread.current)
    (by simp [hrunning]) ?_ ?_ fun t ht => ?_
  · obtain ⟨_, _, hself⟩ := hkept self
    simp [hself, enterWait]
  · obtain ⟨_, _, hself⟩ := hkept self
    simp [sequenceAge, hself, hsequence, enterWait]
  · obtain ⟨_, _, hother⟩ := hkept t
    simp only [sequenceAge, hother, hsequence, sleepOn_tcb, Function.update_of_ne ht, true_and]
    exact add_sub_right_comm _ _ _

theorem Arrival.callEffect [DecidableEq τ] [DecidableEq ι]
    {mode : Mode} {call : Call ι} {outcome : Outcome}
    (hs : Sound P k) (hcaller : CallerRuns P k mode)
    (h : CallEffect k mode call k' outcome) : Arrival k k' := by
  cases outcome with
  | returned result =>
      refine .nobody fun t ht hblocked => ?_
      obtain ⟨hbefore, hsequence⟩ := blocked_returned h hblocked
      rw [h.frame.tasks] at ht
      refine ⟨ht, hbefore, ?_⟩
      rw [sequenceAge, sequenceAge, hsequence, waitSequence_returned h]
  | suspended =>
      cases h with
      | @delayed self ticks hthread _ _ =>
          refine .nobody fun t ht hblocked => ?_
          rcases eq_or_ne t self with rfl | hne
          · simp at hblocked
          · exact ⟨ht, by simpa [hne] using hblocked, by simp [sequenceAge, hne]⟩
      | slept hthread _ _ _ _ =>
          exact .of_slept hs hcaller hthread rfl rfl fun t => .refl _
      | sleptOnMutex hthread _ _ _ _ _ =>
          exact .of_slept hs hcaller hthread rfl rfl fun t => kept_recompute _ t

theorem Arrival.of_stopped (hs' : Sound P k') (hstopped : k'.running = false) :
    Arrival k k' := by
  refine .nobody fun t ht hblocked => ?_
  rw [hs'.stopped_ready hstopped t ht] at hblocked
  cases hblocked

/-- Writes that put nobody to sleep and move no sequence number. -/
theorem Arrival.of_awake (htasks : k'.tasks = k.tasks)
    (hsequence : k'.waitSequence = k.waitSequence)
    (htcb : ∀ t ∈ k.tasks, (k'.tcb t).state = .blocked →
      (k.tcb t).state = .blocked ∧ (k'.tcb t).waitSequence = (k.tcb t).waitSequence) :
    Arrival k k' := by
  refine .nobody fun t ht hblocked => ?_
  rw [htasks] at ht
  obtain ⟨hbefore, hsame⟩ := htcb t ht hblocked
  exact ⟨ht, hbefore, by rw [sequenceAge, sequenceAge, hsame, hsequence]⟩

theorem Arrival.modifyTask [DecidableEq τ] (w : τ) {f : RtosTask ι → RtosTask ι} (pended : Bool)
    (hf : (f (k.tcb w)).state ≠ .blocked) :
    Arrival k { k.modifyTask w f with pended := pended } := by
  refine .of_awake rfl rfl fun t _ hblocked => ?_
  rcases eq_or_ne t w with rfl | hne
  · exact absurd (by simpa using hblocked) hf
  · exact ⟨by simpa [hne] using hblocked, by simp [hne]⟩

theorem Arrival.refl (k : Kernel τ ι) : Arrival k k :=
  .of_awake rfl rfl fun _ _ hblocked => ⟨hblocked, rfl⟩

variable [DecidableEq τ]

theorem Arrival.quiet [DecidableEq ι]
    (hs : Sound P k) (hquiet : QuietStep P k k') : Arrival k k' := by
  have hs' := hs.quiet hquiet
  cases hquiet with
  | unchanged => exact .refl k
  | booted hboot =>
      obtain ⟨hstopped, _, _, _, _, rfl⟩ := hboot
      exact .of_stopped hs' hstopped
  | created _ hstopped _ hadd =>
      obtain ⟨_, _, _, _, rfl⟩ := hadd
      exact .of_stopped hs' hstopped
  | placed _ hstopped _ => exact .of_stopped hs' hstopped
  | refusedStart hstopped => exact .of_stopped hs' hstopped
  | started hstart =>
      obtain ⟨_, _, first, cursor, _, _, _, rfl⟩ := hstart
      refine .of_awake rfl rfl fun t _ hblocked => ?_
      rcases eq_or_ne t first with rfl | hne
      · simp at hblocked
      · exact ⟨by simpa [hne] using hblocked, by simp [hne]⟩
  | terminated _ _ _ _ => exact .modifyTask _ true (by simp)
  | switched _ hswitch =>
      have htcb := hswitch.tcb_eq
      have hstate := hswitch.blocked
      obtain ⟨_, _, _, cursor, hk'⟩ := hswitch
      refine .of_awake (by simp [hk']) (by simp [hk']) fun t _ hblocked => ?_
      exact ⟨(hstate t).mp hblocked, by rw [htcb]⟩
  | wrote => exact .of_awake rfl rfl fun _ _ hblocked => ⟨hblocked, rfl⟩

theorem Arrival.tick (hs : Sound P k) : Arrival k (sysTickHandler k) := by
  cases hrun : k.running with
  | false =>
      rw [sysTickHandler_stopped hrun]
      exact .of_awake rfl rfl fun _ _ hblocked => ⟨hblocked, rfl⟩
  | true =>
      obtain ⟨⟨tcb, htick⟩, htasks⟩ := sysTickHandler_running hrun hs.nodup
      refine .of_awake (by rw [htick]) (by rw [htick]) fun t ht hblocked => ?_
      obtain ⟨priority, htcb⟩ := htasks t ht
      rw [htcb] at hblocked ⊢
      have hsame : tickTask (k.tick + 1) (k.tcb t) = k.tcb t := tickTask_blocked hblocked
      rw [hsame] at hblocked ⊢
      exact ⟨hblocked, rfl⟩

end Steps

section Runs

variable {P : Platform τ} {k k' : Kernel τ ι} {w w' : World τ ι} {order : List τ}

/-- The history marks a call leaves move no waiter. -/
theorem Arrival.entered {event : Event τ ι} (h : Arrival (k.record event) k') :
    Arrival k k' := by
  cases h with
  | nobody hold => exact .nobody hold
  | caller htasks hself hawake hblocked hage hrest =>
      exact .caller htasks hself hawake hblocked hage hrest

theorem Arrival.record (h : Arrival k k') (event : Event τ ι) :
    Arrival k (k'.record event) := by
  cases h with
  | nobody hold => exact .nobody hold
  | caller htasks hself hawake hblocked hage hrest =>
      exact .caller htasks hself hawake hblocked hage hrest

variable [DecidableEq τ]

theorem Arrival.system [DecidableEq ι] {op : Op τ ι} (hs : Sound P w.toKernel)
    (hstep : SystemStep P w op w') : Arrival w.toKernel w'.toKernel := by
  cases hstep with
  | ticked => exact .tick hs
  | quiet _ hquiet => exact .quiet hs hquiet
  | @returned mode call k' result hruns _ heffect =>
      have hcalled : Arrival (callEntered w.toKernel mode call) k' :=
        .callEffect (hs.record _) (hruns.record _) heffect
      exact hcalled.entered.record _
  | @suspended mode call k' self hruns _ _ heffect =>
      have hcalled : Arrival (callEntered w.toKernel mode call) k' :=
        .callEffect (hs.record _) (hruns.record _) heffect
      exact hcalled.entered
  | resumed _ _ _ => exact .of_awake rfl rfl fun _ _ hblocked => ⟨hblocked, rfl⟩

/-- Every waiter's sequence number tells how many block operations came after its own. -/
def InOrder (k : Kernel τ ι) (order : List τ) : Prop :=
  ∀ t ∈ k.tasks, (k.tcb t).state = .blocked →
    t ∈ order ∧ sequenceAge k t = BitVec.ofNat 32 (blocksSince order t)

theorem newlyBlocked_caller {self : τ} (hnodup : k.tasks.Nodup) (htasks : k'.tasks = k.tasks)
    (hself : self ∈ k.tasks) (hawake : (k.tcb self).state ≠ .blocked)
    (hblocked : (k'.tcb self).state = .blocked)
    (hrest : ∀ t, t ≠ self → (k'.tcb t).state = (k.tcb t).state) :
    newlyBlocked k k' = [self] := by
  have honly : newlyBlocked k k' = k.tasks.filter (· == self) := by
    rw [newlyBlocked, htasks]
    refine List.filter_congr fun t _ => ?_
    rcases eq_or_ne t self with rfl | hne
    · simp [hawake, hblocked]
    · simp [hne, hrest t hne]
  rw [honly, List.filter_beq, List.count_eq_one_of_mem hnodup hself]
  rfl

theorem InOrder.arrival (h : InOrder k order) (hnodup : k.tasks.Nodup)
    (harrival : Arrival k k') : InOrder k' (order ++ newlyBlocked k k') := by
  cases harrival with
  | nobody hold =>
      have hnone : newlyBlocked k k' = [] := by
        refine List.filter_eq_nil_iff.mpr fun t ht hnew => ?_
        simp only [Bool.and_eq_true, decide_eq_true_eq] at hnew
        exact hnew.1 (hold t ht hnew.2).2.1
      rw [hnone, List.append_nil]
      intro t ht hblocked
      obtain ⟨hmem, hbefore, hage⟩ := hold t ht hblocked
      rw [hage]
      exact h t hmem hbefore
  | @caller self htasks hself hawake hblocked hage hrest =>
      rw [newlyBlocked_caller hnodup htasks hself hawake hblocked fun t ht => (hrest t ht).1]
      intro t ht hasleep
      rcases eq_or_ne t self with rfl | hne
      · exact ⟨by simp, by rw [hage, blocksSince_snoc_self]; rfl⟩
      · obtain ⟨hstate, holder⟩ := hrest t hne
        rw [hstate] at hasleep
        rw [htasks] at ht
        obtain ⟨hmem, hbefore⟩ := h t ht hasleep
        refine ⟨by simp [hmem], ?_⟩
        rw [holder, hbefore, blocksSince_snoc_ne hne, BitVec.ofNat_add]
        rfl

variable [DecidableEq ι]

/-- Along every run the list and the sequence numbers agree. -/
theorem reached_inOrder (h : Reachable (Steps (orderedStep P)) OrderedReset (w, order)) :
    Reached P w ∧ InOrder w.toKernel order := by
  refine h.invariant (I := fun s => Reached P s.1 ∧ InOrder s.1.toKernel s.2) ?_ ?_
  · rintro s ⟨hreset, _⟩
    refine ⟨.initial hreset, fun t ht => ?_⟩
    rw [hreset.tasks] at ht
    cases ht
  · rintro s op s' _ ⟨hw, horder⟩ hordered
    obtain ⟨w', hstep, rfl⟩ := Option.map_eq_some_iff.mp hordered
    have hs := reached_sound hw
    exact ⟨hw.step hstep, horder.arrival hs.nodup (.system hs (step_system hstep))⟩

/-- Every reachable state has its list of block operations. -/
theorem reached_ordered (h : Reached P w) :
    ∃ order, Reachable (Steps (orderedStep P)) OrderedReset (w, order) := by
  refine h.invariant (I := fun w => ∃ order,
    Reachable (Steps (orderedStep P)) OrderedReset (w, order))
    (fun w hreset => ⟨[], .initial ⟨hreset, rfl⟩⟩) ?_
  rintro w op w' _ ⟨order, horder⟩ hstep
  have hnext : Steps (orderedStep P) (w, order) op
      (w', order ++ newlyBlocked w.toKernel w'.toKernel) :=
    Option.map_eq_some_iff.mpr ⟨w', hstep, rfl⟩
  exact ⟨_, horder.step hnext⟩

end Runs

variable [DecidableEq τ] [DecidableEq ι]

section Service

variable {P : Platform τ} {k : Kernel τ ι} {w : World τ ι} {order : List τ}
  {waitType : WaitType} {p : ι}

/-- The order in which waiters are served: by priority, then the one that has slept
through more block operations. -/
def serviceKey (k : Kernel τ ι) (order : List τ) (t : τ) : Nat ×ₗ Nat :=
  toLex ((k.tcb t).effectivePriority, blocksSince order t)

/-- No waiter has slept through half the counter's range of block operations. -/
def Window (k : Kernel τ ι) (waitType : WaitType) (p : ι) (order : List τ) : Prop :=
  ∀ t ∈ k.tasks, isWaiter k waitType p t = true → blocksSince order t < 2 ^ 31

/-- Inside the window the signed difference of two sequence numbers compares the ages. -/
theorem outranks_iff (horder : InOrder k order) (hwindow : Window k waitType p order) {c b : τ}
    (hc : WaitsIn k waitType p c) (hb : WaitsIn k waitType p b) :
    outranks k c b = true ↔ serviceKey k order b < serviceKey k order c := by
  have hage : ∀ {t}, WaitsIn k waitType p t →
      sequenceAge k t = BitVec.ofNat 32 (blocksSince order t) := fun ht =>
    (horder _ ht.1 (isWaiter_iff.mp ht.2).1).2
  have hdiff : (k.tcb c).waitSequence - (k.tcb b).waitSequence =
      BitVec.ofNat 32 (blocksSince order b) - BitVec.ofNat 32 (blocksSince order c) := by
    rw [← hage hb, ← hage hc]
    exact (sub_sub_sub_cancel_left _ _ _).symm
  have hrange : ∀ {t}, WaitsIn k waitType p t → 2 * blocksSince order t < 2 ^ 32 := by
    intro t ht
    have hlt := hwindow t ht.1 ht.2
    omega
  have hsigned := toInt_ofNat_sub (w := 32) (hrange hb) (hrange hc)
  simp only [outranks, hdiff, hsigned, serviceKey, Prod.Lex.toLex_lt_toLex, Bool.or_eq_true,
    Bool.and_eq_true, decide_eq_true_eq]
  omega

/-- A waiter is served before all others that have a lower priority, or the same and went
to sleep later in the run. -/
theorem waiters_in_order (h : Reachable (Steps (orderedStep P)) OrderedReset (w, order))
    (hwindow : Window w.toKernel waitType p order) :
    (rtosKernelFindWaiter w.toKernel waitType p = none ↔
      ∀ t ∈ w.tasks, ¬((w.tcb t).state = .blocked ∧ (w.tcb t).waitType = waitType ∧
        (w.tcb t).waitObject = some p)) ∧
    ∀ t, rtosKernelFindWaiter w.toKernel waitType p = some t →
      t ∈ w.tasks ∧ ((w.tcb t).state = .blocked ∧ (w.tcb t).waitType = waitType ∧
        (w.tcb t).waitObject = some p) ∧
      ∀ u ∈ w.tasks, u ≠ t → (w.tcb u).state = .blocked → (w.tcb u).waitType = waitType →
        (w.tcb u).waitObject = some p →
        (w.tcb u).effectivePriority < (w.tcb t).effectivePriority ∨
          (w.tcb u).effectivePriority = (w.tcb t).effectivePriority ∧
            blocksSince order u < blocksSince order t := by
  obtain ⟨_, horder⟩ := reached_inOrder h
  constructor
  · simp only [findWaiter_eq_none, isWaiter_iff]
  · intro t ht
    have hrank := fun c b hc hb => outranks_iff (c := c) (b := b) horder hwindow hc hb
    obtain ⟨hmem, hwaits, hbest⟩ := findWaiter_best
      (fun c b hc hb hout => ((hrank c b hc hb).mp hout).le)
      (fun c b hc hb hnot => not_lt.mp fun hlt => hnot ((hrank c b hc hb).mpr hlt)) ht
    refine ⟨hmem, isWaiter_iff.mp hwaits, fun u hu hne hstate htype hobject => ?_⟩
    have hle := hbest u hu (isWaiter_iff.mpr ⟨hstate, htype, hobject⟩)
    have hdistinct : blocksSince order u ≠ blocksSince order t := fun heq =>
      hne (blocksSince_inj (horder u hu hstate).1 heq)
    simp only [serviceKey, Prod.Lex.toLex_le_toLex] at hle
    omega

/-- Both tasks take the empty semaphore, one after the other. -/
def demoWaiters : List (Op Nat Nat) :=
  demoPair ++ [.call .thread (.semaphoreTake (some 1) 9), .pendSV true,
    .call .thread (.semaphoreTake (some 1) 9)]

theorem waiters_in_order_demo :
    let s := (exec (orderedStep demoPlatform) (demoReset, []) demoWaiters).getD (demoReset, [])
    rtosKernelFindWaiter s.1.toKernel .semaphore 1 = some 1 ∧
      (s.1.tcb 2).effectivePriority = (s.1.tcb 1).effectivePriority ∧
      blocksSince s.2 2 < blocksSince s.2 1 := by
  have hreached : Reachable (Steps (orderedStep demoPlatform)) OrderedReset
      ((exec (orderedStep demoPlatform) (demoReset, []) demoWaiters).getD (demoReset, [])) :=
    (Reachable.initial ⟨demoReset_reset, rfl⟩).run (exec_run (by decide))
  have hwindow : Window
      ((exec (orderedStep demoPlatform) (demoReset, []) demoWaiters).getD
        (demoReset, [])).1.toKernel .semaphore 1
      ((exec (orderedStep demoPlatform) (demoReset, []) demoWaiters).getD
        (demoReset, [])).2 := by
    unfold Window
    decide
  have hinorder := waiters_in_order hreached hwindow
  have hserved := (hinorder.2 1 (by decide)).2.2 2 (by decide) (by decide) (by decide)
    (by decide) (by decide)
  refine ⟨by decide, ?_⟩
  exact hserved.resolve_left (by decide)

end Service

end Stm32f411.WaiterOrder
