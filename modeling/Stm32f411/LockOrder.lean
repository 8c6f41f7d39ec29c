import Stm32f411.MutexBookkeeping
import Stm32f411.PriorityInheritance
import Stm32f411.WaitGraphs

/-!
Deadlock. Waiting for mutexes in the order of their ranks keeps the tasks out of it; without an
order, tasks that sleep for ever on each other's mutexes sleep in every later state.
-/

namespace Stm32f411.LockOrder

open Relation
open Stm32f411.LabelledRuns
open Stm32f411.WaitGraphs
open Stm32f411.RtosTypes
open Stm32f411.RtosKernel
open Stm32f411.RtosIpc
open Stm32f411.RtosSystem
open Stm32f411.RtosKernelSpec
open Stm32f411.RtosCallSpec
open Stm32f411.RtosStepSpec
open Stm32f411.KernelSoundness
open Stm32f411.WaiterService
open Stm32f411.PriorityInheritance
open Stm32f411.MutexBookkeeping

variable {τ ι : Type} [DecidableEq ι]

section Model

variable [DecidableEq τ]

/-- `t` sleeps on the mutex `p`. -/
def LockWaits (k : Kernel τ ι) (t : τ) (p : ι) : Prop :=
  t ∈ k.tasks ∧ isWaiter k .mutex p t = true

def Owns (k : Kernel τ ι) (t : τ) (p : ι) : Prop :=
  owners k p = some t

instance (k : Kernel τ ι) (t : τ) (p : ι) : Decidable (Owns k t p) :=
  inferInstanceAs (Decidable (owners k p = some t))

/-- A task that goes to sleep on a mutex owns only mutexes that rank below it. -/
def InOrder (rank : ι → Nat) (w w' : World τ ι) : Op τ ι → Prop
  | .call .thread (.mutexLock (some p) _) => ∀ t, w.currentTask = some t →
      LockWaits w'.toKernel t p → ∀ q, Owns w.toKernel t q → rank q < rank p
  | _ => True

def OrderedSteps (P : Platform τ) (rank : ι → Nat) (w : World τ ι) (op : Op τ ι)
    (w' : World τ ι) : Prop :=
  step P w op = some w' ∧ InOrder rank w w' op

/-- The tasks of `s` sleep for ever on mutexes that tasks of `s` own. -/
def Deadlocked (k : Kernel τ ι) (s : Set τ) : Prop :=
  ∀ t ∈ s, (k.tcb t).waitForever = true ∧
    ∃ p, LockWaits k t p ∧ ∃ owner ∈ s, Owns k owner p

end Model

section Calls

variable [DecidableEq τ]
variable {P : Platform τ} {k k' : Kernel τ ι} {mode : Mode} {call : Call ι} {outcome : Outcome}
variable {t : τ} {p : ι}

/-- What a call does to the owner of a mutex. -/
inductive OwnerEffect (k : Kernel τ ι) (mode : Mode) (k' : Kernel τ ι) (p : ι) : Prop
  | same : owners k' p = owners k p → OwnerEffect k mode k' p
  | locked {self : τ} : ThreadCall k mode self → owners k p = none → owners k' p = some self →
      (k'.tcb self).state = (k.tcb self).state → OwnerEffect k mode k' p
  | unlocked {self : τ} : ThreadCall k mode self → owners k p = some self → owners k' p = none →
      OwnerEffect k mode k' p
  | handed {self waiter : τ} : ThreadCall k mode self → owners k p = some self →
      owners k' p = some waiter → (k'.tcb waiter).state = .ready → OwnerEffect k mode k' p

theorem CallEffect.owner (h : CallEffect k mode call k' outcome) (p : ι) :
    OwnerEffect k mode k' p := by
  cases h with
  | refused _ _ => exact .same rfl
  | ignored _ => exact .same rfl
  | yielded _ _ => exact .same rfl
  | delayed _ _ _ => exact .same rfl
  | slept _ _ _ _ _ => exact .same rfl
  | sleptOnMutex _ _ _ _ _ _ => exact .same rfl
  | took _ hobj _ => exact .same (setObject_view Object.owner? (by simp [hobj]) p)
  | gave _ hobj _ _ => exact .same (setObject_view Object.owner? (by simp [hobj]) p)
  | gaveTo _ _ _ => exact .same (by simp [owners])
  | @locked self q m _ hthread _ hobj howner =>
      rcases eq_or_ne p q with rfl | hne
      · exact .locked hthread (by simp [owners, hobj, howner]) (by simp [owners]) (by simp)
      · exact .same (by simp [owners, hne])
  | @unlocked self q m hthread hobj howner _ =>
      rcases eq_or_ne p q with rfl | hne
      · exact .unlocked hthread (by simp [owners, hobj, howner]) (by simp [owners])
      · exact .same (by simp [owners, releaseHold, hne])
  | @unlockedTo self waiter q m hthread hobj howner _ =>
      rcases eq_or_ne p q with rfl | hne
      · obtain ⟨_, _, hkept⟩ := handOver_waiter k p self waiter
        refine .handed hthread (by simp [owners, hobj, howner])
          (show _ = some waiter by simp [owners, grantHold]) ?_
        rw [maybePreempt_tcb, hkept]
        rfl
      · exact .same (by simp [owners, releaseHold, grantHold, hne])
  | sent _ hobj _ _ => exact .same (setObject_view Object.owner? (by simp [hobj]) p)
  | sentTo _ _ _ => exact .same (by simp [owners, handItem_objects])
  | received _ hobj _ _ =>
      exact .same (setObject_view (k := k.setBuffer _ _) Object.owner? (by simp [hobj]) p)
  | @receivedFrom _ q s item sender _ hobj _ _ =>
      have hpopped : owners (popItem k (callerOf k mode) q s item) p = owners k p :=
        setObject_view (k := k.setBuffer item _) Object.owner? (by simp [hobj]) p
      refine .same (Eq.trans ?_ hpopped)
      simp only [owners, maybePreempt_objects]
      exact setObject_view (k := popItem k (callerOf k mode) q s item) Object.owner?
        (by simp [popItem_object]) p

omit [DecidableEq ι] in
theorem callWait_mutex {buffer : Option BufferPtr} {timeoutTicks : Word}
    (h : callWait call = some (.mutex, p, buffer, timeoutTicks)) :
    call = .mutexLock (some p) timeoutTicks := by
  unfold callWait at h
  split at h <;> simp_all

/-- A task sleeps on a mutex after a call if it did before, or if it asked for it. -/
theorem CallEffect.lockWaits (h : CallEffect k mode call k' outcome)
    (hwaits : LockWaits k' t p) :
    LockWaits k t p ∧ (k'.tcb t).waitForever = (k.tcb t).waitForever ∨
      ThreadCall k mode t ∧ ∃ timeoutTicks, call = .mutexLock (some p) timeoutTicks := by
  obtain ⟨ht, hwaits⟩ := hwaits
  rw [h.frame.tasks] at ht
  have htask := h.task t
  have hiff := isWaiter_iff.mp hwaits
  generalize htcb : k'.tcb t = t' at htask hiff
  cases htask with
  | kept hkept =>
      rw [← htcb] at hkept
      rw [isWaiter_kept hkept] at hwaits
      obtain ⟨_, _, hkept⟩ := hkept
      exact .inl ⟨⟨ht, hwaits⟩, by rw [← htcb, hkept]⟩
  | woken _ _ hkept =>
      obtain ⟨_, _, rfl⟩ := hkept
      simp [leaveWait] at hiff
  | delayed _ _ _ _ => simp at hiff
  | slept hcall hwait _ _ hkept =>
      obtain ⟨_, _, rfl⟩ := hkept
      simp only [enterWait] at hiff
      obtain ⟨_, rfl, hp⟩ := hiff
      obtain rfl := Option.some.inj hp
      exact .inr ⟨hcall, _, callWait_mutex hwait⟩

omit [DecidableEq τ] in
theorem ne_of_isWaiter {waitType : WaitType} {q : ι} {w : τ} (hwaits : LockWaits k t p)
    (hw : isWaiter k waitType q w = true) (htype : waitType ≠ .mutex) : t ≠ w := by
  rintro rfl
  have hmutex := (isWaiter_iff.mp hwaits.2).2.1
  exact htype ((isWaiter_iff.mp hw).2.1.symm.trans hmutex)

/-- Whom a call wakes from a mutex, it makes the owner. -/
theorem CallEffect.wokenOwner (h : CallEffect k mode call k' outcome)
    (hcaller : ¬ThreadCall k mode t) (hwaits : LockWaits k t p)
    (hwoken : (k'.tcb t).state ≠ .blocked) : owners k' p = some t := by
  have hblocked := (isWaiter_iff.mp hwaits.2).1
  have hsame : (k'.tcb t).state ≠ (k.tcb t).state := fun heq => hwoken (heq.trans hblocked)
  cases h with
  | refused _ _ => exact absurd rfl hsame
  | ignored _ => exact absurd rfl hsame
  | yielded _ _ => exact absurd rfl hsame
  | delayed hthread _ _ =>
      exact absurd (by simp [show t ≠ _ from fun heq => hcaller (heq ▸ hthread)]) hsame
  | slept hthread _ _ _ _ =>
      exact absurd (by simp [show t ≠ _ from fun heq => hcaller (heq ▸ hthread)]) hsame
  | sleptOnMutex hthread _ _ _ _ _ =>
      exact absurd (by simp [show t ≠ _ from fun heq => hcaller (heq ▸ hthread)]) hsame
  | took _ _ _ => exact absurd rfl hsame
  | gave _ _ _ _ => exact absurd rfl hsame
  | gaveTo _ _ hfind =>
      have hne := ne_of_isWaiter hwaits (findWaiter_waits hfind).2 (by decide)
      exact absurd (by simp [hne]) hsame
  | locked hthread _ _ _ =>
      exact absurd (by simp [show t ≠ _ from fun heq => hcaller (heq ▸ hthread)]) hsame
  | @unlocked self q _ _ _ _ _ =>
      obtain ⟨_, _, hkept⟩ := (kept_release k q self t).trans
        (kept_recompute ((releaseHold k q self).setObject q (.mutex ⟨none⟩)) t)
      exact absurd (by rw [hkept]) hsame
  | @unlockedTo self waiter q m _ _ _ hfind =>
      rcases eq_or_ne t waiter with rfl | hne
      · have hfound := (findWaiter_waits hfind).2
        rw [isWaiter_kept (kept_release k q self t)] at hfound
        obtain rfl : p = q := Option.some.inj
          ((isWaiter_iff.mp hwaits.2).2.2.symm.trans (isWaiter_iff.mp hfound).2.2)
        simp [owners, grantHold]
      · obtain ⟨_, _, hkept⟩ := handOver_rest k q self hne
        exact absurd (by rw [maybePreempt_tcb, hkept]) hsame
  | sent _ _ _ _ => exact absurd rfl hsame
  | sentTo _ _ hfind =>
      have hne := ne_of_isWaiter hwaits (findWaiter_waits hfind).2 (by decide)
      exact absurd (by simp [handItem, hne]) hsame
  | received _ _ _ _ => exact absurd rfl hsame
  | receivedFrom _ _ _ hfind =>
      have hne := ne_of_isWaiter hwaits (findWaiter_waits (k := popItem k _ _ _ _) hfind).2
        (by decide)
      exact absurd (by simp [pushItem, popItem, hne]) hsame

theorem CallEffect.keepsWaiting (h : CallEffect k mode call k' outcome)
    (hcaller : ¬ThreadCall k mode t) (hwaits : LockWaits k t p) :
    LockWaits k' t p ∧ (k'.tcb t).waitForever = (k.tcb t).waitForever ∨
      owners k' p = some t := by
  have htask := h.task t
  generalize htcb : k'.tcb t = t' at htask
  cases htask with
  | kept hkept =>
      rw [← htcb] at hkept
      refine .inl ⟨⟨h.frame.tasks.symm ▸ hwaits.1, ?_⟩, ?_⟩
      · rw [isWaiter_kept hkept]
        exact hwaits.2
      · obtain ⟨_, _, hkept⟩ := hkept
        rw [← htcb, hkept]
  | woken _ _ hkept =>
      obtain ⟨_, _, rfl⟩ := hkept
      exact .inr (CallEffect.wokenOwner h hcaller hwaits (by simp [htcb, leaveWait]))
  | delayed hthread _ _ _ => exact absurd hthread hcaller
  | slept hthread _ _ _ _ => exact absurd hthread hcaller

end Calls

section Ordered

variable {P : Platform τ} {rank : ι → Nat} {k k' : Kernel τ ι} {w w' : World τ ι} {t : τ} {p : ι}

/-- Nobody who sleeps on a mutex owns more than it does. -/
def LockRanked (rank : ι → Nat) (k : Kernel τ ι) : Prop :=
  Ranked rank (LockWaits k) (Owns k)

theorem LockRanked.fewer (h : LockRanked rank k) (howners : owners k' = owners k)
    (hwaits : ∀ t p, LockWaits k' t p → LockWaits k t p) : LockRanked rank k' := by
  refine Ranked.change h (fun t p q _ hq => ?_) fun t p ht => .inl (hwaits t p ht)
  rw [Owns, howners] at hq
  exact hq

theorem LockRanked.of_stopped (hs : Sound P k) (hstopped : k.running = false) :
    LockRanked rank k := by
  refine Ranked.of_idle fun t p hwaits => ?_
  have hblocked := (isWaiter_iff.mp hwaits.2).1
  simp [hs.stopped_ready hstopped t hwaits.1] at hblocked

variable [DecidableEq τ]

theorem LockRanked.callEffect (h : LockRanked rank k) {mode : Mode} {call : Call ι}
    {outcome : Outcome} (hcaller : CallerRuns P k mode)
    (hrank : ∀ p timeoutTicks, call = .mutexLock (some p) timeoutTicks →
      ∀ t, ThreadCall k mode t → LockWaits k' t p → ∀ q, Owns k t q → rank q < rank p)
    (heffect : CallEffect k mode call k' outcome) : LockRanked rank k' := by
  refine Ranked.change h (fun t p q hwaits hq => ?_) fun t p hwaits => ?_
  · have hblocked := (isWaiter_iff.mp hwaits.2).1
    have hnew : owners k' q = some t := hq
    cases CallEffect.owner heffect q with
    | same hsame => exact hsame.symm.trans hnew
    | @locked self hthread _ howner hstate =>
        obtain rfl := Option.some.inj (howner.symm.trans hnew)
        obtain ⟨hrunning, _⟩ := hcaller.thread hthread.mode_eq _ hthread.current
        simp [hstate, hrunning] at hblocked
    | unlocked _ _ hnone => simp [hnone] at hnew
    | @handed self waiter _ _ howner hready =>
        obtain rfl := Option.some.inj (howner.symm.trans hnew)
        simp [hready] at hblocked
  · rcases CallEffect.lockWaits heffect hwaits with ⟨hold, _⟩ | ⟨hthread, timeoutTicks, rfl⟩
    · exact .inl hold
    · exact .inr (hrank p timeoutTicks rfl t hthread hwaits)

theorem LockWaits.of_tick (hs : Sound P k) (h : LockWaits (sysTickHandler k) t p) :
    LockWaits k t p := by
  obtain ⟨ht, hwaits⟩ := h
  cases hrun : k.running with
  | false =>
      rw [sysTickHandler_stopped hrun] at ht hwaits
      exact ⟨ht, hwaits⟩
  | true =>
      obtain ⟨⟨tcb, htick⟩, htasks⟩ := sysTickHandler_running hrun hs.nodup
      rw [htick] at ht
      obtain ⟨priority, htcb⟩ := htasks t ht
      have hsame : tickTask (k.tick + 1) (k.tcb t) = k.tcb t :=
        tickTask_blocked (by simpa [htcb] using (isWaiter_iff.mp hwaits).1)
      rw [isWaiter_congr (k := k) (by rw [htcb, hsame]) (by rw [htcb, hsame])
        (by rw [htcb, hsame])] at hwaits
      exact ⟨ht, hwaits⟩

/-- A write to a TCB that leaves its task awake. -/
theorem LockWaits.of_awake {w : τ} {f : RtosTask ι → RtosTask ι}
    (hf : (f (k.tcb w)).state ≠ .blocked) (htasks : k'.tasks = k.tasks)
    (htcb : k'.tcb = (k.modifyTask w f).tcb) (h : LockWaits k' t p) : LockWaits k t p := by
  have hne : t ≠ w := by
    rintro rfl
    have hblocked := (isWaiter_iff.mp h.2).1
    rw [htcb, Kernel.modifyTask_tcb, Function.update_self] at hblocked
    exact hf hblocked
  refine ⟨htasks ▸ h.1, ?_⟩
  rw [← isWaiter_of_ne (k := k) (f := f) hne]
  simpa [isWaiter, htcb] using h.2

theorem LockWaits.of_switched {next : τ} (hswitch : Switched k next k') (h : LockWaits k' t p) :
    LockWaits k t p := by
  have htcb := hswitch.tcb_eq
  have hblocked := (hswitch.blocked t).mp (isWaiter_iff.mp h.2).1
  have hkind := isWaiter_iff.mp h.2
  obtain ⟨_, _, _, _, hk'⟩ := hswitch
  refine ⟨by simpa [hk'] using h.1, isWaiter_iff.mpr ⟨hblocked, ?_⟩⟩
  simpa [htcb] using hkind.2

theorem LockRanked.quiet (h : LockRanked rank k) (hs : Sound P k)
    (hquiet : QuietStep P k k') : LockRanked rank k' := by
  have hs' := hs.quiet hquiet
  cases hquiet with
  | unchanged => exact h
  | booted hboot =>
      obtain ⟨hstopped, _, _, _, _, rfl⟩ := hboot
      exact .of_stopped hs' hstopped
  | created _ hstopped _ hadd =>
      obtain ⟨_, _, _, _, rfl⟩ := hadd
      exact .of_stopped hs' hstopped
  | placed _ hstopped _ => exact .of_stopped hs' hstopped
  | refusedStart hstopped => exact .of_stopped hs' hstopped
  | started hstart =>
      obtain ⟨_, _, first, _, _, _, _, rfl⟩ := hstart
      exact h.fewer rfl fun t p => LockWaits.of_awake (w := first)
        (f := fun t => { t with state := .running }) (by simp) rfl rfl
  | @terminated self _ _ _ _ =>
      exact h.fewer rfl fun t p => LockWaits.of_awake (w := self)
        (f := fun t => { t with state := .terminated }) (by simp) rfl rfl
  | switched _ hswitch =>
      refine h.fewer ?_ fun t p => LockWaits.of_switched hswitch
      obtain ⟨_, _, _, _, rfl⟩ := hswitch
      rfl
  | wrote => exact h

theorem LockRanked.step (h : LockRanked rank w.toKernel) (hs : Sound P w.toKernel)
    {op : Op τ ι} (horder : InOrder rank w w' op) (hstep : SystemStep P w op w') :
    LockRanked rank w'.toKernel := by
  have hrank : ∀ mode call, op = .call mode call → ∀ p timeoutTicks,
      call = .mutexLock (some p) timeoutTicks → ∀ t,
      ThreadCall (callEntered w.toKernel mode call) mode t → LockWaits w'.toKernel t p → ∀ q,
      Owns (callEntered w.toKernel mode call) t q → rank q < rank p := by
    rintro mode call rfl p timeoutTicks rfl t hthread hwaits
    obtain rfl := hthread.mode_eq
    exact horder t hthread.current hwaits
  cases hstep with
  | ticked =>
      obtain ⟨tcb, pended, htick⟩ := sysTickHandler_frame w.toKernel
      exact h.fewer (by rw [htick]; rfl) fun t p => LockWaits.of_tick hs
  | quiet _ hquiet => exact h.quiet hs hquiet
  | returned hruns _ heffect =>
      have hcalled := fun hsleeps => LockRanked.callEffect (k := callEntered w.toKernel _ _) h
        (hruns.record _) hsleeps heffect
      exact hcalled (hrank _ _ rfl)
  | suspended hruns _ _ heffect =>
      exact LockRanked.callEffect (k := callEntered w.toKernel _ _) h (hruns.record _)
        (hrank _ _ rfl) heffect
  | resumed _ _ _ => exact h

theorem ordered_reached (h : Reachable (OrderedSteps P rank) Reset w) : Reached P w :=
  h.mono fun _ _ _ hstep => hstep.1

theorem ordered_ranked (h : Reachable (OrderedSteps P rank) Reset w) :
    LockRanked rank w.toKernel := by
  refine h.invariant (I := fun w => LockRanked rank w.toKernel) (fun w hreset => ?_) ?_
  · exact .of_stopped (P := P) (.reset hreset) hreset.running
  · rintro w op w' hw hranked ⟨hstep, horder⟩
    exact hranked.step (reached_sound (ordered_reached hw)) horder (step_system hstep)

omit [DecidableEq τ] in
theorem waitsFor_iff (k : Kernel τ ι) :
    WaitsFor (LockWaits k) (Owns k) = WaitsForOwner k := by
  funext u v
  apply propext
  constructor
  · rintro ⟨p, ⟨hu, hwaits⟩, howner⟩
    obtain ⟨hstate, htype, hobject⟩ := isWaiter_iff.mp hwaits
    cases hobj : k.objects p with
    | mutex m =>
        have hm : m.owner = some v := by simpa [Owns, owners, hobj] using howner
        exact ⟨hu, p, m, hstate, htype, hobject, hobj, hm⟩
    | _ => simp [Owns, owners, hobj] at howner
  · rintro ⟨hu, p, m, hstate, htype, hobject, hobj, howner⟩
    exact ⟨p, ⟨hu, isWaiter_iff.mpr ⟨hstate, htype, hobject⟩⟩,
      by simp [Owns, owners, hobj, howner]⟩

end Ordered

section Deadlock

variable {P : Platform τ} {k k' : Kernel τ ι} {w w' : World τ ι} {s : Set τ} {t : τ} {p : ι}

theorem Deadlocked.blocked (h : Deadlocked k s) (ht : t ∈ s) : (k.tcb t).state = .blocked := by
  obtain ⟨_, p, hwaits, _⟩ := h t ht
  exact (isWaiter_iff.mp hwaits.2).1

theorem Deadlocked.running (h : Deadlocked k s) (hs : Sound P k) (ht : t ∈ s) :
    k.running = true := by
  obtain ⟨_, p, hwaits, _⟩ := h t ht
  cases hrun : k.running with
  | true => rfl
  | false =>
      have hready := hs.stopped_ready hrun t hwaits.1
      simp [h.blocked ht] at hready

/-- What keeps the owners, and the waits of those who sleep for ever. -/
theorem Deadlocked.keeps (h : Deadlocked k s) (howners : owners k' = owners k)
    (hwaits : ∀ t ∈ s, ∀ p, LockWaits k t p → (k.tcb t).waitForever = true →
      LockWaits k' t p ∧ (k'.tcb t).waitForever = true) : Deadlocked k' s := by
  intro t ht
  obtain ⟨hforever, p, hp, owner, howner, howns⟩ := h t ht
  obtain ⟨hp', hforever'⟩ := hwaits t ht p hp hforever
  refine ⟨hforever', p, hp', owner, howner, ?_⟩
  rw [Owns, howners]
  exact howns

theorem LockWaits.same (h : LockWaits k t p) (htasks : k'.tasks = k.tasks)
    (htcb : k'.tcb t = k.tcb t) : LockWaits k' t p :=
  ⟨htasks ▸ h.1, by simpa [isWaiter, htcb] using h.2⟩

variable [DecidableEq τ]

theorem Deadlocked.callEffect (h : Deadlocked k s) (hn : NoStranded k) {mode : Mode}
    {call : Call ι} {outcome : Outcome} (hcaller : CallerRuns P k mode)
    (heffect : CallEffect k mode call k' outcome) : Deadlocked k' s := by
  have hnot : ∀ t ∈ s, ¬ThreadCall k mode t := fun t ht =>
    hcaller.not_caller (by simp [h.blocked ht])
  intro t ht
  obtain ⟨hforever, p, hwaits, owner, howner, howns⟩ := h t ht
  have howns : owners k p = some owner := howns
  have hkept : owners k' p = some owner := by
    cases CallEffect.owner heffect p with
    | same hsame => exact hsame.trans howns
    | locked _ hnone => simp [hnone] at howns
    | @unlocked self hthread hself =>
        obtain rfl := Option.some.inj (hself.symm.trans howns)
        exact absurd hthread (hnot _ howner)
    | @handed self _ hthread hself =>
        obtain rfl := Option.some.inj (hself.symm.trans howns)
        exact absurd hthread (hnot _ howner)
  rcases CallEffect.keepsWaiting heffect (hnot t ht) hwaits with ⟨hstill, hsame⟩ | hself
  · exact ⟨hsame.trans hforever, p, hstill, owner, howner, hkept⟩
  · -- nobody sleeps on a mutex of its own
    obtain ⟨m, other, hobj, hother, hne⟩ := hn t hwaits.1 .mutex p hwaits.2
    obtain rfl := Option.some.inj (hkept.symm.trans hself)
    have howned : some owner = some other := by
      rw [← howns, owners, hobj, Object.owner?_mutex, hother]
    exact absurd (Option.some.inj howned).symm hne

theorem Deadlocked.tick (h : Deadlocked k s) (hs : Sound P k) :
    Deadlocked (sysTickHandler k) s := by
  cases hrun : k.running with
  | false =>
      rw [sysTickHandler_stopped hrun]
      exact h
  | true =>
      obtain ⟨⟨tcb, htick⟩, htasks⟩ := sysTickHandler_running hrun hs.nodup
      refine h.keeps (by rw [htick]; rfl) fun t ht p hwaits hforever => ?_
      obtain ⟨priority, htcb⟩ := htasks t hwaits.1
      have hskip : tickTask (k.tick + 1) (k.tcb t) = k.tcb t := by
        simp [tickTask, tickDecision, h.blocked ht, hforever]
      rw [hskip] at htcb
      refine ⟨⟨by rw [htick]; exact hwaits.1, ?_⟩, by rw [htcb]; exact hforever⟩
      rw [isWaiter_congr (k := k) (by rw [htcb]) (by rw [htcb]) (by rw [htcb])]
      exact hwaits.2

theorem Deadlocked.quiet (h : Deadlocked k s) (hrun : k.running = true)
    (hquiet : QuietStep P k k') : Deadlocked k' s := by
  cases hquiet.running hrun with
  | unchanged => exact h
  | wrote => exact h
  | @terminated self _ hself _ =>
      refine h.keeps rfl fun t ht p hwaits hforever => ?_
      have hne : t ≠ self := by
        rintro rfl
        simp [h.blocked ht] at hself
      exact ⟨hwaits.same rfl (by simp [hne]), by simpa [hne] using hforever⟩
  | switched hswitch =>
      have hkept : ∀ t ∈ s, k'.tcb t = k.tcb t := fun t ht =>
        hswitch.tcb_of_not_runnable fun hr => by
          rcases hr with hr | hr <;> simp [h.blocked ht] at hr
      obtain ⟨_, _, _, _, hk'⟩ := hswitch
      refine h.keeps (by rw [hk']; rfl) fun t ht p hwaits hforever => ?_
      exact ⟨hwaits.same (by rw [hk']; rfl) (hkept t ht), by rw [hkept t ht]; exact hforever⟩

theorem Deadlocked.step (h : Deadlocked k s) (hk : KernelInvariant P k)
    (hstep : KernelStep P k k') : Deadlocked k' s := by
  rcases s.eq_empty_or_nonempty with rfl | ⟨t, ht⟩
  · exact fun t ht => ht.elim
  cases hstep with
  | quiet hquiet => exact h.quiet (h.running hk.sound ht) hquiet
  | marked _ => exact h
  | call hcaller heffect => exact h.callEffect hk.noStranded hcaller heffect
  | ticked => exact h.tick hk.sound

end Deadlock

variable [DecidableEq τ]

section Demo

/-- Tasks 1 and 2 of priorities 2 and 6, and mutexes 0 and 1. -/
def demoMutexes : List (Op Nat Nat) :=
  [.init (some ⟨1000, 5⟩),
    .taskCreate (some 1) 0x08000201 0 0x20001000 128 2,
    .taskCreate (some 2) 0x08000301 0 0x20002000 128 6,
    .mutexInit (some 0), .mutexInit (some 1), .start true true]

def demoFirst : List (Op Nat Nat) :=
  demoMutexes ++ [.call .thread (.mutexLock (some 0) 0)]

def demoAway : List (Op Nat Nat) :=
  demoFirst ++ [.call .thread (.taskDelay 1), .pendSV true]

/-- Task 2 has mutex 0 and sleeps a tick, in which task 1 takes mutex 1. -/
def demoHalf : List (Op Nat Nat) :=
  demoAway ++ [.call .thread (.mutexLock (some 1) 0)]

/-- It asks for mutex 0 as well, but does not wait for it. -/
def demoPolled : List (Op Nat Nat) :=
  demoHalf ++ [.call .thread (.mutexLock (some 0) 0)]

def demoBack : List (Op Nat Nat) :=
  demoPolled ++ [.tick, .pendSV true, .resume]

/-- Task 2 waits for mutex 1 as well. -/
def demoNested : List (Op Nat Nat) :=
  demoBack ++ [.call .thread (.mutexLock (some 1) rtosWaitForever)]

/-- Each asks for the other's mutex. -/
def demoDeadlock : List (Op Nat Nat) :=
  demoNested ++ [.pendSV true, .call .thread (.mutexLock (some 0) rtosWaitForever)]

/-- Steps other than locks are in any order. -/
theorem run_ordered {rank : Nat → Nat} {w w' : World Nat Nat} {ops : List (Op Nat Nat)}
    (h : Run (Steps (step demoPlatform)) w ops w')
    (hops : ∀ op ∈ ops, ∀ p timeoutTicks, op ≠ .call .thread (.mutexLock (some p) timeoutTicks)) :
    Run (OrderedSteps demoPlatform rank) w ops w' := by
  induction h with
  | nil => exact .nil
  | @snoc _ _ _ op _ hlast ih =>
      apply Run.snoc (ih fun op hop => hops op (List.mem_append_left _ hop))
      refine ⟨hlast, ?_⟩
      have hop := hops op (by simp)
      unfold InOrder
      split
      · exact absurd rfl (hop _ _)
      · trivial

/-- A lock is in any order as long as the caller stays awake. -/
theorem awake_ordered {ops : List (Op Nat Nat)} {self p : Nat} {timeoutTicks : Word}
    (hreached : Reachable (OrderedSteps demoPlatform id) Reset (demoRun ops))
    (hrun : (exec (step demoPlatform) demoReset
      (ops ++ [.call .thread (.mutexLock (some p) timeoutTicks)])).isSome = true)
    (hself : (demoRun ops).currentTask = some self)
    (hawake : isWaiter (demoRun (ops ++
      [.call .thread (.mutexLock (some p) timeoutTicks)])).toKernel .mutex p self = false) :
    Reachable (OrderedSteps demoPlatform id) Reset
      (demoRun (ops ++ [.call .thread (.mutexLock (some p) timeoutTicks)])) := by
  refine hreached.step ⟨demoRun_step ops _ hrun, fun t ht hwaits => ?_⟩
  obtain rfl := Option.some.inj (hself.symm.trans ht)
  simp [hwaits.2] at hawake

/-- With two mutexes in use there are two to look at. -/
theorem lock_ordered {ops : List (Op Nat Nat)} {self p : Nat} {timeoutTicks : Word}
    (hreached : Reachable (OrderedSteps demoPlatform id) Reset (demoRun ops))
    (hrun : (exec (step demoPlatform) demoReset
      (ops ++ [.call .thread (.mutexLock (some p) timeoutTicks)])).isSome = true)
    (hself : (demoRun ops).currentTask = some self)
    (hrest : ∀ q, owners (demoRun ops).toKernel (q + 2) = none)
    (hzero : Owns (demoRun ops).toKernel self 0 → 0 < p)
    (hone : Owns (demoRun ops).toKernel self 1 → 1 < p) :
    Reachable (OrderedSteps demoPlatform id) Reset
      (demoRun (ops ++ [.call .thread (.mutexLock (some p) timeoutTicks)])) := by
  refine hreached.step ⟨demoRun_step ops _ hrun, fun t ht _ q hq => ?_⟩
  obtain rfl := Option.some.inj (hself.symm.trans ht)
  match q with
  | 0 => exact hzero hq
  | 1 => exact hone hq
  | q + 2 => simp [Owns, hrest q] at hq

theorem demoNested_ordered :
    Reachable (OrderedSteps demoPlatform id) Reset (demoRun demoNested) := by
  have hboot : Reachable (OrderedSteps demoPlatform id) Reset (demoRun demoMutexes) :=
    ⟨demoReset, demoMutexes, demoReset_reset,
      run_ordered (demoRun_run demoMutexes (by decide)) (by simp [demoMutexes])⟩
  have hfirst : Reachable (OrderedSteps demoPlatform id) Reset (demoRun demoFirst) :=
    awake_ordered hboot (by decide) rfl (by decide)
  have haway : Reachable (OrderedSteps demoPlatform id) Reset (demoRun demoAway) :=
    hfirst.run (run_ordered (exec_run_append (by decide)) (by simp))
  have hhalf : Reachable (OrderedSteps demoPlatform id) Reset (demoRun demoHalf) :=
    awake_ordered haway (by decide) rfl (by decide)
  have hpolled : Reachable (OrderedSteps demoPlatform id) Reset (demoRun demoPolled) :=
    awake_ordered hhalf (by decide) rfl (by decide)
  have hback : Reachable (OrderedSteps demoPlatform id) Reset (demoRun demoBack) :=
    hpolled.run (run_ordered (exec_run_append (by decide)) (by simp))
  exact lock_ordered hback (by decide) rfl (fun _ => rfl) (by decide) (by decide)

theorem demoDeadlock_deadlocked : Deadlocked (demoRun demoDeadlock).toKernel {1, 2} := by
  rintro t (rfl | rfl)
  · exact ⟨by decide, 0, ⟨by decide, by decide⟩, 2, by simp, by decide⟩
  · exact ⟨by decide, 1, ⟨by decide, by decide⟩, 1, by simp, by decide⟩

end Demo

section Results

variable {P : Platform τ} {rank : ι → Nat} {w w' : World τ ι} {s : Set τ}

/-- In a run that waits for mutexes in order nobody waits for itself, no tasks are deadlocked, and
behind every task that waits there is one that sleeps on no mutex. -/
theorem ordered_locking_progress (h : Reachable (OrderedSteps P rank) Reset w) :
    (∀ t, ¬TransGen (WaitsForOwner w.toKernel) t t) ∧
      (∀ s, Deadlocked w.toKernel s → s = ∅) ∧
      ∀ t ∈ w.tasks, ∃ v ∈ w.tasks, ReflTransGen (WaitsForOwner w.toKernel) t v ∧
        ∀ p, ¬LockWaits w.toKernel v p := by
  have hranked := ordered_ranked h
  have hinvariant := reached_invariant (ordered_reached h)
  have hfinite : {t | t ∈ w.tasks}.Finite := List.finite_toSet w.tasks
  have hacyclic : ∀ t, ¬TransGen (WaitsForOwner w.toKernel) t t := by
    rw [← waitsFor_iff]
    exact hranked.acyclic
  refine ⟨hacyclic, fun s hs => ?_, fun t ht => ?_⟩
  · refine hranked.not_stuck (hfinite.subset fun t ht => ?_) fun t ht => ?_
    · obtain ⟨_, p, hwaits, _⟩ := hs t ht
      exact hwaits.1
    · obtain ⟨_, p, hwaits, owner, howner, howns⟩ := hs t ht
      exact ⟨owner, howner, p, hwaits, howns⟩
  · have hclosed : ∀ u ∈ {t | t ∈ w.tasks}, ∀ v, WaitsForOwner w.toKernel u v →
        v ∈ {t | t ∈ w.tasks} := by
      rintro u _ v ⟨_, p, m, _, _, _, hobj, howner⟩
      exact (hinvariant.sound.owner_task p v (by simp [hobj, howner])).1
    obtain ⟨v, hv, hpath, hend⟩ := exists_end hfinite hclosed hacyclic ht
    refine ⟨v, hv, hpath, fun p hwaits => ?_⟩
    obtain ⟨m, owner, hobj, howner, _⟩ := hinvariant.noStranded v hwaits.1 .mutex p hwaits.2
    obtain ⟨hstate, htype, hobject⟩ := isWaiter_iff.mp hwaits.2
    exact hend owner ⟨hv, p, m, hstate, htype, hobject, hobj, howner⟩

/-- Task 2 owns mutex 0 and waits for mutex 1, which task 1 owns. -/
theorem ordered_locking_progress_demo :
    WaitsForOwner (demoRun demoNested).toKernel 2 1 ∧
      ∃ v ∈ (demoRun demoNested).tasks, ReflTransGen (WaitsForOwner (demoRun demoNested).toKernel)
        2 v ∧ ∀ p, ¬LockWaits (demoRun demoNested).toKernel v p := by
  refine ⟨⟨by decide, 1, ⟨some 1⟩, by decide, by decide, by decide, rfl, rfl⟩, ?_⟩
  obtain ⟨_, _, hends⟩ := ordered_locking_progress demoNested_ordered
  exact hends 2 (by decide)

/-- Tasks that sleep for ever on one another's mutexes are never woken again. -/
theorem deadlock_permanent (h : Reached P w) (hs : Deadlocked w.toKernel s)
    {ops : List (Op τ ι)} (hrun : Run (Steps (step P)) w ops w') : Deadlocked w'.toKernel s :=
  run_kernel (I := fun k => Deadlocked k s) (fun _ _ hk hdead hstep => hdead.step hk hstep)
    h hs hrun

/-- Ticks do not free the two. -/
theorem deadlock_permanent_demo :
    Deadlocked (demoRun (demoDeadlock ++ [.tick, .pendSV true, .tick])).toKernel {1, 2} :=
  deadlock_permanent (demoRun_reached _) demoDeadlock_deadlocked (exec_run_append (by decide))

end Results

end Stm32f411.LockOrder
