import Stm32f411.KernelSoundness
import Stm32f411.QueueStorage

/-!
A task sleeps on an object only while the object cannot serve it. Every operation that
makes an object able to serve wakes a waiter in the same step.
-/

namespace Stm32f411.WaiterService

open Stm32f411.RtosTypes
open Stm32f411.RtosKernel
open Stm32f411.RtosIpc
open Stm32f411.RtosSystem
open Stm32f411.RtosKernelSpec
open Stm32f411.RtosBootSpec
open Stm32f411.RtosCallSpec
open Stm32f411.RtosStepSpec
open Stm32f411.KernelSoundness
open Stm32f411.QueueStorage

variable {τ ι : Type} [DecidableEq ι]

/-- `t` is BLOCKED with this wait type and wait object. -/
def BlockedOn (k : Kernel τ ι) (t : τ) (waitType : WaitType) (p : ι) : Prop :=
  (k.tcb t).state = .blocked ∧ (k.tcb t).waitType = waitType ∧
    (k.tcb t).waitObject = some p

instance (k : Kernel τ ι) (t : τ) (waitType : WaitType) (p : ι) :
    Decidable (BlockedOn k t waitType p) :=
  inferInstanceAs (Decidable (_ ∧ _))

/-- Object `o` gives task `t` a reason to wait. -/
def Justified (o : Object τ) (t : τ) : WaitType → Prop
  | .none => False
  | .semaphore => ∃ s, o = .semaphore s ∧ s.count = 0
  | .mutex => ∃ m owner, o = .mutex m ∧ m.owner = some owner ∧ owner ≠ t
  | .queueSend => ∃ q, o = .queue q ∧ q.capacity ≤ q.count
  | .queueReceive => ∃ q, o = .queue q ∧ q.count = 0

theorem justified_semaphore {s : Semaphore} {t : τ} {waitType : WaitType} :
    Justified (.semaphore s) t waitType ↔ waitType = .semaphore ∧ s.count = 0 := by
  cases waitType <;> simp [Justified]

theorem justified_mutex {m : Mutex τ} {t : τ} {waitType : WaitType} :
    Justified (.mutex m) t waitType ↔
      waitType = .mutex ∧ ∃ owner, m.owner = some owner ∧ owner ≠ t := by
  cases waitType <;> simp [Justified]

theorem justified_queue {q : Queue} {t : τ} {waitType : WaitType} :
    Justified (.queue q) t waitType ↔ waitType = .queueSend ∧ q.capacity ≤ q.count ∨
      waitType = .queueReceive ∧ q.count = 0 := by
  cases waitType <;> simp [Justified]

def NoStranded (k : Kernel τ ι) : Prop :=
  ∀ t ∈ k.tasks, ∀ waitType p, isWaiter k waitType p t = true →
    Justified (k.objects p) t waitType

section Waiters

variable {k k' : Kernel τ ι} {waitType : WaitType} {p : ι} {t w : τ}

theorem isWaiter_congr (hstate : (k'.tcb t).state = (k.tcb t).state)
    (htype : (k'.tcb t).waitType = (k.tcb t).waitType)
    (hobject : (k'.tcb t).waitObject = (k.tcb t).waitObject) :
    isWaiter k' waitType p t = isWaiter k waitType p t := by
  simp [isWaiter, hstate, htype, hobject]

theorem isWaiter_of_ne [DecidableEq τ] {f : RtosTask ι → RtosTask ι} (h : t ≠ w) :
    isWaiter (k.modifyTask w f) waitType p t = isWaiter k waitType p t := by
  simp [isWaiter, h]

theorem isWaiter_awake [DecidableEq τ]
    {f : RtosTask ι → RtosTask ι} (hf : (f (k.tcb w)).state ≠ .blocked)
    (h : isWaiter (k.modifyTask w f) waitType p t = true) :
    t ≠ w ∧ isWaiter k waitType p t = true := by
  have htw : t ≠ w := by
    rintro rfl
    simp [isWaiter, hf] at h
  exact ⟨htw, by rwa [isWaiter_of_ne htw] at h⟩

theorem isWaiter_kind (h : isWaiter k waitType p t = true) :
    (k.tcb t).waitType = waitType ∧ (k.tcb t).waitObject = some p :=
  (isWaiter_iff.mp h).2

end Waiters

section Rules

variable {k k' : Kernel τ ι}

/-- After a step, a task that waits either waited before, on an object that has not
changed, or has a reason to wait. -/
theorem NoStranded.change (h : NoStranded k) (htasks : k'.tasks = k.tasks)
    (hwait : ∀ t ∈ k.tasks, ∀ waitType p, isWaiter k' waitType p t = true →
      isWaiter k waitType p t = true ∧ k'.objects p = k.objects p ∨
        Justified (k'.objects p) t waitType) : NoStranded k' := by
  intro t ht waitType p hw
  rw [htasks] at ht
  rcases hwait t ht waitType p hw with ⟨hbefore, hsame⟩ | hjust
  · rw [hsame]
    exact h t ht waitType p hbefore
  · exact hjust

theorem NoStranded.fewer (h : NoStranded k) (htasks : k'.tasks = k.tasks)
    (hobjects : k'.objects = k.objects)
    (hwait : ∀ t ∈ k.tasks, ∀ waitType p, isWaiter k' waitType p t = true →
      isWaiter k waitType p t = true) : NoStranded k' :=
  h.change htasks fun t ht waitType p hw =>
    Or.inl ⟨hwait t ht waitType p hw, by rw [hobjects]⟩

theorem NoStranded.record (h : NoStranded k) (event : Event τ ι) :
    NoStranded (k.record event) :=
  h

theorem NoStranded.recompute [DecidableEq τ] (h : NoStranded k) :
    NoStranded (rtosKernelRecomputePriorities k) :=
  h

theorem NoStranded.pend (h : NoStranded k) : NoStranded (rtosPortPendContextSwitch k) :=
  h

theorem NoStranded.maybePreempt (h : NoStranded k) (t : Option τ) :
    NoStranded (rtosMaybePreempt k t) :=
  h.fewer (by simp) (by simp) fun _ _ _ _ hw => by
    simpa only [isWaiter, maybePreempt_tcb] using hw

/-- A task that is not BLOCKED afterwards waits for nothing. -/
theorem NoStranded.awake [DecidableEq τ] (h : NoStranded k) (w : τ) {f : RtosTask ι → RtosTask ι}
    (hf : (f (k.tcb w)).state ≠ .blocked) : NoStranded (k.modifyTask w f) :=
  h.fewer rfl rfl fun _ _ _ _ hw => (isWaiter_awake hf hw).2

theorem NoStranded.sameWait [DecidableEq τ] (h : NoStranded k) (w : τ) {f : RtosTask ι → RtosTask ι}
    (hstate : (f (k.tcb w)).state = (k.tcb w).state)
    (htype : (f (k.tcb w)).waitType = (k.tcb w).waitType)
    (hobject : (f (k.tcb w)).waitObject = (k.tcb w).waitObject) :
    NoStranded (k.modifyTask w f) := by
  refine h.fewer rfl rfl fun t _ waitType p hw => ?_
  rcases eq_or_ne t w with rfl | htw
  · rwa [isWaiter_congr (by simpa using hstate) (by simpa using htype)
      (by simpa using hobject)] at hw
  · rwa [isWaiter_of_ne htw] at hw

theorem NoStranded.setObject (h : NoStranded k) {p : ι} {object : Object τ}
    (hjust : ∀ t ∈ k.tasks, ∀ waitType, isWaiter k waitType p t = true →
      Justified (k.objects p) t waitType → Justified object t waitType) :
    NoStranded (k.setObject p object) := by
  refine h.change rfl fun t ht waitType q hw => ?_
  rcases eq_or_ne q p with rfl | hq
  · have hw' : isWaiter k waitType q t = true := hw
    exact Or.inr (by simpa using hjust t ht waitType hw' (h t ht waitType q hw'))
  · exact Or.inl ⟨hw, by simp [hq]⟩

end Rules

section Calls

variable {P : Platform τ} {k k' : Kernel τ ι}

theorem NoStranded.sleepOn [DecidableEq τ]
    (h : NoStranded k) {self : τ} {waitType : WaitType} {p : ι}
    (hjust : Justified (k.objects p) self waitType) (buffer : Option BufferPtr)
    (timeoutTicks : Word) : NoStranded (sleepOn k self waitType p buffer timeoutTicks) := by
  refine h.change rfl fun t _ waitType' p' hw => ?_
  rcases eq_or_ne t self with rfl | hts
  · obtain ⟨htype, hobject⟩ := isWaiter_kind hw
    obtain rfl : waitType = waitType' := by simpa [enterWait] using htype
    obtain rfl : p = p' := by simpa [enterWait] using hobject
    exact Or.inr hjust
  · exact Or.inl ⟨by simpa [isWaiter, hts] using hw, rfl⟩

theorem MustWait.justified {waitType : WaitType} {p : ι} (h : MustWait k waitType p)
    (t : τ) : Justified (k.objects p) t waitType := by
  cases waitType with
  | none => exact h
  | mutex => exact h.elim
  | semaphore => exact h
  | queueReceive => exact h
  | queueSend =>
      obtain ⟨q, hobj, hfull, _⟩ := h
      exact ⟨q, hobj, hfull⟩

variable [DecidableEq τ]

theorem NoStranded.released (h : NoStranded k) (p : ι) (self : τ) :
    NoStranded (releaseHold k p self) :=
  (h.sameWait _ rfl rfl rfl).record _

/-- The other waiters of a mutex handed over wait for its new owner. -/
theorem NoStranded.granted (h : NoStranded k) {p : ι} {m : Mutex τ}
    (hobj : k.objects p = .mutex m) (waiter : τ) : NoStranded (grantHold k p waiter) := by
  refine h.change rfl fun t ht waitType q hw => ?_
  obtain ⟨htw, hw⟩ := isWaiter_awake (by simp [leaveWait]) hw
  have hbefore : isWaiter k waitType q t = true := by simpa [isWaiter, htw] using hw
  rcases eq_or_ne q p with rfl | hq
  · have hjust := h t ht waitType q hbefore
    rw [hobj, justified_mutex] at hjust
    right
    rw [hjust.1]
    exact ⟨⟨some waiter⟩, waiter, by simp [grantHold], rfl, Ne.symm htw⟩
  · exact Or.inl ⟨hbefore, by simp [grantHold, hq]⟩

/-- A queue that a waiting sender fills up again is as full as before. -/
theorem NoStranded.refilled (h : NoStranded k) {caller : Option τ} {p : ι} {q : Queue}
    {item : BufferPtr} {sender : τ} {storage data : Nat → Byte}
    (hobj : k.objects p = .queue q) (hempty : q.count ≠ 0) :
    NoStranded ((pushItem (popItem k caller p q item) (some sender) p
      (rtosQueuePop q storage).1 data).modifyTask sender (leaveWait .ok)) := by
  refine h.change rfl fun t ht waitType p' hw => ?_
  obtain ⟨_, hw⟩ := isWaiter_awake (by simp [leaveWait]) hw
  have hbefore : isWaiter k waitType p' t = true := hw
  rcases eq_or_ne p' p with rfl | hp
  · have hjust := h t ht waitType p' hbefore
    rw [hobj, justified_queue] at hjust
    rcases hjust with ⟨htype, hfull⟩ | ⟨_, hzero⟩
    · right
      rw [htype]
      refine ⟨_, pushItem_object _ (some sender) _ _ _, ?_⟩
      show q.capacity ≤ q.count - 1 + 1
      rwa [BitVec.sub_add_cancel]
    · exact absurd hzero hempty
  · exact Or.inl ⟨hbefore, by simp [pushItem, popItem, hp]⟩

theorem NoStranded.callEffect (h : NoStranded k) {mode : Mode} {call : Call ι}
    {outcome : Outcome} (heffect : CallEffect k mode call k' outcome) : NoStranded k' := by
  cases heffect with
  | refused _ _ => exact h
  | ignored _ => exact h
  | yielded _ hrun => exact h
  | delayed hthread _ _ => exact (h.awake _ (by simp)).pend
  | slept hthread hwait _ _ hmust => exact h.sleepOn (MustWait.justified hmust _) _ _
  | @sleptOnMutex self _ p _ _ _ _ _ hobj howner hne =>
      have hjust : Justified (k.objects p) self .mutex := ⟨_, _, hobj, howner, hne⟩
      exact (h.sleepOn hjust none _).recompute
  | took _ hobj hcount =>
      refine (h.setObject fun t ht waitType hw hjust => ?_).record _
      rw [hobj, justified_semaphore] at hjust
      exact absurd hjust.2 hcount
  | gave _ hobj hfind _ =>
      apply h.setObject
      intro t ht waitType hw hjust
      rw [hobj, justified_semaphore] at hjust
      exact absurd (hjust.1 ▸ hw) (findWaiter_eq_none.mp hfind t ht)
  | gaveTo _ _ hfind => exact ((h.awake _ (by simp [leaveWait])).record _).maybePreempt _
  | locked _ _ hobj howner =>
      refine ((h.setObject fun t ht waitType hw hjust => ?_).sameWait _ rfl rfl rfl).record _
      rw [hobj, justified_mutex, howner] at hjust
      simp at hjust
  | @unlocked self p m hthread hobj _ hfind =>
      refine ((h.released p self).setObject fun t ht waitType hw hjust => ?_).recompute
      rw [show (releaseHold k p self).objects p = .mutex m from hobj, justified_mutex] at hjust
      exact absurd (hjust.1 ▸ hw) (findWaiter_eq_none.mp hfind t ht)
  | @unlockedTo self waiter p m hthread hobj _ hfind =>
      have hreleased : (releaseHold k p self).objects p = .mutex m := hobj
      exact ((h.released p self).granted hreleased waiter).recompute.maybePreempt _
  | sent _ hobj hfind hspace =>
      refine (h.setObject fun t ht waitType hw hjust => ?_).record _
      rw [hobj, justified_queue] at hjust
      rcases hjust with ⟨_, hfull⟩ | ⟨htype, _⟩
      · exact absurd hspace (by simpa using hfull)
      · exact absurd (htype ▸ hw) (findWaiter_eq_none.mp hfind t ht)
  | sentTo _ hobj hfind =>
      refine NoStranded.maybePreempt ?_ _
      refine NoStranded.awake ?_ _ (by simp [leaveWait])
      exact h.fewer (by simp) (by simp) fun t _ _ _ hw => by simpa [isWaiter] using hw
  | @received _ p q item _ hobj hempty hfind =>
      have hstored : NoStranded (k.setBuffer item (rtosQueuePop q (k.memory item)).2) := h
      refine (hstored.setObject fun t ht waitType hw hjust => ?_).record _
      rw [show (k.setBuffer _ _).objects _ = _ from hobj, justified_queue] at hjust
      rcases hjust with ⟨htype, _⟩ | ⟨_, hzero⟩
      · exact absurd (htype ▸ hw) (findWaiter_eq_none.mp hfind t ht)
      · exact absurd hzero hempty
  | receivedFrom _ hobj hempty hfind => exact (h.refilled hobj hempty).maybePreempt _

end Calls

section Reached

variable {P : Platform τ} {k k' : Kernel τ ι}

theorem NoStranded.of_stopped (hs : Sound P k) (hstopped : k.running = false) :
    NoStranded k := by
  intro t ht waitType p hw
  have hblocked := (isWaiter_iff.mp hw).1
  simp [hs.stopped_ready hstopped t ht] at hblocked

variable [DecidableEq τ]

theorem NoStranded.tick (h : NoStranded k) (hs : Sound P k) :
    NoStranded (sysTickHandler k) := by
  cases hrun : k.running with
  | false =>
      rw [sysTickHandler_stopped hrun]
      exact h
  | true =>
      obtain ⟨⟨tcb, htick⟩, htasks⟩ := sysTickHandler_running hrun hs.nodup
      apply h.fewer (by rw [htick]) (by rw [htick])
      intro t ht waitType p hw
      obtain ⟨priority, htcb⟩ := htasks t ht
      have hsame : tickTask (k.tick + 1) (k.tcb t) = k.tcb t :=
        tickTask_blocked (by simpa [htcb] using (isWaiter_iff.mp hw).1)
      rwa [isWaiter_congr (k := k) (by rw [htcb, hsame]) (by rw [htcb, hsame])
        (by rw [htcb, hsame])] at hw

theorem NoStranded.switched (h : NoStranded k) {next : τ} (hswitch : Switched k next k') :
    NoStranded k' := by
  have htcb := hswitch.tcb_eq
  have hblocked := hswitch.blocked
  obtain ⟨_, _, _, cursor, hk'⟩ := hswitch
  apply h.fewer (by simp [hk']) (by funext p; simp [hk'])
  intro t _ waitType p hw
  have hb := (isWaiter_iff.mp hw).1
  rwa [isWaiter_congr (hb.trans ((hblocked t).mp hb).symm) (by rw [htcb]) (by rw [htcb])] at hw

theorem NoStranded.quiet (h : NoStranded k) (hs : Sound P k) (hquiet : QuietStep P k k') :
    NoStranded k' := by
  have hs' := hs.quiet hquiet
  cases hquiet with
  | unchanged => exact h
  | booted hboot =>
      obtain ⟨hstopped, _, _, _, _, rfl⟩ := hboot
      exact .of_stopped hs' hstopped
  | created _ hstopped _ hadd =>
      obtain ⟨_, _, _, _, rfl⟩ := hadd
      exact .of_stopped hs' hstopped
  | placed _ hstopped _ => exact .of_stopped hs' hstopped
  | refusedStart hstopped => exact .of_stopped hs' hstopped
  | started hstart =>
      obtain ⟨_, _, first, cursor, _, _, _, rfl⟩ := hstart
      exact h.awake first (f := fun t => { t with state := .running }) (by simp)
  | terminated _ _ _ _ => exact (h.awake _ (by simp)).pend
  | switched _ hswitch => exact h.switched hswitch
  | wrote => exact h

theorem NoStranded.step (h : NoStranded k) (hs : Sound P k) (hstep : KernelStep P k k') :
    NoStranded k' := by
  cases hstep with
  | quiet hquiet => exact h.quiet hs hquiet
  | marked _ => exact h
  | call _ heffect => exact h.callEffect heffect
  | ticked => exact h.tick hs

theorem reached_noStranded {w : World τ ι} (h : Reached P w) : NoStranded w.toKernel := by
  have hboth : Sound P w.toKernel ∧ NoStranded w.toKernel := by
    refine reached_kernel (I := fun k => Sound P k ∧ NoStranded k) ?_ ?_ h
    · intro w hreset
      have hs : Sound P w.toKernel := .reset hreset
      exact ⟨hs, .of_stopped hs hreset.running⟩
    · rintro k k' ⟨hs, hn⟩ hstep
      exact ⟨hs.step hstep, hn.step hs hstep⟩
  exact hboth.2

/-- No task sleeps on an object that could serve it, and no queue has waiters at both
ends. -/
theorem no_stranded_waiter {w : World τ ι} (h : Reached P w) :
    (∀ t ∈ w.tasks, ∀ p s, BlockedOn w.toKernel t .semaphore p →
      w.objects p = .semaphore s → s.count = 0) ∧
    (∀ t ∈ w.tasks, ∀ p m, BlockedOn w.toKernel t .mutex p →
      w.objects p = .mutex m → m.owner ≠ none ∧ m.owner ≠ some t) ∧
    (∀ t ∈ w.tasks, ∀ p q, BlockedOn w.toKernel t .queueReceive p →
      w.objects p = .queue q → q.count = 0) ∧
    (∀ t ∈ w.tasks, ∀ p q, BlockedOn w.toKernel t .queueSend p →
      w.objects p = .queue q → q.count = q.capacity) ∧
    ∀ p, ∀ s ∈ w.tasks, ∀ r ∈ w.tasks, BlockedOn w.toKernel s .queueSend p →
      ¬BlockedOn w.toKernel r .queueReceive p := by
  have hserved := reached_noStranded h
  have hobjects := reached_objectsOk h
  have hjust : ∀ t ∈ w.tasks, ∀ waitType p, BlockedOn w.toKernel t waitType p →
      Justified (w.objects p) t waitType := fun t ht waitType p hb =>
    hserved t ht waitType p (isWaiter_iff.mpr hb)
  refine ⟨?_, ?_, ?_, ?_, ?_⟩
  · intro t ht p s hb hobj
    obtain ⟨s', hs', hcount⟩ := hjust t ht _ p hb
    obtain rfl : s = s' := by simpa [hobj] using hs'
    exact hcount
  · intro t ht p m hb hobj
    obtain ⟨m', owner, hm', howner, hne⟩ := hjust t ht _ p hb
    obtain rfl : m = m' := by simpa [hobj] using hm'
    simp [howner, hne]
  · intro t ht p q hb hobj
    obtain ⟨q', hq', hcount⟩ := hjust t ht _ p hb
    obtain rfl : q = q' := by simpa [hobj] using hq'
    exact hcount
  · intro t ht p q hb hobj
    obtain ⟨q', hq', hfull⟩ := hjust t ht _ p hb
    obtain rfl : q = q' := by simpa [hobj] using hq'
    exact BitVec.le_antisymm (hobjects.queue hobj).count_le hfull
  · intro p s hs r hr hsend hreceive
    obtain ⟨q, hq, hfull⟩ := hjust s hs _ p hsend
    obtain ⟨q', hq', hempty⟩ := hjust r hr _ p hreceive
    obtain rfl : q = q' := by simpa [hq] using hq'
    rw [hempty] at hfull
    exact (hobjects.queue hq).capacity_ne (BitVec.le_zero_iff.mp hfull)

/-- Task 2 sleeps on the empty semaphore and task 1 on the empty queue. -/
theorem no_stranded_waiter_demo :
    let w := demoRun (demoBoot ++ [.call .thread (.semaphoreTake (some 1) 5), .pendSV true,
      .call .thread (.queueReceive (some 2) (some 7) rtosWaitForever)])
    BlockedOn w.toKernel 2 .semaphore 1 ∧ BlockedOn w.toKernel 1 .queueReceive 2 ∧
      ∀ t ∈ w.tasks, ∀ p s, BlockedOn w.toKernel t .semaphore p →
        w.objects p = .semaphore s → s.count = 0 :=
  ⟨by decide, by decide, (no_stranded_waiter (demoRun_reached _)).1⟩

end Reached

end Stm32f411.WaiterService
