import Stm32f411.QueueFifo

/-!
The item buffers of calls and of sleeping callers hold an item of their queue.
-/

namespace Stm32f411.QueueRoom

open Stm32f411.LabelledRuns
open Stm32f411.RtosTypes
open Stm32f411.RtosKernel
open Stm32f411.RtosSystem
open Stm32f411.RtosKernelSpec
open Stm32f411.RtosBootSpec
open Stm32f411.RtosCallSpec
open Stm32f411.RtosStepSpec
open Stm32f411.KernelSoundness
open Stm32f411.QueueStorage
open Stm32f411.CallTraces
open Stm32f411.CallHistory
open Stm32f411.QueueFifo

variable {τ ι : Type} [DecidableEq ι]

variable {P : Platform τ} {size : BufferPtr → Nat} {k k' : Kernel τ ι} {w w' : World τ ι}
  {op : Op τ ι}

/-- The buffer a task sleeps on holds an item of the queue. -/
def BufferFits (size : BufferPtr → Nat) (t : RtosTask ι) (q : Queue) : Prop :=
  ∃ b, t.waitBuffer = some b ∧ q.itemSize.toNat ≤ size b

/-- The item buffer of a call holds an item of its queue. -/
def FitsCall (size : BufferPtr → Nat) (k : Kernel τ ι) (call : Call ι) : Prop :=
  ∀ p item q, callItem call = some (p, item) → k.objects p = .queue q →
    q.itemSize.toNat ≤ size item

/-- So does the buffer a sender or receiver sleeps on. -/
def WaitFits (size : BufferPtr → Nat) (k : Kernel τ ι) (t : τ) : Prop :=
  ∀ waitType p q, waitType = .queueSend ∨ waitType = .queueReceive →
    isWaiter k waitType p t = true → k.objects p = .queue q → BufferFits size (k.tcb t) q

def WaitersFit (size : BufferPtr → Nat) (k : Kernel τ ι) : Prop :=
  ∀ t ∈ k.tasks, WaitFits size k t

theorem WaitersFit.found (h : WaitersFit size k) {waitType : WaitType} {p : ι} {q : Queue} {t : τ}
    (hkind : waitType = .queueSend ∨ waitType = .queueReceive) (hobj : k.objects p = .queue q)
    (hfind : rtosKernelFindWaiter k waitType p = some t) : BufferFits size (k.tcb t) q := by
  obtain ⟨hmem, hwaits⟩ := findWaiter_waits hfind
  exact h t hmem waitType p q hkind hwaits hobj

omit [DecidableEq ι] in
theorem FitsCall.congr {call : Call ι} (h : FitsCall size k call)
    (hsize : ∀ p, itemSizeOf (k'.objects p) = itemSizeOf (k.objects p)) :
    FitsCall size k' call := by
  intro p item q' hcall hobj'
  have hq' := hsize p
  rw [itemSizeOf, hobj', Object.queue?_queue, Option.map_some, eq_comm, itemSizeOf,
    Option.map_eq_some_iff] at hq'
  obtain ⟨q, hobj, hitemSize⟩ := hq'
  rw [← hitemSize]
  exact h p item q hcall (Object.queue?_eq_some.mp hobj)

/-- The buffers that this state's calls and waits may still use hold their items. -/
structure Roomy (size : BufferPtr → Nat) (w : World τ ι) : Prop where
  queues : ObjectsOk w.toKernel
  waiters : WaitersFit size w.toKernel
  calls : ∀ t call, w.inCall t = some call → FitsCall size w.toKernel call

/-- The calls of a step are made with buffers that hold their items. -/
def FitsOp (size : BufferPtr → Nat) (w : World τ ι) (op : Op τ ι) : Prop :=
  ∀ mode call, op = .call mode call → FitsCall size w.toKernel call

omit [DecidableEq ι] in
theorem callWait_item {call : Call ι} {waitType : WaitType} {p : ι} {buffer : Option BufferPtr}
    {timeoutTicks : Word} (h : callWait call = some (waitType, p, buffer, timeoutTicks))
    (hkind : waitType = .queueSend ∨ waitType = .queueReceive) :
    ∃ b, buffer = some b ∧ callItem call = some (p, b) := by
  rcases hkind with rfl | rfl
  · obtain ⟨b, rfl, rfl⟩ := callWait_queueSend h
    exact ⟨b, rfl, rfl⟩
  · obtain ⟨b, rfl, rfl⟩ := callWait_queueReceive h
    exact ⟨b, rfl, rfl⟩

theorem WaitFits.same {t : τ} (h : WaitFits size k t)
    (hsize : ∀ p, itemSizeOf (k'.objects p) = itemSizeOf (k.objects p))
    (hsame : SameWait (k.tcb t) (k'.tcb t)) : WaitFits size k' t := by
  intro waitType p q' hkind hwaiter hobj'
  rw [hsame.isWaiter] at hwaiter
  have hq' := hsize p
  rw [itemSizeOf, hobj', Object.queue?_queue, Option.map_some, eq_comm, itemSizeOf,
    Option.map_eq_some_iff] at hq'
  obtain ⟨q, hobj, hitemSize⟩ := hq'
  obtain ⟨b, hb, hfits⟩ := h waitType p q hkind hwaiter (Object.queue?_eq_some.mp hobj)
  exact ⟨b, hsame.waitBuffer.trans hb, hitemSize ▸ hfits⟩

theorem WaitFits.of_awake {t : τ} (h : (k.tcb t).state ≠ .blocked) : WaitFits size k t :=
  fun _ _ _ _ hwaiter _ => absurd (isWaiter_iff.mp hwaiter).1 h

theorem WaitersFit.of_stopped (hs : Sound P k) (hstopped : k.running = false) :
    WaitersFit size k :=
  fun t ht => .of_awake (by simp [hs.stopped_ready hstopped t ht])

variable [DecidableEq τ]

theorem WaitersFit.callEffect (h : WaitersFit size k) {mode : Mode} {call : Call ι}
    {outcome : Outcome} (hfits : FitsCall size k call)
    (heffect : CallEffect k mode call k' outcome) : WaitersFit size k' := by
  have hsize := CallEffect.itemSize heffect
  intro t ht
  rw [heffect.frame.tasks] at ht
  have htask := heffect.task t
  generalize htcb : k'.tcb t = t' at htask
  cases htask with
  | kept hkept => exact (h t ht).same hsize (.of_kept (htcb ▸ hkept))
  | woken _ _ hkept =>
      obtain ⟨_, _, rfl⟩ := hkept
      exact .of_awake (by simp [htcb, leaveWait])
  | delayed _ _ _ _ => exact .of_awake (by simp [htcb])
  | slept _ hwait _ _ hkept =>
      intro waitType p q hkind hwaiter hobj
      obtain ⟨_, htype, hobject⟩ := isWaiter_iff.mp hwaiter
      obtain ⟨_, _, rfl⟩ := hkept
      rw [htcb] at htype hobject ⊢
      obtain rfl : _ = waitType := htype
      obtain rfl := Option.some.inj hobject
      obtain ⟨b, rfl, hitem⟩ := callWait_item hwait hkind
      exact ⟨b, rfl, hfits.congr hsize _ b q hitem hobj⟩

theorem WaitersFit.tick (h : WaitersFit size k) (hs : Sound P k) :
    WaitersFit size (sysTickHandler k) := by
  intro t ht
  obtain ⟨tcb, pended, hframe⟩ := sysTickHandler_frame k
  have htasks : t ∈ k.tasks := by simpa [hframe] using ht
  have hsize : ∀ p, itemSizeOf ((sysTickHandler k).objects p) = itemSizeOf (k.objects p) := by
    simp [hframe]
  cases hrun : k.running with
  | false =>
      rw [sysTickHandler_stopped hrun]
      exact .of_awake (by simp [hs.stopped_ready hrun t htasks])
  | true =>
      rcases tick_wait hs hrun htasks with hsame | ⟨_, _, _, hout⟩
      · exact (h t htasks).same hsize hsame
      · exact .of_awake (by simp [hout, leaveWait])

omit [DecidableEq ι] in
/-- Nobody waits when the scheduler starts. -/
theorem started_awake (hs : Sound P k) (hstart : Started k k') {t : τ} (ht : t ∈ k'.tasks) :
    (k'.tcb t).state ≠ .blocked := by
  obtain ⟨_, hstopped, first, _, _, _, _, rfl⟩ := hstart
  rcases eq_or_ne t first with rfl | hne
  · simp
  · simp [hne, hs.stopped_ready hstopped t ht]

theorem WaitersFit.quiet (h : WaitersFit size k) (hs : Sound P k) (hquiet : QuietStep P k k') :
    WaitersFit size k' := by
  have hs' := hs.quiet hquiet
  cases hrun : k.running with
  | true =>
      obtain ⟨_, htasks, _, hsame⟩ := QuietStep.sameWait hquiet hrun
      have hobjects : k'.objects = k.objects := by
        rcases hquiet.objects with ⟨hobjects, _⟩ | ⟨_, _, _, hstopped, _, _⟩
        · exact hobjects
        · simp [hrun] at hstopped
      intro t ht
      rw [htasks] at ht
      exact (h t ht).same (by simp [hobjects]) (hsame t)
  | false =>
      cases hquiet with
      | started hstart => exact fun t ht => .of_awake (started_awake hs hstart ht)
      | unchanged => exact h
      | booted hboot =>
          obtain ⟨hstopped, _, _, _, _, rfl⟩ := hboot
          exact .of_stopped hs' hstopped
      | created _ hstopped _ hadd =>
          obtain ⟨_, _, _, _, rfl⟩ := hadd
          exact .of_stopped hs' hstopped
      | placed _ hstopped _ => exact .of_stopped hs' hstopped
      | refusedStart hstopped => exact .of_stopped hs' hstopped
      | terminated hcurrent _ _ _ => simp [hs.stopped_current hrun] at hcurrent
      | switched hrunning _ => simp [hrun] at hrunning
      | wrote => exact h

theorem FitsCall.step {call : Call ι} (h : FitsCall size w.toKernel call)
    (hstep : SystemStep P w op w') (hrun : w.running = true) :
    FitsCall size w'.toKernel call :=
  h.congr (SystemStep.itemSize hstep hrun)

/-- The steps of runs whose calls name buffers that hold their items. -/
def FitsSteps (P : Platform τ) (size : BufferPtr → Nat) (w : World τ ι) (op : Op τ ι)
    (w' : World τ ι) : Prop :=
  step P w op = some w' ∧ FitsOp size w op

theorem fits_reached (h : Reachable (FitsSteps P size) Reset w) : Reached P w :=
  h.mono fun _ _ _ hstep => hstep.1

theorem WaitersFit.step (h : WaitersFit size w.toKernel) (hs : Sound P w.toKernel)
    (hfits : FitsOp size w op) (hstep : SystemStep P w op w') :
    WaitersFit size w'.toKernel := by
  cases hstep with
  | ticked => exact h.tick hs
  | quiet _ hquiet => exact h.quiet hs hquiet
  | returned _ _ heffect =>
      have hcalled := WaitersFit.callEffect (k := callEntered w.toKernel _ _) h
        (hfits _ _ rfl) heffect
      exact hcalled
  | suspended _ _ _ heffect =>
      exact WaitersFit.callEffect (k := callEntered w.toKernel _ _) h (hfits _ _ rfl) heffect
  | resumed _ _ _ => exact h

/-- Suspended calls still have room for their items. -/
theorem calls_fit (htraced : Traced (fun _ => ()) w)
    (h : ∀ t call, w.inCall t = some call → FitsCall size w.toKernel call)
    (hfits : FitsOp size w op) (hstep : SystemStep P w op w') :
    ∀ t call, w'.inCall t = some call → FitsCall size w'.toKernel call := by
  have hkept : ∀ t call, w.inCall t = some call → FitsCall size w'.toKernel call :=
    fun t call hcall => (h t call hcall).step hstep (htraced.running hcall)
  cases hstep with
  | ticked => exact hkept
  | quiet _ _ => exact hkept
  | returned _ _ _ => exact hkept
  | @suspended mode call k' self _ hthread _ heffect =>
      intro t call' hcall'
      rcases eq_or_ne t self with rfl | hne
      · obtain rfl : call = call' := by simpa using hcall'
        exact FitsCall.congr (k := callEntered w.toKernel mode call) (hfits mode call rfl)
          (CallEffect.itemSize heffect)
      · exact hkept t call' (by simpa [hne] using hcall')
  | @resumed self call _ _ _ =>
      intro t call' hcall'
      rcases eq_or_ne t self with rfl | hne
      · simp [resumeStep] at hcall'
      · exact hkept t call' (by simpa [resumeStep, hne] using hcall')

theorem fits_roomy (h : Reachable (FitsSteps P size) Reset w) : Roomy size w := by
  have hinvariant : WaitersFit size w.toKernel ∧
      ∀ t call, w.inCall t = some call → FitsCall size w.toKernel call := by
    refine h.invariant (I := fun w => WaitersFit size w.toKernel ∧
      ∀ t call, w.inCall t = some call → FitsCall size w.toKernel call) (fun w hreset => ?_) ?_
    · exact ⟨.of_stopped (P := P) (.reset hreset) hreset.running, fun t call hcall => by
        simp [hreset.inCall t] at hcall⟩
    · rintro w op w' hw ⟨hwaiters, hcalls⟩ ⟨hstep, hfits⟩
      have hreached := fits_reached hw
      exact ⟨hwaiters.step (reached_sound hreached) hfits (step_system hstep),
        calls_fit (reached_traced hreached) hcalls hfits (step_system hstep)⟩
  exact ⟨reached_objectsOk (fits_reached h), hinvariant.1, hinvariant.2⟩

end Stm32f411.QueueRoom
