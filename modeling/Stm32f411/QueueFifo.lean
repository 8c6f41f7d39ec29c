import Stm32f411.CallHistory
import Stm32f411.QueueStorage

/-!
Each queue as a bounded FIFO. The items accepted over its life are the items delivered
followed by what lies in the ring, and every send and receive that returned RTOS_OK stands
for exactly one item.
-/

namespace Stm32f411.QueueFifo

open Stm32f411.OpenSpans
open Stm32f411.LabelledRuns
open Stm32f411.RtosTypes
open Stm32f411.RtosKernel
open Stm32f411.RtosIpc
open Stm32f411.RtosSystem
open Stm32f411.RtosKernelSpec
open Stm32f411.RtosBootSpec
open Stm32f411.RtosCallSpec
open Stm32f411.RtosStepSpec
open Stm32f411.KernelSoundness
open Stm32f411.QueueStorage
open Stm32f411.WaiterService
open Stm32f411.PriorityInheritance
open Stm32f411.CallTraces
open Stm32f411.CallHistory

variable {τ ι : Type} [DecidableEq ι]

def acceptedItem (p : ι) : Event τ ι → Option (List Byte)
  | .accepted q _ item => if q = p then some item else none
  | _ => none

def deliveredItem (p : ι) : Event τ ι → Option (List Byte)
  | .delivered q _ item => if q = p then some item else none
  | _ => none

/-- The items of one queue over its life so far. -/
def Fifo (p : ι) (log : List (Event τ ι)) (object : Object τ) : Prop :=
  ∀ q, object = .queue q → ∃ life,
    openSpan (initMark p) log = some (.queue q.capacity q.itemSize, life) ∧
      life.filterMap (acceptedItem p) = life.filterMap (deliveredItem p) ++ queueItems q

section Rules

variable {P : Platform τ} {k k' : Kernel τ ι} {p : ι} {log : List (Event τ ι)}
variable {object : Object τ}

/-- The history grows by events of the queue's life. -/
theorem Fifo.extend (h : Fifo p log object) (more : List (Event τ ι))
    (hinside : ∀ event ∈ more, initMark p event = .inside) {object' : Object τ}
    (hitems : ∀ q', object' = .queue q' → ∃ q, object = .queue q ∧
      q'.capacity = q.capacity ∧ q'.itemSize = q.itemSize ∧
      queueItems q ++ more.filterMap (acceptedItem p) =
        more.filterMap (deliveredItem p) ++ queueItems q') :
    Fifo p (log ++ more) object' := by
  intro q' hq'
  obtain ⟨q, hq, hcapacity, hsize, hmore⟩ := hitems q' hq'
  obtain ⟨life, hspan, hlife⟩ := h q hq
  refine ⟨life ++ more, ?_, ?_⟩
  · rw [hcapacity, hsize]
    exact openSpan_inside hspan hinside
  · rw [List.filterMap_append, List.filterMap_append, hlife, List.append_assoc, hmore,
      List.append_assoc]

/-- Events that concern no item of the queue. -/
theorem Fifo.other (h : Fifo p log object) (more : List (Event τ ι))
    (hmore : ∀ event ∈ more, initMark p event = .inside ∧ acceptedItem p event = none ∧
      deliveredItem p event = none) {object' : Object τ}
    (hobject : ∀ q, object' = .queue q → object = .queue q) :
    Fifo p (log ++ more) object' := by
  apply h.extend more (fun event he => (hmore event he).1)
  intro q hq
  refine ⟨q, hobject q hq, rfl, rfl, ?_⟩
  rw [List.filterMap_eq_nil_iff.mpr fun event he => (hmore event he).2.1,
    List.filterMap_eq_nil_iff.mpr fun event he => (hmore event he).2.2, List.append_nil,
    List.nil_append]

omit [DecidableEq ι] in
/-- A direct hand-off copies the sender's item. -/
theorem itemBytes_handed {q : Queue} {item buffer : BufferPtr} {receiver : τ}
    (hbuffer : (k.tcb receiver).waitBuffer = some buffer) :
    Kernel.itemBytes (handedBytes k q item receiver) q =
      Kernel.itemBytes (k.memory item) q := by
  rw [handedBytes_eq hbuffer]
  apply List.map_congr_left
  intro i hi
  simp [copyBytes_apply, List.mem_range.mp hi]

theorem Fifo.pushed (h : Fifo p k.log (k.objects p)) {r : ι} {q : Queue}
    (hobj : k.objects r = .queue q) (hok : QueueOk q) (hspace : q.count < q.capacity)
    (sender : Option τ) (bytes : Nat → Byte) :
    Fifo p (pushItem k sender r q bytes).log ((pushItem k sender r q bytes).objects p) := by
  rcases eq_or_ne p r with rfl | hne
  · apply h.extend [_] (by simp [initMark])
    intro q' hq'
    rw [pushItem_object] at hq'
    obtain rfl : rtosQueuePush q bytes = q' := by simpa using hq'
    refine ⟨q, hobj, rfl, rfl, ?_⟩
    simp [acceptedItem, deliveredItem, hok.queueItems_push hspace]
  · exact h.other [_] (by simp [initMark, acceptedItem, deliveredItem, hne.symm])
      (by simp [pushItem, hne])

theorem Fifo.popped (h : Fifo p k.log (k.objects p)) {r : ι} {q : Queue}
    (hobj : k.objects r = .queue q) (hok : QueueOk q) (hcount : q.count ≠ 0)
    (caller : Option τ) (item : BufferPtr) :
    Fifo p (popItem k caller r q item).log ((popItem k caller r q item).objects p) := by
  rcases eq_or_ne p r with rfl | hne
  · apply h.extend [_] (by simp [initMark])
    intro q' hq'
    rw [popItem_object] at hq'
    obtain rfl : (rtosQueuePop q (k.memory item)).1 = q' := by simpa using hq'
    refine ⟨q, hobj, rfl, rfl, ?_⟩
    simp [acceptedItem, deliveredItem, hok.queueItems_pop hcount (k.memory item)]
  · exact h.other [_] (by simp [initMark, acceptedItem, deliveredItem, hne.symm])
      (by simp [popItem, hne])

/-- An item handed straight to a receiver passes through an empty ring. -/
theorem Fifo.handed [DecidableEq τ] (h : Fifo p k.log (k.objects p)) {r : ι} {q : Queue}
    (hobj : k.objects r = .queue q) (hempty : q.count = 0) {receiver : τ}
    {buffer : BufferPtr} (hbuffer : (k.tcb receiver).waitBuffer = some buffer)
    (caller : Option τ) (item : BufferPtr) :
    Fifo p (handItem k caller r q item receiver).log
      ((handItem k caller r q item receiver).objects p) := by
  rw [handItem_log, handItem_objects, itemBytes_handed hbuffer]
  rcases eq_or_ne p r with rfl | hne
  · refine h.extend _ (by simp [initMark]) fun q' hq' => ⟨q', hq', rfl, rfl, ?_⟩
    obtain rfl : q = q' := by simpa [hobj] using hq'
    simp [List.filterMap_cons, acceptedItem, deliveredItem, queueItems, hempty]
  · exact h.other _ (by simp [initMark, acceptedItem, deliveredItem, hne.symm]) fun _ => id

/-- A step that hands on no item and leaves the queues alone. -/
theorem Fifo.untouched (h : Fifo p k.log (k.objects p)) (more : List (Event τ ι))
    (hlog : k'.log = k.log ++ more)
    (hmore : ∀ event ∈ more, initMark p event = .inside ∧ acceptedItem p event = none ∧
      deliveredItem p event = none)
    (hobject : ∀ q, k'.objects p = .queue q → k.objects p = .queue q) :
    Fifo p k'.log (k'.objects p) := by
  rw [hlog]
  exact h.other more hmore hobject

theorem Fifo.callEffect [DecidableEq τ] (h : Fifo p k.log (k.objects p)) (hk : KernelInvariant P k)
    (hok : ObjectsOk k) {mode : Mode} {call : Call ι} {outcome : Outcome}
    (heffect : CallEffect k mode call k' outcome) : Fifo p k'.log (k'.objects p) := by
  cases heffect with
  | refused _ _ => exact h
  | ignored _ => exact h
  | yielded _ _ => exact h
  | delayed _ _ _ => exact h
  | slept _ _ _ _ _ => exact h
  | sleptOnMutex _ _ _ _ _ _ => exact h
  | @took self r _ _ _ hobj _ =>
      exact h.untouched [.took r self] rfl (by simp [initMark, acceptedItem, deliveredItem])
        (setObject_kind (by simp) p)
  | gave _ hobj _ _ =>
      exact h.untouched [] (by simp) (by simp) (setObject_kind (by simp) p)
  | @gaveTo _ r _ waiter _ _ _ =>
      refine h.untouched [.took r waiter] (by simp)
        (by simp [initMark, acceptedItem, deliveredItem]) ?_
      rw [maybePreempt_objects]
      exact fun _ => id
  | @locked self r _ _ _ _ hobj _ =>
      exact h.untouched [.locked r self] rfl (by simp [initMark, acceptedItem, deliveredItem])
        (setObject_kind (by simp) p)
  | @unlocked self r _ _ hobj _ _ =>
      exact h.untouched [.unlocked r self] rfl (by simp [initMark, acceptedItem, deliveredItem])
        (setObject_kind (k := releaseHold k r self) (by simp) p)
  | @unlockedTo self waiter r _ _ hobj _ _ =>
      refine h.untouched [.unlocked r self, .locked r waiter]
        (by simp [releaseHold, grantHold])
        (by simp [initMark, acceptedItem, deliveredItem]) ?_
      rw [maybePreempt_objects]
      exact setObject_kind (k := releaseHold k r self) (by simp) p
  | sent _ hobj _ hspace => exact h.pushed hobj (hok.queue hobj) hspace _ _
  | @sentTo _ r q item receiver _ hobj hfind =>
      obtain ⟨hmem, hwaits⟩ := findWaiter_waits hfind
      have hw := isWaiter_iff.mp hwaits
      obtain ⟨buffer, hbuffer⟩ := hk.sound.wait_buffer receiver hmem hw.1 (Or.inr hw.2.1)
      have hjust := hk.noStranded receiver hmem _ _ hwaits
      rw [hobj, justified_queue] at hjust
      have hempty : q.count = 0 := by simpa using hjust
      rw [maybePreempt_log, maybePreempt_objects]
      exact h.handed hobj hempty hbuffer _ _
  | received _ hobj hcount _ => exact h.popped hobj (hok.queue hobj) hcount _ _
  | @receivedFrom _ r q item sender _ hobj hcount _ =>
      have hq := hok.queue hobj
      rw [maybePreempt_log, maybePreempt_objects]
      exact (h.popped hobj hq hcount (callerOf k mode) item).pushed (popItem_object _ _ _ _ _)
        (hq.pop hcount _) (hq.pop_space hcount _) _ _

theorem Fifo.placed {kind : ObjectInit} (hobj : Initialised object kind) :
    Fifo p (log ++ [.initialised p kind]) object := by
  rintro q rfl
  cases hobj with
  | queue _ _ _ => exact ⟨[], openSpan_opens (by simp [initMark]), by simp [queueItems]⟩

variable [DecidableEq τ]

theorem Fifo.step (h : Fifo p k.log (k.objects p)) (hk : KernelInvariant P k)
    (hok : ObjectsOk k) (hstep : KernelStep P k k') : Fifo p k'.log (k'.objects p) := by
  cases hstep with
  | quiet hquiet =>
      rcases hquiet.objects with ⟨hobjects, hlog⟩ | ⟨r, object, kind, _, hobj, rfl⟩
      · rwa [hobjects, hlog]
      · rcases eq_or_ne p r with rfl | hne
        · simpa using Fifo.placed hobj
        · exact h.untouched [.initialised r kind] rfl
            (by simp [initMark, acceptedItem, deliveredItem, hne.symm]) (by simp [hne])
  | @marked event hmark =>
      refine h.untouched [event] rfl ?_ fun _ => id
      cases event <;> simp_all [IsMark, initMark, acceptedItem, deliveredItem]
  | call _ heffect => exact h.callEffect hk hok heffect
  | ticked =>
      obtain ⟨tcb, pended, htick⟩ := sysTickHandler_frame k
      rw [htick]
      exact h

theorem reached_fifo {w : World τ ι} (h : Reached P w) (p : ι) :
    Fifo p w.log (w.objects p) := by
  have hall : KernelInvariant P w.toKernel ∧ ObjectsOk w.toKernel ∧
      Fifo p w.log (w.objects p) := by
    refine reached_kernel
      (I := fun k => KernelInvariant P k ∧ ObjectsOk k ∧ Fifo p k.log (k.objects p))
      (fun w hreset => ⟨.reset hreset, fun r => ?_, fun q hq => ?_⟩)
      (fun k k' hk hstep => ⟨hk.1.step hstep, hk.2.1.step hstep,
        hk.2.2.step hk.1 hk.2.1 hstep⟩) h
    · rw [hreset.objects]
      trivial
    · simp [hreset.objects] at hq
  exact hall.2.2

end Rules

variable [DecidableEq τ]

section Buffers

variable {P : Platform τ} {k k' : Kernel τ ι} {w w' : World τ ι}

def itemSizeOf (object : Object τ) : Option Word :=
  object.queue?.map Queue.itemSize

/-- No call changes the item size of a queue. -/
theorem CallEffect.itemSize {mode : Mode} {call : Call ι} {outcome : Outcome}
    (h : CallEffect k mode call k' outcome) (p : ι) :
    itemSizeOf (k'.objects p) = itemSizeOf (k.objects p) := by
  cases h with
  | refused _ _ => rfl
  | ignored _ => rfl
  | yielded _ _ => rfl
  | delayed _ _ _ => rfl
  | slept _ _ _ _ _ => rfl
  | sleptOnMutex _ _ _ _ _ _ => rfl
  | took _ hobj _ => exact setObject_view itemSizeOf (by rw [hobj]; rfl) p
  | gave _ hobj _ _ => exact setObject_view itemSizeOf (by rw [hobj]; rfl) p
  | gaveTo _ _ _ =>
      rw [maybePreempt_objects]
      rfl
  | locked _ _ hobj _ => exact setObject_view itemSizeOf (by rw [hobj]; rfl) p
  | unlocked _ hobj _ _ =>
      exact setObject_view (k := releaseHold k _ _) itemSizeOf
        (by rw [releaseHold]; simp [hobj]; rfl) p
  | unlockedTo _ hobj _ _ =>
      rw [maybePreempt_objects]
      exact setObject_view (k := releaseHold k _ _) itemSizeOf
        (by rw [releaseHold]; simp [hobj]; rfl) p
  | sent _ hobj _ _ => exact setObject_view itemSizeOf (by rw [hobj]; rfl) p
  | sentTo _ _ _ => rw [maybePreempt_objects, handItem_objects]
  | received _ hobj _ _ =>
      exact setObject_view (k := k.setBuffer _ _) itemSizeOf (by simp [hobj]; rfl) p
  | @receivedFrom _ r q item sender _ hobj _ _ =>
      rw [maybePreempt_objects]
      have hpopped : itemSizeOf ((popItem k (callerOf k mode) r q item).objects p) =
          itemSizeOf (k.objects p) :=
        setObject_view (k := k.setBuffer item _) itemSizeOf (by simp [hobj]; rfl) p
      rw [← hpopped]
      exact setObject_view (k := popItem k (callerOf k mode) r q item) itemSizeOf
        (by rw [popItem_object]; rfl) p

theorem SystemStep.itemSize {op : Op τ ι} (h : SystemStep P w op w')
    (hrun : w.running = true) (p : ι) :
    itemSizeOf (w'.objects p) = itemSizeOf (w.objects p) := by
  cases h with
  | ticked =>
      obtain ⟨tcb, pended, htick⟩ := sysTickHandler_frame w.toKernel
      rw [htick]
  | quiet _ hquiet =>
      rcases hquiet.objects with ⟨hobjects, _⟩ | ⟨_, _, _, hstopped, _, _⟩
      · show itemSizeOf (_ : Object τ) = _
        rw [hobjects]
      · simp [hrun] at hstopped
  | returned _ _ heffect => exact CallEffect.itemSize heffect p
  | suspended _ _ _ heffect => exact CallEffect.itemSize heffect p
  | resumed _ _ _ => rfl

/-- A step writes to the item buffer of a suspended task only to deliver it an item. -/
def BuffersKept (w w' : World τ ι) : Prop :=
  ∀ t call p buffer, w.inCall t = some call → callItem call = some (p, buffer) →
    w'.memory buffer = w.memory buffer ∨
      ∃ q item, .delivered q (some t) item ∈ w'.log.drop w.log.length

/-- The steps of runs in which nobody else writes to the buffer of a blocked caller. -/
def BufferSteps (P : Platform τ) (w : World τ ι) (op : Op τ ι) (w' : World τ ι) : Prop :=
  step P w op = some w' ∧ BuffersKept w w'

omit [DecidableEq τ] [DecidableEq ι] in
theorem callData_kept {call : Call ι}
    (hsize : ∀ p, itemSizeOf (k'.objects p) = itemSizeOf (k.objects p))
    (hmemory : ∀ p buffer, callItem call = some (p, buffer) →
      k'.memory buffer = k.memory buffer) : callData k' call = callData k call := by
  unfold callData
  cases hitem : callItem call with
  | none => rfl
  | some x =>
      obtain ⟨p, item⟩ := x
      have hqueue := hsize p
      dsimp only [itemSizeOf] at hqueue ⊢
      rw [hmemory p item hitem]
      cases hbefore : (k.objects p).queue? <;> cases hafter : (k'.objects p).queue? <;>
        simp_all [Kernel.itemBytes]

theorem BuffersKept.data {op : Op τ ι} (h : BuffersKept w w')
    (htraced : Traced (fun _ => ()) w) (hstep : SystemStep P w op w') : DataKept id w w' := by
  intro t call hcall
  cases hitem : callItem call with
  | none => exact Or.inl (by simp [callData, hitem])
  | some x =>
      rcases h t call x.1 x.2 hcall hitem with hsame | hdelivered
      · refine Or.inl (callData_kept (SystemStep.itemSize hstep (htraced.running hcall)) ?_)
        intro p buffer hitem'
        obtain rfl := Option.some.inj (hitem.symm.trans hitem')
        exact hsame
      · exact Or.inr hdelivered

theorem buffer_reached (h : Reachable (BufferSteps P) Reset w) : Reached P w :=
  h.mono fun _ _ _ hstep => hstep.1

theorem buffer_traced (h : Reachable (BufferSteps P) Reset w) : Traced id w :=
  kept_traced (h.refine fun _ _ _ hw hstep =>
    ⟨hstep.1, hstep.2.data (reached_traced (buffer_reached hw)) (step_system hstep.1)⟩)

/-- Every queue is a bounded FIFO whose slot arithmetic is exact, and every send and
receive stands for one item, byte for byte, exactly if it returned RTOS_OK. -/
theorem queue_fifo (h : Reachable (BufferSteps P) Reset w) {p : ι} {q : Queue}
    (hobj : w.objects p = .queue q) :
    (∃ life, openSpan (initMark p) w.log = some (.queue q.capacity q.itemSize, life) ∧
      life.filterMap (acceptedItem p) = life.filterMap (deliveredItem p) ++ queueItems q) ∧
      q.count ≤ q.capacity ∧
      q.tail.toNat = (q.head.toNat + q.count.toNat) % q.capacity.toNat ∧
      q.capacity.toNat * q.itemSize.toNat < 2 ^ 32 ∧
      (∀ slot, slot = q.head ∨ slot = q.tail →
        (slot * q.itemSize).toNat = slot.toNat * q.itemSize.toNat ∧
          slot.toNat * q.itemSize.toNat + q.itemSize.toNat ≤
            q.capacity.toNat * q.itemSize.toNat) ∧
      (∀ before after caller call item result data, callSends call = some (p, item) →
        w.log = before ++ .returned caller call result data :: after →
        ∃ entry body, openSpan (callMark caller) before = some ((call, entry), body) ∧
          effectsOf id caller body = if result = .ok then [.accepted p entry] else []) ∧
      ∀ before after caller call item result data, callReceives call = some (p, item) →
        w.log = before ++ .returned caller call result data :: after →
        ∃ entry body, openSpan (callMark caller) before = some ((call, entry), body) ∧
          effectsOf id caller body = if result = .ok then [.delivered p data] else [] := by
  have hok := (reached_objectsOk (buffer_reached h)).queue hobj
  have hexact := (buffer_traced h).exact
  refine ⟨reached_fifo (buffer_reached h) p q hobj, hok.count_le, hok.tail_eq, hok.fits, ?_, ?_,
    ?_⟩
  · rintro slot (rfl | rfl)
    · exact hok.offset hok.head_lt
    · exact hok.offset hok.tail_lt
  · intro before after caller call item result data hcall hlog
    obtain ⟨entry, body, hspan, hbody⟩ := hexact before after caller call result data hlog
    refine ⟨entry, body, hspan, ?_⟩
    rw [hbody, callEffects_sends hcall]
    rfl
  · intro before after caller call item result data hcall hlog
    obtain ⟨entry, body, hspan, hbody⟩ := hexact before after caller call result data hlog
    refine ⟨entry, body, hspan, ?_⟩
    rw [hbody, callEffects_receives hcall]
    rfl

end Buffers

section Demo

theorem BuffersKept.of_memory {τ ι : Type} {w w' : World τ ι} (h : w'.memory = w.memory) :
    BuffersKept w w' :=
  fun _ _ _ buffer _ _ => Or.inl (congrFun h buffer)

theorem BuffersKept.of_idle {τ ι : Type} {w w' : World τ ι} (h : ∀ t, w.inCall t = none) :
    BuffersKept w w' := by
  intro t call p buffer hcall
  simp [h t] at hcall

/-- As long as nobody calls, nobody is suspended. -/
theorem run_idle {τ ι : Type} [DecidableEq τ] [DecidableEq ι] {P : Platform τ}
    {w w' : World τ ι} {ops : List (Op τ ι)} (h : Run (Steps (step P)) w ops w')
    (hops : ∀ op ∈ ops, IsQuiet op) (hidle : ∀ t, w.inCall t = none) :
    Run (BufferSteps P) w ops w' ∧ ∀ t, w'.inCall t = none := by
  induction h with
  | nil => exact ⟨.nil, hidle⟩
  | snoc _ hlast ih =>
      obtain ⟨hrun, hidle'⟩ := ih fun op hop => hops op (List.mem_append_left _ hop)
      refine ⟨hrun.snoc ⟨hlast, .of_idle hidle'⟩, ?_⟩
      have hquiet := hops _ (List.mem_append_right _ (List.mem_singleton_self _))
      cases step_system hlast with
      | ticked => exact hidle'
      | quiet _ _ => exact hidle'
      | returned _ _ _ => exact hidle'
      | suspended _ _ _ _ => exact hquiet.elim
      | resumed _ _ _ => exact hquiet.elim

theorem demo_buffers {ops : List (Op Nat Nat)}
    (h : Reachable (BufferSteps demoPlatform) Reset (demoRun ops)) (op : Op Nat Nat)
    (hrun : (exec (step demoPlatform) demoReset (ops ++ [op])).isSome = true)
    (hkept : BuffersKept (demoRun ops) (demoRun (ops ++ [op]))) :
    Reachable (BufferSteps demoPlatform) Reset (demoRun (ops ++ [op])) :=
  h.step ⟨demoRun_step ops op hrun, hkept⟩

/-- Task 2 sleeps on the empty queue, and task 1 sends it the byte 42. -/
def handOffRun : List (Op Nat Nat) :=
  demoBoot ++ [.write 5 fun _ => 42] ++ [.call .thread (.queueReceive (some 2) (some 7) 9)] ++
    [.pendSV true] ++ [.call .thread (.queueSend (some 2) (some 5) 0)] ++ [.pendSV true] ++
    [.resume]

theorem handOffRun_buffers :
    Reachable (BufferSteps demoPlatform) Reset (demoRun handOffRun) := by
  obtain ⟨hboot, hidle⟩ := run_idle
    (demoRun_run (demoBoot ++ [.write 5 fun _ => 42]) (by decide))
    (by simp [demoBoot, IsQuiet]) fun _ => rfl
  have hwritten : Reachable (BufferSteps demoPlatform) Reset _ :=
    ⟨demoReset, _, demoReset_reset, hboot⟩
  have hslept := demo_buffers hwritten
    (.call .thread (.queueReceive (some 2) (some 7) 9)) (by decide) (.of_idle hidle)
  have hswitched := demo_buffers hslept (.pendSV true) (by decide) (.of_memory rfl)
  have hsent := demo_buffers hswitched (.call .thread (.queueSend (some 2) (some 5) 0))
    (by decide) ?_
  · have hback := demo_buffers hsent (.pendSV true) (by decide) (.of_memory rfl)
    exact demo_buffers hback .resume (by decide) (.of_memory rfl)
  · intro t call p buffer hcall _
    rcases eq_or_ne t 2 with rfl | hne
    · exact Or.inr ⟨2, [42], by decide⟩
    · have hnone : Function.update (fun _ => none) 2
          (some (.queueReceive (some 2) (some 7) 9)) t = some call := hcall
      simp [hne] at hnone

theorem queue_fifo_demo :
    let w := demoRun handOffRun
    (∃ q, w.objects 2 = .queue q ∧ ∃ life,
      openSpan (initMark 2) w.log = some (.queue q.capacity q.itemSize, life) ∧
        life.filterMap (acceptedItem 2) =
          life.filterMap (deliveredItem 2) ++ queueItems q) ∧
      ∃ entry body, openSpan (callMark (some 2)) w.log.dropLast =
          some ((.queueReceive (some 2) (some 7) 9, entry), body) ∧
        effectsOf id (some 2) body = [.delivered 2 [42]] := by
  obtain ⟨q, hq⟩ := Option.isSome_iff_exists.mp
    (show ((demoRun handOffRun).objects 2).queue?.isSome = true by decide)
  have hobj := Object.queue?_eq_some.mp hq
  obtain ⟨hfifo, _, _, _, _, _, hreceived⟩ := queue_fifo handOffRun_buffers hobj
  exact ⟨⟨q, hobj, hfifo⟩, hreceived _ [] (some 2) (.queueReceive (some 2) (some 7) 9) 7 .ok
    [42] rfl (by decide)⟩

end Demo

end Stm32f411.QueueFifo
