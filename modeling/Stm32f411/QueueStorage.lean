import Stm32f411.RingBuffer
import Stm32f411.RtosStepSpec

/-!
The byte storage of a queue as a ring of items. The 32-bit slot arithmetic of
`rtos_queue_push` and `rtos_queue_pop` is exact for every queue that
`rtos_queue_init` accepts.
-/

namespace Stm32f411.QueueStorage

open Stm32f411.RtosTypes
open Stm32f411.RtosKernel
open Stm32f411.RtosIpc
open Stm32f411.RtosSystem
open Stm32f411.RtosKernelSpec
open Stm32f411.RtosBootSpec
open Stm32f411.RtosCallSpec
open Stm32f411.RtosStepSpec
open Stm32f411.RingBuffer

theorem copyBytes_apply (destination bytes : Nat → Byte) (target source length i : Nat) :
    rtosCopyBytes destination target bytes source length i =
      if target ≤ i ∧ i < target + length then bytes (source + (i - target))
      else destination i := by
  induction length with
  | zero =>
      rw [if_neg (by omega), rtosCopyBytes]
  | succ length ih =>
      rcases eq_or_ne i (target + length) with rfl | hi
      · simp [rtosCopyBytes]
      · simp only [rtosCopyBytes, Function.update_of_ne hi, ih]
        have hiff : (target ≤ i ∧ i < target + length) ↔
            (target ≤ i ∧ i < target + (length + 1)) := by omega
        simp only [hiff]

structure QueueOk (q : Queue) : Prop where
  capacity_ne : q.capacity ≠ 0
  itemSize_ne : q.itemSize ≠ 0
  fits : q.capacity.toNat * q.itemSize.toNat < 2 ^ 32
  head_lt : q.head < q.capacity
  count_le : q.count ≤ q.capacity
  tail_eq : q.tail.toNat = (q.head.toNat + q.count.toNat) % q.capacity.toNat

/-- The item that lies in one slot of the storage. -/
def slotItem (q : Queue) (slot : Nat) : List Byte :=
  (List.range q.itemSize.toNat).map fun i => q.storage (slot * q.itemSize.toNat + i)

/-- The items in the queue, read from the head. -/
def queueItems (q : Queue) : List (List Byte) :=
  (List.range q.count.toNat).map fun i =>
    slotItem q ((q.head.toNat + i) % q.capacity.toNat)

namespace QueueOk

variable {q : Queue}

theorem capacity_pos (h : QueueOk q) : 0 < q.capacity.toNat :=
  Nat.pos_of_ne_zero (toNat_ne_zero h.capacity_ne)

theorem tail_lt (h : QueueOk q) : q.tail < q.capacity := by
  rw [BitVec.lt_def, h.tail_eq]
  exact Nat.mod_lt _ h.capacity_pos

def ring (h : QueueOk q) : SlotRing (List Byte) where
  capacity := q.capacity.toNat
  slots := slotItem q
  head := q.head.toNat
  count := q.count.toNat
  head_lt := h.head_lt
  count_le := h.count_le

theorem contents_ring (h : QueueOk q) : h.ring.contents = queueItems q := rfl

theorem ring_space (h : QueueOk q) (hspace : q.count < q.capacity) :
    h.ring.count < h.ring.capacity := hspace

theorem tail_ring (h : QueueOk q) : h.ring.tail = q.tail.toNat := h.tail_eq.symm

/-- A slot inside the ring starts where the exact product says and ends inside the
storage. -/
theorem offset (h : QueueOk q) {slot : Word} (hslot : slot < q.capacity) :
    (slot * q.itemSize).toNat = slot.toNat * q.itemSize.toNat ∧
      slot.toNat * q.itemSize.toNat + q.itemSize.toNat ≤
        q.capacity.toNat * q.itemSize.toNat := by
  have hle : (slot.toNat + 1) * q.itemSize.toNat ≤ q.capacity.toNat * q.itemSize.toNat :=
    Nat.mul_le_mul_right _ hslot
  rw [Nat.add_mul, Nat.one_mul] at hle
  refine ⟨?_, hle⟩
  rw [BitVec.toNat_mul]
  exact Nat.mod_eq_of_lt (by have := h.fits; omega)

theorem succ_toNat {slot : Word} (hslot : slot < q.capacity) :
    ((slot + 1) % q.capacity).toNat = (slot.toNat + 1) % q.capacity.toNat := by
  rw [BitVec.toNat_umod, toNat_succ hslot]

theorem push (h : QueueOk q) (hspace : q.count < q.capacity) (item : Nat → Byte) :
    QueueOk (rtosQueuePush q item) where
  capacity_ne := h.capacity_ne
  itemSize_ne := h.itemSize_ne
  fits := h.fits
  head_lt := h.head_lt
  count_le := by
    show (q.count + 1).toNat ≤ q.capacity.toNat
    rw [toNat_succ hspace]
    exact hspace
  tail_eq := by
    show ((q.tail + 1) % q.capacity).toNat =
      (q.head.toNat + (q.count + 1).toNat) % q.capacity.toNat
    rw [succ_toNat h.tail_lt, toNat_succ hspace, h.tail_eq, Nat.mod_add_mod]
    congr 1

theorem pop (h : QueueOk q) (hcount : q.count ≠ 0) (item : Nat → Byte) :
    QueueOk (rtosQueuePop q item).1 where
  capacity_ne := h.capacity_ne
  itemSize_ne := h.itemSize_ne
  fits := h.fits
  head_lt := by
    show ((q.head + 1) % q.capacity).toNat < q.capacity.toNat
    rw [succ_toNat h.head_lt]
    exact Nat.mod_lt _ h.capacity_pos
  count_le := by
    show (q.count - 1).toNat ≤ q.capacity.toNat
    rw [toNat_pred hcount]
    exact (Nat.sub_le _ _).trans h.count_le
  tail_eq := by
    show q.tail.toNat = (((q.head + 1) % q.capacity).toNat + (q.count - 1).toNat) %
      q.capacity.toNat
    have hne : h.ring.count ≠ 0 := toNat_ne_zero hcount
    rw [succ_toNat h.head_lt, toNat_pred hcount]
    exact h.tail_ring.symm.trans (h.ring.tail_pop hne).symm

theorem pop_space (h : QueueOk q) (hcount : q.count ≠ 0) (item : Nat → Byte) :
    (rtosQueuePop q item).1.count < (rtosQueuePop q item).1.capacity := by
  have hle : q.count ≤ q.capacity := h.count_le
  show q.count - 1 < q.capacity
  bv_omega

/-- A push writes the item into the slot at the tail and leaves every other slot alone. -/
theorem slotItem_push (h : QueueOk q) (item : Nat → Byte) (slot : Nat) :
    slotItem (rtosQueuePush q item) slot =
      if slot = q.tail.toNat then Kernel.itemBytes item q else slotItem q slot := by
  have hoffset := (h.offset h.tail_lt).1
  have hbyte : ∀ i < q.itemSize.toNat,
      rtosCopyBytes q.storage (q.tail * q.itemSize).toNat item 0 q.itemSize.toNat
          (slot * q.itemSize.toNat + i) =
        if slot = q.tail.toNat then item i else q.storage (slot * q.itemSize.toNat + i) := by
    intro i hi
    rw [copyBytes_apply, hoffset]
    rcases eq_or_ne slot q.tail.toNat with rfl | hslot
    · simp [hi]
    · have hout : ¬(q.tail.toNat * q.itemSize.toNat ≤ slot * q.itemSize.toNat + i ∧
          slot * q.itemSize.toNat + i <
            q.tail.toNat * q.itemSize.toNat + q.itemSize.toNat) := by
        rcases Nat.lt_or_gt_of_ne hslot with hlt | hgt
        · have hle := Nat.mul_le_mul_right q.itemSize.toNat (Nat.succ_le_of_lt hlt)
          rw [Nat.succ_mul] at hle
          omega
        · have hle := Nat.mul_le_mul_right q.itemSize.toNat (Nat.succ_le_of_lt hgt)
          rw [Nat.succ_mul] at hle
          omega
      simp [hslot, hout]
  by_cases hslot : slot = q.tail.toNat
  · rw [if_pos hslot]
    apply List.map_congr_left
    intro i hi
    exact (hbyte i (List.mem_range.mp hi)).trans (if_pos hslot)
  · rw [if_neg hslot]
    apply List.map_congr_left
    intro i hi
    exact (hbyte i (List.mem_range.mp hi)).trans (if_neg hslot)

/-- What a pop leaves in the caller's buffer is the item at the head. -/
theorem itemBytes_pop (h : QueueOk q) (item : Nat → Byte) :
    Kernel.itemBytes (rtosQueuePop q item).2 q = slotItem q q.head.toNat := by
  apply List.map_congr_left
  intro i hi
  have hlt := List.mem_range.mp hi
  simp [rtosQueuePop, copyBytes_apply, (h.offset h.head_lt).1, hlt]

theorem ring_push (h : QueueOk q) (hspace : q.count < q.capacity) (item : Nat → Byte) :
    (h.push hspace item).ring = h.ring.push (Kernel.itemBytes item q) (h.ring_space hspace) := by
  simp only [ring, SlotRing.push, SlotRing.mk.injEq]
  refine ⟨rfl, ?_, rfl, toNat_succ hspace⟩
  funext slot
  rw [h.slotItem_push, Function.update_apply]
  exact if_congr (by rw [h.tail_eq]; rfl) rfl rfl

theorem ring_pop (h : QueueOk q) (hcount : q.count ≠ 0) (item : Nat → Byte) :
    (h.pop hcount item).ring = h.ring.pop := by
  simp only [ring, SlotRing.pop, SlotRing.mk.injEq]
  exact ⟨rfl, rfl, succ_toNat h.head_lt, toNat_pred hcount⟩

theorem queueItems_push (h : QueueOk q) (hspace : q.count < q.capacity)
    (item : Nat → Byte) :
    queueItems (rtosQueuePush q item) = queueItems q ++ [Kernel.itemBytes item q] := by
  rw [← (h.push hspace item).contents_ring, h.ring_push hspace, SlotRing.contents_push,
    contents_ring]

theorem queueItems_pop (h : QueueOk q) (hcount : q.count ≠ 0) (item : Nat → Byte) :
    queueItems q =
      Kernel.itemBytes (rtosQueuePop q item).2 q :: queueItems (rtosQueuePop q item).1 := by
  have hne : h.ring.count ≠ 0 := toNat_ne_zero hcount
  rw [← h.contents_ring, SlotRing.contents_pop _ hne, ← h.ring_pop hcount item, contents_ring,
    h.itemBytes_pop]
  rfl

end QueueOk

theorem initialised_queueOk {storage : Nat → Byte} {capacity itemSize : Word}
    (hcapacity : capacity ≠ 0) (hitemSize : itemSize ≠ 0)
    (hfits : capacity ≤ BitVec.allOnes 32 / itemSize) :
    QueueOk ⟨storage, capacity, itemSize, 0, 0, 0⟩ where
  capacity_ne := hcapacity
  itemSize_ne := hitemSize
  fits := by
    have hle : capacity.toNat ≤ (BitVec.allOnes 32 / itemSize).toNat := hfits
    rw [BitVec.toNat_udiv, BitVec.toNat_allOnes] at hle
    calc
      capacity.toNat * itemSize.toNat
          ≤ (2 ^ 32 - 1) / itemSize.toNat * itemSize.toNat := Nat.mul_le_mul_right _ hle
      _ ≤ 2 ^ 32 - 1 := Nat.div_mul_le_self _ _
      _ < 2 ^ 32 := by decide
  head_lt := by
    have hne : capacity.toNat ≠ 0 :=
      fun he => hcapacity (BitVec.eq_of_toNat_eq (by simpa using he))
    show (0 : Word).toNat < capacity.toNat
    simpa using Nat.pos_of_ne_zero hne
  count_le := by
    show (0 : Word).toNat ≤ capacity.toNat
    simp
  tail_eq := by simp

section Objects

variable {τ ι : Type}

/-- The counters of an object are inside their bounds. -/
def ObjectOk : Object τ → Prop
  | .raw => True
  | .semaphore s => s.count ≤ s.maximumCount
  | .mutex _ => True
  | .queue q => QueueOk q

def ObjectsOk (k : Kernel τ ι) : Prop :=
  ∀ p, ObjectOk (k.objects p)

variable {P : Platform τ} {k k' : Kernel τ ι}

theorem initialised_objectOk {object : Object τ} {kind : ObjectInit}
    (h : Initialised object kind) : ObjectOk object := by
  cases h with
  | semaphore _ hle => exact hle
  | mutex => trivial
  | queue hcapacity hitemSize hfits => exact initialised_queueOk hcapacity hitemSize hfits

theorem ObjectsOk.setObject [DecidableEq ι] (h : ObjectsOk k) {p : ι} {object : Object τ}
    (hobj : ObjectOk object) : ObjectsOk (k.setObject p object) := by
  intro q
  rcases eq_or_ne q p with rfl | hq
  · simpa using hobj
  · simpa [hq] using h q

theorem ObjectsOk.queue (h : ObjectsOk k) {p : ι} {q : Queue} (hobj : k.objects p = .queue q) :
    QueueOk q := by
  have hok := h p
  rw [hobj] at hok
  exact hok

theorem ObjectsOk.semaphore (h : ObjectsOk k) {p : ι} {s : Semaphore}
    (hobj : k.objects p = .semaphore s) : s.count ≤ s.maximumCount := by
  have hok := h p
  rw [hobj] at hok
  exact hok

theorem ObjectsOk.of_objects (h : ObjectsOk k) (hobjects : k'.objects = k.objects) :
    ObjectsOk k' := by
  intro p
  rw [hobjects]
  exact h p

variable [DecidableEq τ] [DecidableEq ι]

theorem ObjectsOk.callEffect (h : ObjectsOk k) {mode : Mode} {call : Call ι}
    {outcome : Outcome} (heffect : CallEffect k mode call k' outcome) : ObjectsOk k' := by
  cases heffect with
  | refused _ _ => exact h
  | ignored _ => exact h
  | yielded _ _ => exact h
  | delayed _ _ _ => exact h
  | slept _ _ _ _ _ => exact h
  | sleptOnMutex _ _ _ _ _ _ => exact h
  | took _ hobj hcount =>
      refine h.setObject (?_ : _ ≤ _)
      have hle := h.semaphore hobj
      bv_omega
  | gave _ hobj _ hlt => exact h.setObject (by bv_omega : _ ≤ _)
  | gaveTo _ _ _ => exact h.of_objects (by simp)
  | locked _ _ _ _ => exact h.setObject trivial
  | unlocked _ _ _ _ => exact h.setObject trivial
  | unlockedTo _ _ _ _ =>
      refine ObjectsOk.of_objects (k := (releaseHold k _ _).setObject _ (.mutex ⟨some _⟩)) ?_
        (by simp; rfl)
      exact ObjectsOk.setObject h trivial
  | sent _ hobj _ hspace => exact h.setObject ((h.queue hobj).push hspace _)
  | sentTo _ _ _ => exact h.of_objects (by simp [handItem])
  | received _ hobj hcount _ => exact ObjectsOk.setObject h ((h.queue hobj).pop hcount _)
  | @receivedFrom _ p q item _ _ hobj hcount _ =>
      have hq := h.queue hobj
      have hpush := (hq.pop hcount (k.memory item)).push (hq.pop_space hcount (k.memory item))
      have hpopped : ObjectsOk (popItem k (callerOf k mode) p q item) := by
        have hpop : ObjectOk (.queue (rtosQueuePop q (k.memory item)).1 : Object τ) :=
          hq.pop hcount _
        exact ObjectsOk.setObject (k := k.setBuffer item _) h hpop
      refine ObjectsOk.of_objects ?_ (maybePreempt_objects _)
      exact hpopped.setObject (hpush _)

theorem ObjectsOk.step (h : ObjectsOk k) (hstep : KernelStep P k k') : ObjectsOk k' := by
  cases hstep with
  | quiet hquiet =>
      rcases hquiet.objects with ⟨hobjects, _⟩ | ⟨p, object, kind, _, hobj, rfl⟩
      · exact h.of_objects hobjects
      · exact h.setObject (initialised_objectOk hobj)
  | marked _ => exact h
  | call _ heffect => exact h.callEffect heffect
  | ticked =>
      obtain ⟨tcb, pended, htick⟩ := sysTickHandler_frame k
      exact h.of_objects (by rw [htick])

theorem reached_objectsOk {w : World τ ι} (h : Reached P w) : ObjectsOk w.toKernel := by
  refine reached_kernel (fun w hreset p => ?_) (fun _ _ => ObjectsOk.step) h
  rw [hreset.objects]
  trivial

end Objects

end Stm32f411.QueueStorage
