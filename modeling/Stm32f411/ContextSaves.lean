import Stm32f411.ContextSwitch
import Stm32f411.TaskRegistry

/-!
What PendSV saves and restores, and what the TCB and the stack of a task that does not run
hold.
-/

namespace Stm32f411.ContextSaves

open Stm32f411.RtosTypes
open Stm32f411.RtosKernel
open Stm32f411.WordBlocks
open Stm32f411.TaskStacks
open Stm32f411.TaskRegistry
open Stm32f411.ContextSwitch

variable {τ ι : Type}

section Saves

variable {ram : Ram} {r0 a : Word} {n i : Nat} {registers : Nat → Word} {cpu : Cpu}

theorem storeBelow_pointer (h : 4 * n ≤ r0.toNat) :
    (storeBelow ram r0 n registers).2.toNat = r0.toNat - 4 * n := by
  have hr0 := r0.isLt
  have hbytes : (BitVec.ofNat 32 (4 * n)).toNat = 4 * n := Nat.mod_eq_of_lt (by omega)
  have hle : BitVec.ofNat 32 (4 * n) ≤ r0 := BitVec.le_def.mpr (by rw [hbytes]; exact h)
  rw [storeBelow, BitVec.toNat_sub_of_le hle, hbytes]

theorem storeBelow_outside (h : 4 * n ≤ r0.toNat) (ha : Outside (r0.toNat - 4 * n) r0.toNat a) :
    (storeBelow ram r0 n registers).1 a = ram a := by
  have hr0 := r0.isLt
  have hpointer : (storeBelow ram r0 n registers).2.toNat = r0.toNat - 4 * n :=
    storeBelow_pointer h
  rw [storeBelow] at hpointer ⊢
  dsimp only at hpointer ⊢
  refine storeBlock_outside (by rw [hpointer]; omega) ?_
  rw [hpointer]
  exact ha.mono (Nat.le_refl _) (by omega)

theorem storeBelow_slot (h : 4 * n ≤ r0.toNat) (hi : i < n) :
    (storeBelow ram r0 n registers).1 (slot (storeBelow ram r0 n registers).2 i) =
      registers i := by
  have hr0 := r0.isLt
  have hpointer : (storeBelow ram r0 n registers).2.toNat = r0.toNat - 4 * n :=
    storeBelow_pointer h
  rw [storeBelow] at hpointer ⊢
  dsimp only at hpointer ⊢
  exact storeBlock_slot (by rw [hpointer]; omega) hi

theorem saveContext_basic (hfpu : ¬cpu.lr &&& 0x10 = 0) : saveContext cpu ram =
    storeBelow ram cpu.psp 8 fun i => cpu.r4To11 (Fin.ofNat 8 i) := by
  rw [saveContext, if_neg hfpu]

theorem saveContext_fpu (hfpu : cpu.lr &&& 0x10 = 0) : saveContext cpu ram =
    storeBelow (storeBelow ram cpu.psp 16 fun i => cpu.s16To31 (Fin.ofNat 16 i)).1
      (storeBelow ram cpu.psp 16 fun i => cpu.s16To31 (Fin.ofNat 16 i)).2 8
      fun i => cpu.r4To11 (Fin.ofNat 8 i) := by
  rw [saveContext, if_pos hfpu]

theorem fpu_pointer (h : 96 ≤ cpu.psp.toNat) :
    (storeBelow ram cpu.psp 16 registers).2.toNat = cpu.psp.toNat - 64 :=
  storeBelow_pointer (by omega)

theorem saveContext_pointer (h : saveSize cpu ≤ cpu.psp.toNat) :
    (saveContext cpu ram).2.toNat = cpu.psp.toNat - saveSize cpu := by
  unfold saveSize at h ⊢
  split at h
  · next hfpu =>
      rw [saveContext_fpu hfpu, if_pos hfpu, storeBelow_pointer, fpu_pointer h]
      · omega
      · rw [fpu_pointer h]
        omega
  · next hfpu =>
      rw [saveContext_basic hfpu, if_neg hfpu]
      exact storeBelow_pointer (by omega)

/-- Only the room for the save is written. -/
theorem saveContext_outside (h : saveSize cpu ≤ cpu.psp.toNat)
    (ha : Outside (cpu.psp.toNat - saveSize cpu) cpu.psp.toNat a) :
    (saveContext cpu ram).1 a = ram a := by
  unfold saveSize at h ha
  split at h
  · next hfpu =>
      rw [if_pos hfpu] at ha
      rw [saveContext_fpu hfpu, storeBelow_outside, storeBelow_outside (by omega)]
      · exact ha.mono (by omega) (Nat.le_refl _)
      · rw [fpu_pointer h]
        omega
      · rw [fpu_pointer h]
        exact ha.mono (by omega) (by omega)
  · next hfpu =>
      rw [if_neg hfpu] at ha
      rw [saveContext_basic hfpu]
      exact storeBelow_outside (by omega) ha

theorem fin_of_lt (n : Nat) [NeZero n] (i : Fin n) : Fin.ofNat n i = i :=
  Fin.ext (Nat.mod_eq_of_lt i.isLt)

theorem saveContext_r4To11 (h : saveSize cpu ≤ cpu.psp.toNat) (i : Fin 8) :
    (saveContext cpu ram).1 (slot (saveContext cpu ram).2 i) = cpu.r4To11 i := by
  unfold saveSize at h
  split at h
  · next hfpu =>
      rw [saveContext_fpu hfpu, storeBelow_slot _ i.isLt, fin_of_lt]
      rw [fpu_pointer h]
      omega
  · next hfpu =>
      rw [saveContext_basic hfpu, storeBelow_slot (by omega) i.isLt, fin_of_lt]

theorem saveContext_s16To31 (h : saveSize cpu ≤ cpu.psp.toNat) (hfpu : cpu.lr &&& 0x10 = 0)
    (i : Fin 16) :
    (saveContext cpu ram).1 (slot (slot (saveContext cpu ram).2 8) i) = cpu.s16To31 i := by
  have hpointer : (saveContext cpu ram).2.toNat = cpu.psp.toNat - saveSize cpu :=
    saveContext_pointer h
  have hpsp := cpu.psp.isLt
  rw [saveSize, if_pos hfpu] at h hpointer
  have hblock : (storeBelow ram cpu.psp 16 fun i => cpu.s16To31 (Fin.ofNat 16 i)).2.toNat =
      cpu.psp.toNat - 64 := fpu_pointer h
  have hr0 : slot (saveContext cpu ram).2 8 =
      (storeBelow ram cpu.psp 16 fun i => cpu.s16To31 (Fin.ofNat 16 i)).2 := by
    apply BitVec.eq_of_toNat_eq
    rw [toNat_slot (by rw [hpointer]; omega), hpointer, hblock]
    omega
  rw [hr0, saveContext_fpu hfpu, storeBelow_outside, storeBelow_slot (by omega) i.isLt, fin_of_lt]
  · rw [hblock]
    omega
  · rw [hblock]
    right
    rw [toNat_slot (by rw [hblock]; omega), hblock]
    omega

end Saves

section Dormancy

variable {B : Board τ} {ram ram' : Ram} {task : τ} {t t' : RtosTask ι} {last : Option Cpu}

/-- What the TCB and the stack of a task that does not run hold: the registers of its last
interruption, or the frame it was created with. -/
inductive Dormant (B : Board τ) (ram : Ram) (task : τ) (t : RtosTask ι) : Option Cpu → Prop
  | fresh : t.stackPointer = (rtosStackInitialize t).stackPointer →
      t.excReturn = rtosExcReturnThreadPsp →
      (∀ i < 16, (initialFrame B task).reverse[i]? = some (ram (slot t.stackPointer i))) →
      Dormant B ram task t none
  | interrupted {saved : Cpu} : RoomToSave t saved → t.excReturn = saved.lr →
      t.stackPointer.toNat = saved.psp.toNat - saveSize saved →
      (∀ i : Fin 8, ram (slot t.stackPointer i) = saved.r4To11 i) →
      (saved.lr &&& 0x10 = 0 →
        ∀ i : Fin 16, ram (slot (slot t.stackPointer 8) i) = saved.s16To31 i) →
      Dormant B ram task t (some saved)

/-- A task that is dispatched for the first time finds its initial frame. -/
structure FindsFrame (B : Board τ) (ram : Ram) (task : τ) (t : RtosTask ι) (found : Cpu) :
    Prop where
  r4To11 : ∀ i, found.r4To11 i = 0
  lr : found.lr = rtosExcReturnThreadPsp
  ends : found.psp.toNat + 32 = stackEnd t
  r0 : ram found.psp = B.tcbAddress task
  pc : ram (slot found.psp 6) = B.trampoline
  thumb : ram (slot found.psp 7) = 0x01000000

/-- A task that is resumed finds the registers of its last interruption. -/
structure FindsContext (saved found : Cpu) : Prop where
  r4To11 : found.r4To11 = saved.r4To11
  psp : found.psp = saved.psp
  lr : found.lr = saved.lr
  s16To31 : saved.lr &&& 0x10 = 0 → found.s16To31 = saved.s16To31

def Finds (B : Board τ) (ram : Ram) (task : τ) (t : RtosTask ι) (found : Cpu) :
    Option Cpu → Prop
  | none => FindsFrame B ram task t found
  | some saved => FindsContext saved found

/-- The fields of a TCB that a context switch depends on. -/
structure SameContext (t t' : RtosTask ι) : Prop where
  stackPointer : t'.stackPointer = t.stackPointer
  excReturn : t'.excReturn = t.excReturn
  stackBase : t'.stackBase = t.stackBase
  stackWords : t'.stackWords = t.stackWords

theorem SameContext.refl (t : RtosTask ι) : SameContext t t :=
  ⟨rfl, rfl, rfl, rfl⟩

theorem SameContext.trans {u v : RtosTask ι} (h : SameContext t u) (h' : SameContext u v) :
    SameContext t v :=
  ⟨h'.stackPointer.trans h.stackPointer, h'.excReturn.trans h.excReturn,
    h'.stackBase.trans h.stackBase, h'.stackWords.trans h.stackWords⟩

/-- The two TCBs name the same stack. -/
structure SameStack (t t' : RtosTask ι) : Prop where
  stackBase : t'.stackBase = t.stackBase
  stackWords : t'.stackWords = t.stackWords

theorem SameContext.sameStack (h : SameContext t t') : SameStack t t' :=
  ⟨h.stackBase, h.stackWords⟩

theorem SameStack.stackEnd (h : SameStack t t') : stackEnd t' = stackEnd t := by
  rw [TaskStacks.stackEnd, h.stackBase, h.stackWords, TaskStacks.stackEnd]

theorem SameStack.shape (h : SameStack t t') (hshape : StackShape t) : StackShape t' := by
  refine ⟨?_, ?_, ?_, ?_, ?_⟩
  · rw [h.stackBase]
    exact hshape.base_ne
  · rw [h.stackBase]
    exact hshape.aligned
  · rw [h.stackWords]
    exact hshape.words
  · rw [h.stackWords]
    exact hshape.even
  · rw [h.stackEnd]
    exact hshape.fits

theorem SameStack.addresses (h : SameStack t t') :
    stackAddresses t' = stackAddresses t := by
  rw [stackAddresses, h.stackBase, h.stackEnd, stackAddresses]

theorem room_le (h : RoomToSave t saved) : saveSize saved ≤ saved.psp.toNat :=
  Nat.le_trans (Nat.le_add_left ..) h.low

theorem saveSize_le (saved : Cpu) : 32 ≤ saveSize saved ∧
    (saved.lr &&& 0x10 = 0 → saveSize saved = 96) := by
  unfold saveSize
  split
  · next hfpu => exact ⟨by decide, fun _ => rfl⟩
  · next hfpu => exact ⟨Nat.le_refl _, fun h => absurd h hfpu⟩

/-- A dormant task depends on its own stack only. -/
theorem Dormant.congr (h : Dormant B ram task t last) (hshape : StackShape t)
    (hsame : SameContext t t')
    (hram : ∀ a, ¬Outside t.stackBase.toNat (stackEnd t) a → ram' a = ram a) :
    Dormant B ram' task t' last := by
  have hfits := hshape.fits
  have hslot : ∀ i, t.stackBase.toNat ≤ t.stackPointer.toNat →
      t.stackPointer.toNat + 4 * i < stackEnd t →
        ram' (slot t.stackPointer i) = ram (slot t.stackPointer i) := by
    intro i hlow hhigh
    apply hram
    have haddress : (slot t.stackPointer i).toNat = t.stackPointer.toNat + 4 * i :=
      toNat_slot (by omega)
    rw [Outside, haddress]
    omega
  cases h with
  | fresh hpointer hexc hframe =>
      have hroom := hshape.room
      have hsp := hshape.pointer
      rw [← hpointer] at hsp
      refine .fresh ?_ ?_ fun i hi => ?_
      · rw [hsame.stackPointer, hpointer, rtosStackInitialize, rtosStackInitialize,
          hsame.stackBase, hsame.stackWords]
      · rw [hsame.excReturn, hexc]
      · have hend : stackEnd t = t.stackBase.toNat + 4 * t.stackWords.toNat := rfl
        rw [hsame.stackPointer, hframe i hi, hslot i (by omega) (by omega)]
  | @interrupted saved hroom hexc hpointer hr4 hs16 =>
      have hlow := hroom.low
      have hhigh := hroom.high
      obtain ⟨hbasic, hfpu⟩ := saveSize_le saved
      refine .interrupted ⟨hroom.aligned, ?_, ?_⟩ ?_ ?_ (fun i => ?_) fun h16 i => ?_
      · rw [hsame.stackBase]
        exact hlow
      · rw [hsame.sameStack.stackEnd]
        exact hhigh
      · rw [hsame.excReturn, hexc]
      · rw [hsame.stackPointer, hpointer]
      · rw [hsame.stackPointer, hslot i (by omega) (by omega), hr4]
      · have hsize := hfpu h16
        have hloaded := hs16 h16 i
        rw [slot_slot] at hloaded
        rw [hsame.stackPointer, slot_slot, hslot (8 + i) (by omega) (by omega), hloaded]

theorem initialFrame_reverse (B : Board τ) (task : τ) : (initialFrame B task).reverse =
    List.replicate 8 0 ++ [B.tcbAddress task, 0, 0, 0, 0, 0, B.trampoline, 0x01000000] := rfl

theorem findsFrame_of_fresh {found : Cpu} (hshape : StackShape t)
    (hpointer : t.stackPointer = (rtosStackInitialize t).stackPointer)
    (hexc : t.excReturn = rtosExcReturnThreadPsp)
    (hframe : ∀ i < 16, (initialFrame B task).reverse[i]? = some (ram (slot t.stackPointer i)))
    (hr4 : found.r4To11 = fun i : Fin 8 => ram (slot t.stackPointer i))
    (hpsp : found.psp = slot t.stackPointer 8) (hlr : found.lr = t.excReturn) :
    FindsFrame B ram task t found := by
  have hfits := hshape.fits
  have hroom := hshape.room
  have hend : stackEnd t = t.stackBase.toNat + 4 * t.stackWords.toNat := rfl
  have hsp := hshape.pointer
  rw [← hpointer] at hsp
  rw [initialFrame_reverse] at hframe
  refine ⟨fun i => ?_, hlr.trans hexc, ?_, ?_, ?_, ?_⟩
  · have hzero := hframe i (Nat.lt_trans i.isLt (by decide))
    rw [List.getElem?_append_left (by simp), List.getElem?_replicate_of_lt i.isLt] at hzero
    rw [hr4]
    exact (Option.some.inj hzero).symm
  · rw [hpsp, toNat_slot (by omega)]
    omega
  · rw [hpsp]
    exact (Option.some.inj (hframe 8 (by decide))).symm
  · rw [hpsp, slot_slot]
    exact (Option.some.inj (hframe 14 (by decide))).symm
  · rw [hpsp, slot_slot]
    exact (Option.some.inj (hframe 15 (by decide))).symm

/-- What the restore path of PendSV gives a dormant task. -/
theorem Dormant.restored (h : Dormant B ram task t last) (hshape : StackShape t) (cpu : Cpu) :
    Finds B ram task t (restoreContext ram t cpu) last := by
  have hfits := hshape.fits
  cases h with
  | fresh hpointer hexc hframe =>
      have hbasic : ¬t.excReturn &&& 0x10 = 0 := by
        rw [hexc]
        decide
      rw [restoreContext, if_neg hbasic]
      exact findsFrame_of_fresh hshape hpointer hexc hframe rfl rfl rfl
  | @interrupted saved hroom hexc hpointer hr4 hs16 =>
      have hlow := hroom.low
      have hhigh := hroom.high
      unfold restoreContext
      by_cases hfpu : saved.lr &&& 0x10 = 0
      · have hsize := (saveSize_le saved).2 hfpu
        rw [if_pos (by rw [hexc]; exact hfpu)]
        refine ⟨funext hr4, ?_, hexc, fun _ => funext (hs16 hfpu)⟩
        apply BitVec.eq_of_toNat_eq
        dsimp only
        rw [slot_slot, toNat_slot (by omega)]
        omega
      · have hsize : saveSize saved = 32 := if_neg hfpu
        rw [if_neg (by rw [hexc]; exact hfpu)]
        refine ⟨funext hr4, ?_, hexc, fun h16 => absurd h16 hfpu⟩
        apply BitVec.eq_of_toNat_eq
        dsimp only
        rw [toNat_slot (by omega)]
        omega

/-- What SVC gives a task that never ran. -/
theorem Dormant.firstFound (h : Dormant B ram task t none) (hshape : StackShape t) (cpu : Cpu) :
    Finds B ram task t (svcHandler ram t cpu) none := by
  cases h with
  | fresh hpointer hexc hframe =>
      exact findsFrame_of_fresh hshape hpointer hexc hframe rfl rfl rfl

/-- The task that PendSV has just saved. -/
theorem dormant_saved {saved : Cpu} (hroom : RoomToSave t saved)
    (hpointer : t'.stackPointer = (saveContext saved ram).2) (hexc : t'.excReturn = saved.lr)
    (hstack : SameStack t t') : Dormant B (saveContext saved ram).1 task t' (some saved) := by
  have hle := room_le hroom
  refine .interrupted ⟨hroom.aligned, ?_, ?_⟩ hexc ?_ (fun i => ?_) fun hfpu i => ?_
  · rw [hstack.stackBase]
    exact hroom.low
  · rw [hstack.stackEnd]
    exact hroom.high
  · rw [hpointer, saveContext_pointer hle]
  · rw [hpointer, saveContext_r4To11 hle]
  · rw [hpointer, saveContext_s16To31 hle hfpu]

end Dormancy

end Stm32f411.ContextSaves
