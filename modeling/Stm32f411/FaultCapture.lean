import Mathlib.Data.Fin.VecNotation
import Mathlib.Tactic.FinCases
import Stm32f411.TaskStacks

/-!
`HardFault_Handler` of `rtos_port.s` and `rtos_hardfault_capture` of `rtos_kernel.c`: which
words of the stack the fault record shows.
-/

namespace Stm32f411.FaultCapture

open Stm32f411.RtosTypes
open Stm32f411.WordBlocks
open Stm32f411.TaskStacks

variable {τ : Type}

section Handler

/-- `RTOS_FaultRecord_t`. -/
structure FaultRecord (τ : Type) where
  signature : Word
  reason : FaultReason
  task : Option τ
  psp : Word
  msp : Word
  excReturn : Word
  stackedR0 : Word
  stackedR1 : Word
  stackedR2 : Word
  stackedR3 : Word
  stackedR12 : Word
  stackedLr : Word
  stackedPc : Word
  stackedXpsr : Word
  hfsr : Word
  cfsr : Word
  mmfar : Word
  bfar : Word

def rtosFaultSignature : Word := 0x52544F53

/-- What the handler finds. In LR stands EXC_RETURN. -/
structure FaultState (τ : Type) where
  ram : Ram
  msp : Word
  psp : Word
  lr : Word
  hfsr : Word
  cfsr : Word
  mmfar : Word
  bfar : Word
  currentTask : Option τ
  record : FaultRecord τ

/-- The record when `rtos_fault_hook` is called; the function never returns. -/
def rtosHardfaultCapture (s : FaultState τ) (frame excReturn : Word) : FaultRecord τ :=
  let record := { s.record with
    signature := rtosFaultSignature
    reason := .hardfault
    task := s.currentTask
    psp := s.psp
    msp := s.msp
    excReturn := excReturn }
  let record :=
    if frame ≠ 0 then
      { record with
        stackedR0 := s.ram (slot frame 0)
        stackedR1 := s.ram (slot frame 1)
        stackedR2 := s.ram (slot frame 2)
        stackedR3 := s.ram (slot frame 3)
        stackedR12 := s.ram (slot frame 4)
        stackedLr := s.ram (slot frame 5)
        stackedPc := s.ram (slot frame 6)
        stackedXpsr := s.ram (slot frame 7) }
    else record
  { record with
    hfsr := s.hfsr
    cfsr := s.cfsr
    mmfar := s.mmfar
    bfar := s.bfar }

/-- The stack pointer that EXC_RETURN selects. -/
def activeSp (s : FaultState τ) : Word :=
  if s.lr &&& 4 = 0 then s.msp else s.psp

/-- The pointer that `HardFault_Handler` passes on. -/
def framePointer (s : FaultState τ) : Word :=
  let r0 := activeSp s
  if s.lr &&& 0x10 = 0 then r0 + 72 else r0

def hardFaultHandler (s : FaultState τ) : FaultRecord τ :=
  rtosHardfaultCapture s (framePointer s) s.lr

end Handler

section Frames

/-- What exception entry pushes. The extended frame has all of it, the basic one only the
registers R0, R1, R2, R3, R12, LR, PC and xPSR. -/
structure Frame where
  core : Fin 8 → Word
  s0To15 : Fin 16 → Word
  fpscr : Word
  reserved : Word

def Extended (s : FaultState τ) : Prop := s.lr &&& 0x10 = 0

/-- The frame lies at the active stack pointer. -/
structure StackedAt (f : Frame) (s : FaultState τ) : Prop where
  core : ∀ i : Fin 8, s.ram (slot (activeSp s) i) = f.core i
  fpu : Extended s → ∀ i : Fin 16, s.ram (slot (activeSp s) (8 + i)) = f.s0To15 i
  fpscr : Extended s → s.ram (slot (activeSp s) 24) = f.fpscr
  reserved : Extended s → s.ram (slot (activeSp s) 25) = f.reserved

/-- The stacked registers that a record shows, in the order of the frame. -/
def FaultRecord.stacked (record : FaultRecord τ) : Fin 8 → Word :=
  ![record.stackedR0, record.stackedR1, record.stackedR2, record.stackedR3, record.stackedR12,
    record.stackedLr, record.stackedPc, record.stackedXpsr]

structure ShowsFrame (f : Frame) (excReturn : Word) (record : FaultRecord τ) : Prop where
  stacked : record.stacked = f.core
  excReturn : record.excReturn = excReturn

/-- The words 72 bytes above the frame: S10 to S15, FPSCR and the reserved word. -/
def Frame.above (f : Frame) : Fin 8 → Word :=
  Fin.append (fun i : Fin 6 => f.s0To15 (Fin.natAdd 10 i)) ![f.fpscr, f.reserved]

/-- The frame is a basic one, or else the words above it are by chance the same; a NULL
pointer leaves the record as it was. -/
def FrameFound (f : Frame) (s : FaultState τ) : Prop :=
  if framePointer s = 0 then s.record.stacked = f.core
  else Extended s → f.above = f.core

end Frames

section Capture

variable {f : Frame} {s : FaultState τ}

theorem framePointer_extended (h : Extended s) : framePointer s = slot (activeSp s) 18 :=
  if_pos h

theorem framePointer_basic (h : ¬Extended s) : framePointer s = activeSp s :=
  if_neg h

/-- The handler reads eight words from the pointer it is given. -/
theorem stacked_hardFaultHandler (s : FaultState τ) : (hardFaultHandler s).stacked =
    if framePointer s = 0 then s.record.stacked
    else fun i => s.ram (slot (framePointer s) i) := by
  by_cases h : framePointer s = 0
  · simp only [hardFaultHandler, rtosHardfaultCapture, h, ne_eq, not_true_eq_false, if_false,
      if_true]
    rfl
  · simp only [hardFaultHandler, rtosHardfaultCapture, h, ne_eq, not_false_eq_true, if_false,
      if_true]
    funext i
    fin_cases i <;> rfl

theorem words_extended (h : StackedAt f s) (hext : Extended s) (i : Fin 8) :
    s.ram (slot (framePointer s) i) = f.above i := by
  rw [framePointer_extended hext, slot_slot]
  fin_cases i
  · exact h.fpu hext 10
  · exact h.fpu hext 11
  · exact h.fpu hext 12
  · exact h.fpu hext 13
  · exact h.fpu hext 14
  · exact h.fpu hext 15
  · exact h.fpscr hext
  · exact h.reserved hext

theorem words_basic (h : StackedAt f s) (hbasic : ¬Extended s) (i : Fin 8) :
    s.ram (slot (framePointer s) i) = f.core i := by
  rw [framePointer_basic hbasic]
  exact h.core i

/-- The record shows the stacked registers exactly when the handler finds the frame. -/
theorem record_shows_frame_iff (f : Frame) (s : FaultState τ) (h : StackedAt f s) :
    ShowsFrame f s.lr (hardFaultHandler s) ↔ FrameFound f s := by
  have hshows : ShowsFrame f s.lr (hardFaultHandler s) ↔
      (hardFaultHandler s).stacked = f.core := by
    refine ⟨fun h => h.stacked, fun h => ⟨h, ?_⟩⟩
    unfold hardFaultHandler rtosHardfaultCapture
    split <;> rfl
  rw [hshows, stacked_hardFaultHandler, FrameFound]
  split
  · exact Iff.rfl
  · constructor
    · intro hwords hext
      rw [← hwords]
      funext i
      exact (words_extended h hext i).symm
    · intro hfound
      funext i
      by_cases hext : Extended s
      · rw [words_extended h hext i, hfound hext]
      · exact words_basic h hext i

/-- A memory whose words are their own addresses. -/
def demoFault (lr : Word) : FaultState Nat where
  ram a := a
  msp := 0x20001000
  psp := 0x20002000
  lr := lr
  hfsr := 0
  cfsr := 0
  mmfar := 0
  bfar := 0
  currentTask := none
  record := ⟨0, .none, none, 0, 0, 0, 0, 0, 0, 0, 0, 0, 0, 0, 0, 0, 0, 0⟩

/-- The frame at `0x20002000` in that memory. -/
def demoFrame : Frame where
  core i := slot 0x20002000 i
  s0To15 i := slot 0x20002000 (8 + i)
  fpscr := slot 0x20002000 24
  reserved := slot 0x20002000 25

theorem demoFrame_stacked {lr : Word} (h : lr &&& 4 ≠ 0) : StackedAt demoFrame (demoFault lr) := by
  have hsp : activeSp (demoFault lr) = 0x20002000 := if_neg h
  refine ⟨fun i => ?_, fun _ i => ?_, fun _ => ?_, fun _ => ?_⟩
  all_goals rw [hsp]; rfl

/-- A basic frame on the process stack. -/
theorem record_shows_frame_iff_demo :
    ShowsFrame demoFrame 0xFFFFFFFD (hardFaultHandler (demoFault 0xFFFFFFFD)) :=
  (record_shows_frame_iff demoFrame (demoFault 0xFFFFFFFD) (demoFrame_stacked (by decide))).mpr
    (by
      rw [FrameFound, if_neg (by decide)]
      exact fun hext => absurd hext (by unfold Extended; decide))

/-- With an extended frame the record shows S10 as R0 and FPSCR as PC. -/
theorem fpu_registers_shown :
    StackedAt demoFrame (demoFault 0xFFFFFFED) ∧
      (hardFaultHandler (demoFault 0xFFFFFFED)).stackedR0 = demoFrame.s0To15 10 ∧
      (hardFaultHandler (demoFault 0xFFFFFFED)).stackedPc = demoFrame.fpscr ∧
      ¬ShowsFrame demoFrame 0xFFFFFFED (hardFaultHandler (demoFault 0xFFFFFFED)) := by
  refine ⟨demoFrame_stacked (by decide), by decide, by decide, fun h => ?_⟩
  have hr0 := congrFun h.stacked 0
  revert hr0
  decide

end Capture

end Stm32f411.FaultCapture
