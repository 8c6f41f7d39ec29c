import Stm32f411.BitMasks
import Stm32f411.RtosBootSpec
import Stm32f411.WordBlocks

/-!
The memory of the task stacks on the 32-bit target: what `rtos_stack_initialize` writes to
it, what `rtos_task_stack_valid` reads of it, and the start-up calls with their memory.
-/

namespace Stm32f411.TaskStacks

open Stm32f411.BitMasks
open Stm32f411.RtosTypes
open Stm32f411.RtosKernel
open Stm32f411.WordBlocks

/-- The word at each word-aligned address. What a TCB holds is in the kernel's state. -/
abbrev Ram := Word → Word

def rtosStackFillWord : Word := 0xA5A5A5A5
def rtosStackCanary : Word := 0xDEADBEEF

/-- `sizeof(RTOS_Task_t)` -/
def rtosTaskBytes : Nat := 60

/-- So many bytes of memory, which may go on at address 0 behind the last address. -/
structure Block where
  base : Word
  bytes : Nat

/-- The blocks share an address. -/
def Block.Meets (b c : Block) : Prop :=
  (c.base - b.base).toNat < b.bytes ∨ (b.base - c.base).toNat < c.bytes

instance (b c : Block) : Decidable (b.Meets c) :=
  inferInstanceAs (Decidable ((c.base - b.base).toNat < b.bytes ∨
    (b.base - c.base).toNat < c.bytes))

/-- The addresses that the linker chooses. The calls work with the memory in `reserved`: the
variables of the kernel, and the stack that they run on. The idle stack is an array, so there
is an address behind its last word. -/
structure Board (τ : Type) extends Platform τ where
  tcbAddress : τ → Word
  tcbAddress_ne : ∀ task, tcbAddress task ≠ 0
  reserved : List Block
  trampoline : Word
  idleStack_fits : idleStack.toNat + 4 * rtosIdleStackWords.toNat < 2 ^ 32

variable {τ ι : Type}

section Initialize

/-- What `rtos_stack_initialize` pushes: xPSR, PC, LR, R12, R3 to R0 and R11 to R4. -/
def initialFrame (B : Board τ) (task : τ) : List Word :=
  [0x01000000, B.trampoline, 0, 0, 0, 0, 0, B.tcbAddress task] ++ List.replicate 8 0

/-- The memory after `rtos_stack_initialize`, and the stack pointer it stores in the TCB. -/
def rtosStackInitializeRam (B : Board τ) (task : τ) (t : RtosTask ι) (ram : Ram) :
    Ram × Word :=
  let filled := storeBlock ram t.stackBase (fun _ => rtosStackFillWord) t.stackWords.toNat
  let marked := Function.update filled t.stackBase rtosStackCanary
  pushWords (marked, slot t.stackBase t.stackWords.toNat) (initialFrame B task)

def rtosTaskStackValid (ram : Ram) (k : Kernel τ ι) : Option τ → Bool
  | none => false
  | some task =>
      let t := k.tcb task
      if t.stackBase = 0 ∨ t.stackWords < rtosMinStackWords then false
      else
        let low := slot t.stackBase 1
        let high := slot t.stackBase t.stackWords.toNat
        let saved := t.stackPointer
        if ram t.stackBase ≠ rtosStackCanary ∨ saved < low ∨ high < saved ∨ saved &&& 7 ≠ 0 then
          false
        else true

end Initialize

section Boot

/-- The kernel's variables and the memory of the stacks. -/
structure Machine (τ ι : Type) where
  kernel : Kernel τ ι
  ram : Ram

/-- A call that succeeds has run `rtos_stack_initialize` for its task. -/
def ramAfterAdd (B : Board τ) (ram : Ram) (task : Option τ) (result : Kernel τ ι × Status) :
    Ram :=
  match task, result.2 with
  | some task, .ok => (rtosStackInitializeRam B task (result.1.tcb task) ram).1
  | _, _ => ram

theorem ramAfterAdd_ok (B : Board τ) (ram : Ram) (task : τ) (k : Kernel τ ι) :
    ramAfterAdd B ram (some task) (k, .ok) =
      (rtosStackInitializeRam B task (k.tcb task) ram).1 := rfl

theorem ramAfterAdd_failed (B : Board τ) (ram : Ram) (task : Option τ) (k : Kernel τ ι)
    {status : Status} (h : status ≠ .ok) : ramAfterAdd B ram task (k, status) = ram := by
  unfold ramAfterAdd
  split
  · next hok => exact absurd hok h
  · rfl

variable [DecidableEq τ]

inductive BootCall (τ : Type)
  | init (config : Option Config)
  | taskCreateStatic (task : Option τ) (function argument stack stackWords : Word)
      (priority : Nat)

/-- The task whose TCB and stack a call sets up. -/
def BootCall.task (B : Board τ) : BootCall τ → Option τ
  | .init _ => some B.idle
  | .taskCreateStatic task _ _ _ _ _ => task

def bootKernel (B : Board τ) (k : Kernel τ ι) : BootCall τ → Kernel τ ι × Status
  | .init config => rtosInit B.toPlatform k config
  | .taskCreateStatic task function argument stack stackWords priority =>
      rtosTaskCreateStatic B.toPlatform k task function argument stack stackWords priority

/-- One start-up call, with its result, where it does not overwrite what it works with. -/
def bootCall (B : Board τ) (m : Machine τ ι) (call : BootCall τ) : Machine τ ι × Status :=
  let result := bootKernel B m.kernel call
  (⟨result.1, ramAfterAdd B m.ram (call.task B) result⟩, result.2)

/-- The argument checks of `rtos_task_add`. -/
structure Acceptable (function stack stackWords : Word) (priority : Nat) : Prop where
  function_ne : function ≠ 0
  stack_ne : stack ≠ 0
  words : ¬stackWords < rtosMinStackWords
  aligned : stack &&& 7 = 0
  even : stackWords &&& 1 = 0
  priority_lt : priority < rtosPriorityLevels

/-- The checks of `rtos_task_create_static`, with the overlap test in 32-bit arithmetic. -/
structure Passes (P : Platform τ) (k : Kernel τ ι) (task : τ) (function stack stackWords : Word)
    (priority : Nat) : Prop where
  initialized : k.initialized = true
  stopped : k.running = false
  priority_ne : priority ≠ rtosIdlePriority
  count : k.applicationTaskCount < P.maxTasks
  arguments : Acceptable function stack stackWords priority
  room : k.tasks.length ≤ P.maxTasks
  new : ∀ existing ∈ k.tasks, existing ≠ task ∧
    stacksOverlap stack stackWords (k.tcb existing).stackBase (k.tcb existing).stackWords = false

def Board.tcbBlock (B : Board τ) (task : τ) : Block := ⟨B.tcbAddress task, rtosTaskBytes⟩

def stackBlock (stack stackWords : Word) : Block := ⟨stack, 4 * stackWords.toNat⟩

/-- The registry itself, which no call may overwrite. -/
def registryBlocks (B : Board τ) (k : Kernel τ ι) : List Block :=
  B.reserved ++ k.tasks.map B.tcbBlock

/-- The storage of a new task is memory of its own, as far as the registry goes. -/
structure Separate (B : Board τ) (k : Kernel τ ι) (task : τ) (stack stackWords : Word) :
    Prop where
  stack : ∀ block ∈ B.tcbBlock task :: registryBlocks B k,
    ¬(stackBlock stack stackWords).Meets block
  tcb : ∀ block ∈ registryBlocks B k, ¬(B.tcbBlock task).Meets block

/-- The call overwrites a TCB or what it works with. The linker keeps the idle task's storage
apart. -/
def Overwrites (B : Board τ) (k : Kernel τ ι) : BootCall τ → Prop
  | .taskCreateStatic (some task) function _ stack stackWords priority =>
      Passes B.toPlatform k task function stack stackWords priority ∧
        ¬Separate B k task stack stackWords
  | _ => False

end Boot

section Frames

/-- The first address behind the stack, which may lie beyond the 32-bit addresses. -/
def stackEnd (t : RtosTask ι) : Nat :=
  t.stackBase.toNat + 4 * t.stackWords.toNat

/-- A stack as `rtos_task_add` accepts it, that ends within the 32-bit addresses. -/
structure StackShape (t : RtosTask ι) : Prop where
  base_ne : t.stackBase ≠ 0
  aligned : t.stackBase.toNat % 8 = 0
  words : rtosMinStackWords.toNat ≤ t.stackWords.toNat
  even : t.stackWords.toNat % 2 = 0
  fits : stackEnd t < 2 ^ 32

variable {B : Board τ} {task : τ} {t : RtosTask ι} {ram : Ram}

theorem StackShape.toNat_top (h : StackShape t) :
    (slot t.stackBase t.stackWords.toNat).toNat = stackEnd t :=
  toNat_slot h.fits

theorem StackShape.room (h : StackShape t) : 512 ≤ 4 * t.stackWords.toNat :=
  Nat.mul_le_mul_left 4 h.words

theorem initialFrame_length (B : Board τ) (task : τ) : (initialFrame B task).length = 16 := rfl

theorem StackShape.frame_room (h : StackShape t) :
    4 * (initialFrame B task).length ≤ (slot t.stackBase t.stackWords.toNat).toNat := by
  have hroom := h.room
  rw [h.toNat_top, initialFrame_length, stackEnd]
  omega

theorem StackShape.toNat_end (h : StackShape t) :
    (t.stackBase + t.stackWords * 4).toNat = stackEnd t := by
  have hfits := h.fits
  rw [stackEnd] at hfits
  have hbytes : (t.stackWords * 4).toNat = 4 * t.stackWords.toNat := by
    have hfour : (4 : Word).toNat = 4 := by decide
    rw [BitVec.toNat_mul, hfour, Nat.mul_comm]
    exact Nat.mod_eq_of_lt (by omega)
  rw [BitVec.toNat_add, hbytes, Nat.mod_eq_of_lt hfits, stackEnd]

theorem StackShape.pointer (h : StackShape t) :
    (rtosStackInitialize t).stackPointer.toNat = stackEnd t - 64 := by
  have hroom := h.room
  have hle : (64 : Word) ≤ t.stackBase + t.stackWords * 4 := by
    rw [BitVec.le_def, h.toNat_end, stackEnd]
    exact Nat.le_trans (by decide) (Nat.le_add_left_of_le hroom)
  rw [rtosStackInitialize, BitVec.toNat_sub_of_le hle, h.toNat_end]
  rfl

/-- The pushes end at the pointer that the TCB gets. -/
theorem StackShape.pointer_eq (h : StackShape t) :
    (rtosStackInitializeRam B task t ram).2 = (rtosStackInitialize t).stackPointer := by
  apply BitVec.eq_of_toNat_eq
  rw [h.pointer, rtosStackInitializeRam, pushWords_pointer (by decide) h.frame_room, h.toNat_top,
    initialFrame_length]

/-- Only the stack itself is written. -/
theorem StackShape.initialize_outside (h : StackShape t) {a : Word}
    (ha : Outside t.stackBase.toNat (stackEnd t) a) :
    (rtosStackInitializeRam B task t ram).1 a = ram a := by
  have hfits := h.fits
  have hroom := h.room
  have htop := h.toNat_top
  have hne : a ≠ t.stackBase := by
    rintro rfl
    rw [stackEnd] at ha
    rcases ha with hlow | hhigh
    · omega
    · omega
  rw [rtosStackInitializeRam, pushWords_outside (by decide) h.frame_room,
    Function.update_of_ne hne, storeBlock_outside (Nat.le_of_lt hfits) ha]
  refine ha.mono ?_ (Nat.le_of_eq htop)
  rw [htop, initialFrame_length, stackEnd]
  omega

theorem StackShape.canary (h : StackShape t) :
    (rtosStackInitializeRam B task t ram).1 t.stackBase = rtosStackCanary := by
  have hroom := h.room
  rw [rtosStackInitializeRam, pushWords_outside (by decide) h.frame_room, Function.update_self]
  left
  rw [h.toNat_top, initialFrame_length, stackEnd]
  omega

theorem StackShape.frame (h : StackShape t) {i : Nat} (hi : i < 16) :
    (initialFrame B task).reverse[i]? = some ((rtosStackInitializeRam B task t ram).1
      (slot (rtosStackInitialize t).stackPointer i)) := by
  have hpointer : (rtosStackInitializeRam B task t ram).2 =
      (rtosStackInitialize t).stackPointer := h.pointer_eq
  rw [← hpointer]
  exact pushWords_slot (by decide) h.frame_room hi

theorem aligned_eight {a : Word} : a &&& 7 = 0 ↔ a.toNat % 8 = 0 :=
  aligned_iff (n := 3) (by decide)

/-- A TCB with a fresh stack passes the check. -/
theorem StackShape.valid {k : Kernel τ ι} (h : StackShape (k.tcb task))
    (hpointer : (k.tcb task).stackPointer = (rtosStackInitialize (k.tcb task)).stackPointer)
    (hcanary : ram (k.tcb task).stackBase = rtosStackCanary) :
    rtosTaskStackValid ram k (some task) = true := by
  have hfits := h.fits
  have hroom := h.room
  have hsp : (k.tcb task).stackPointer.toNat = stackEnd (k.tcb task) - 64 := by
    rw [hpointer, h.pointer]
  have hlow : (slot (k.tcb task).stackBase 1).toNat = (k.tcb task).stackBase.toNat + 4 :=
    toNat_slot (by rw [stackEnd] at hfits; omega)
  have hwords : ¬((k.tcb task).stackBase = 0 ∨ (k.tcb task).stackWords < rtosMinStackWords) :=
    not_or.mpr ⟨h.base_ne, by rw [BitVec.lt_def]; exact Nat.not_lt.mpr h.words⟩
  have hchecks : ¬(ram (k.tcb task).stackBase ≠ rtosStackCanary ∨
      (k.tcb task).stackPointer < slot (k.tcb task).stackBase 1 ∨
        slot (k.tcb task).stackBase (k.tcb task).stackWords.toNat < (k.tcb task).stackPointer ∨
          (k.tcb task).stackPointer &&& 7 ≠ 0) := by
    have halign := h.aligned
    have heven := h.even
    rw [stackEnd] at hsp
    refine not_or.mpr ⟨not_not.mpr hcanary, not_or.mpr ⟨?_, not_or.mpr ⟨?_, not_not.mpr ?_⟩⟩⟩
    · rw [BitVec.lt_def, hsp, hlow]
      omega
    · rw [BitVec.lt_def, hsp, h.toNat_top, stackEnd]
      omega
    · rw [aligned_eight, hsp]
      omega
  simp only [rtosTaskStackValid, if_neg hwords, if_neg hchecks]

end Frames

end Stm32f411.TaskStacks
