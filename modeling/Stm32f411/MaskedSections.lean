import Mathlib.Tactic.Common
import Stm32f411.StatementPrograms

/-!
One processor, threads, and handlers that preempt by level (a small number is urgent). A
mask register holds back the levels from its value on; zero holds back none. Code that
shares a state raises the mask to a ceiling, works, and puts back the value it had read.
Two handlers of the lowest level do neither: the clock, which takes no section, and the
switcher, which sets the mask outright, changes the thread, and clears it.
-/

namespace Stm32f411.MaskedSections

open Stm32f411.LabelledRuns
open Stm32f411.StatementPrograms

section Model

inductive Actor (τ η : Type)
  | thread (t : τ)
  | service (h : η)
  | clock
  | switcher
  deriving DecidableEq

/-- `ω` are the operations done in sections, `φ` the other steps of threads and handlers,
`κ` those of the clock. The operations of the switcher need no tests. -/
structure System (τ η σ ω φ κ : Type) where
  ceiling : Nat
  lowest : Nat
  level : η → Nat
  tests : σ → Actor τ η → ω → Bool
  code : Actor τ η → ω → Code σ Unit
  free : σ → Actor τ η → φ → Option σ
  clock : σ → κ → Option σ
  current : σ → Option τ
  clockIdle : σ → Bool
  ceiling_pos : 0 < ceiling
  ceiling_lt : ceiling < lowest
  level_le : ∀ h, level h ≤ lowest

inductive Activity (σ ω : Type)
  | outside
  | tested (o : ω)
  | saved (o : ω) (previous : Nat)
  | inside (o : ω) (previous : Nat) (rest : Code σ Unit)
  | ended

structure Frame (τ η σ ω : Type) where
  actor : Actor τ η
  entryMask : Nat
  activity : Activity σ ω

/-- The mask, the thread the processor is in, what every thread is about, the handlers on
its stack (the latest first), and the state they share. -/
structure Processor (τ η σ ω : Type) where
  mask : Nat
  thread : τ
  activity : τ → Activity σ ω
  handlers : List (Frame τ η σ ω)
  shared : σ

variable {τ η σ ω φ κ : Type}

def System.levelOf (M : System τ η σ ω φ κ) : Actor τ η → Nat
  | .thread _ => M.lowest + 1
  | .service h => M.level h
  | .clock => M.lowest
  | .switcher => M.lowest

@[simp] theorem System.levelOf_thread (M : System τ η σ ω φ κ) (t : τ) :
    M.levelOf (.thread t) = M.lowest + 1 := rfl

@[simp] theorem System.levelOf_service (M : System τ η σ ω φ κ) (h : η) :
    M.levelOf (.service h) = M.level h := rfl

@[simp] theorem System.levelOf_clock (M : System τ η σ ω φ κ) :
    M.levelOf .clock = M.lowest := rfl

@[simp] theorem System.levelOf_switcher (M : System τ η σ ω φ κ) :
    M.levelOf .switcher = M.lowest := rfl

def Frame.Inside (f : Frame τ η σ ω) : Prop :=
  ∃ o previous rest, f.activity = .inside o previous rest

namespace Processor

variable [DecidableEq τ]

def threadFrame (P : Processor τ η σ ω) : Frame τ η σ ω :=
  ⟨.thread P.thread, 0, P.activity P.thread⟩

/-- The contexts on the stack, down to the thread. -/
def frames (P : Processor τ η σ ω) : List (Frame τ η σ ω) :=
  P.handlers ++ [P.threadFrame]

/-- The context that executes. -/
def top (P : Processor τ η σ ω) : Frame τ η σ ω :=
  P.handlers.headD P.threadFrame

/-- The context on top goes on to `activity`, and writes the mask and the state. -/
def put (P : Processor τ η σ ω) (activity : Activity σ ω) (mask : Nat) (shared : σ) :
    Processor τ η σ ω :=
  match P.handlers with
  | [] => ⟨mask, P.thread, Function.update P.activity P.thread activity, [], shared⟩
  | f :: rest => ⟨mask, P.thread, P.activity, { f with activity := activity } :: rest, shared⟩

/-- A context is in a section, whether it executes, is preempted or is switched out. -/
def Inside (P : Processor τ η σ ω) (a : Actor τ η) : Prop :=
  (∃ t, a = .thread t ∧ ∃ o previous rest, P.activity t = .inside o previous rest) ∨
    ∃ f ∈ P.handlers, f.actor = a ∧ ∃ o previous rest, f.activity = .inside o previous rest

end Processor

inductive Event (τ η ω φ κ : Type)
  | take (a : Actor τ η)
  | test (o : ω)
  | free (x : φ)
  | save
  | raise
  | begin (o : ω)
  | access
  | lower
  | tick (x : κ)
  | leave

/-- Writing the ceiling to the mask can only make it stricter. -/
def raised (ceiling mask : Nat) : Nat :=
  if mask = 0 ∨ ceiling < mask then ceiling else mask

/-- One instruction, or one exception taken. -/
def step [DecidableEq τ] (M : System τ η σ ω φ κ) (P : Processor τ η σ ω) :
    Event τ η ω φ κ → Option (Processor τ η σ ω)
  | .take a =>
      if M.levelOf a < M.levelOf P.top.actor ∧ (P.mask = 0 ∨ M.levelOf a < P.mask) then
        some { P with handlers := ⟨a, P.mask, .outside⟩ :: P.handlers }
      else none
  | .test o =>
      match P.top.activity with
      | .outside =>
          if M.tests P.shared P.top.actor o then some (P.put (.tested o) P.mask P.shared) else none
      | _ => none
  | .free x =>
      match P.top.activity with
      | .outside =>
          (M.free P.shared P.top.actor x).map fun s =>
            -- a handler above the ceiling writes none of the shared state
            if M.ceiling ≤ M.levelOf P.top.actor then { P with shared := s } else P
      | _ => none
  | .save =>
      match P.top.activity with
      | .tested o => some (P.put (.saved o P.mask) P.mask P.shared)
      | _ => none
  | .raise =>
      match P.top.activity with
      | .saved o previous =>
          some (P.put (.inside o previous (M.code P.top.actor o))
            (raised M.ceiling P.mask) P.shared)
      | _ => none
  | .begin o =>
      match P.top.actor, P.top.activity with
      | .switcher, .outside =>
          some (P.put (.inside o 0 (M.code .switcher o)) M.ceiling P.shared)
      | _, _ => none
  | .access =>
      match P.top.activity with
      | .inside o previous rest =>
          (rest.step P.shared).map fun next =>
            P.put (.inside o previous next.1) P.mask next.2
      | _ => none
  | .lower =>
      match P.top.actor, P.top.activity with
      | .switcher, .inside _ previous (.done _) => some (P.put .ended previous P.shared)
      | _, .inside _ previous (.done _) => some (P.put .outside previous P.shared)
      | _, _ => none
  | .tick x =>
      match P.top.actor, P.top.activity with
      | .clock, .outside => (M.clock P.shared x).map fun s => { P with shared := s }
      | _, _ => none
  | .leave =>
      match P.handlers with
      | [] => none
      | f :: rest =>
          match f.actor, f.activity with
          | .service _, .outside => some { P with handlers := rest }
          | .clock, .outside =>
              if M.clockIdle P.shared then some { P with handlers := rest } else none
          | .switcher, .ended =>
              (M.current P.shared).map fun t => { P with handlers := rest, thread := t }
          | _, _ => none

/-- The cases of `step`, one for each way an event can happen. -/
inductive Step [DecidableEq τ] (M : System τ η σ ω φ κ) :
    Processor τ η σ ω → Event τ η ω φ κ → Processor τ η σ ω → Prop
  | take {P : Processor τ η σ ω} {a : Actor τ η} :
      M.levelOf a < M.levelOf P.top.actor → P.mask = 0 ∨ M.levelOf a < P.mask →
      Step M P (.take a) { P with handlers := ⟨a, P.mask, .outside⟩ :: P.handlers }
  | test {P : Processor τ η σ ω} {o : ω} :
      P.top.activity = .outside → M.tests P.shared P.top.actor o = true →
      Step M P (.test o) (P.put (.tested o) P.mask P.shared)
  | free {P : Processor τ η σ ω} {x : φ} {s : σ} :
      P.top.activity = .outside → M.ceiling ≤ M.levelOf P.top.actor →
      M.free P.shared P.top.actor x = some s →
      Step M P (.free x) { P with shared := s }
  | freeAbove {P : Processor τ η σ ω} {x : φ} :
      P.top.activity = .outside → M.levelOf P.top.actor < M.ceiling → Step M P (.free x) P
  | save {P : Processor τ η σ ω} {o : ω} :
      P.top.activity = .tested o → Step M P .save (P.put (.saved o P.mask) P.mask P.shared)
  | raise {P : Processor τ η σ ω} {o : ω} {previous : Nat} :
      P.top.activity = .saved o previous →
      Step M P .raise (P.put (.inside o previous (M.code P.top.actor o))
        (raised M.ceiling P.mask) P.shared)
  | begin {P : Processor τ η σ ω} {o : ω} :
      P.top.actor = .switcher → P.top.activity = .outside →
      Step M P (.begin o) (P.put (.inside o 0 (M.code .switcher o)) M.ceiling P.shared)
  | access {P : Processor τ η σ ω} {o : ω} {previous : Nat} {rest rest' : Code σ Unit}
      {s : σ} :
      P.top.activity = .inside o previous rest → rest.step P.shared = some (rest', s) →
      Step M P .access (P.put (.inside o previous rest') P.mask s)
  | lower {P : Processor τ η σ ω} {o : ω} {previous : Nat} :
      P.top.actor ≠ .switcher → P.top.activity = .inside o previous (.done ()) →
      Step M P .lower (P.put .outside previous P.shared)
  | lowerSwitcher {P : Processor τ η σ ω} {o : ω} {previous : Nat} :
      P.top.actor = .switcher → P.top.activity = .inside o previous (.done ()) →
      Step M P .lower (P.put .ended previous P.shared)
  | tick {P : Processor τ η σ ω} {x : κ} {s : σ} :
      P.top.actor = .clock → P.top.activity = .outside → M.clock P.shared x = some s →
      Step M P (.tick x) { P with shared := s }
  | leaveService {P : Processor τ η σ ω} {f : Frame τ η σ ω} {rest : List (Frame τ η σ ω)}
      {h : η} :
      P.handlers = f :: rest → f.actor = .service h → f.activity = .outside →
      Step M P .leave { P with handlers := rest }
  | leaveClock {P : Processor τ η σ ω} {f : Frame τ η σ ω} {rest : List (Frame τ η σ ω)} :
      P.handlers = f :: rest → f.actor = .clock → f.activity = .outside →
      M.clockIdle P.shared = true → Step M P .leave { P with handlers := rest }
  | leaveSwitcher {P : Processor τ η σ ω} {f : Frame τ η σ ω} {rest : List (Frame τ η σ ω)}
      {t : τ} :
      P.handlers = f :: rest → f.actor = .switcher → f.activity = .ended →
      M.current P.shared = some t →
      Step M P .leave { P with handlers := rest, thread := t }

/-- Every context outside its sections, no handler on the stack, no level held back. -/
structure Start (M : System τ η σ ω φ κ) (start : σ → Prop) (P : Processor τ η σ ω) :
    Prop where
  mask : P.mask = 0
  handlers : P.handlers = []
  activity : ∀ t, P.activity t = .outside
  shared : start P.shared
  current : M.current P.shared = some P.thread
  clockIdle : M.clockIdle P.shared = true

inductive Label (τ η ω φ κ : Type)
  | op (a : Actor τ η) (o : ω)
  | free (a : Actor τ η) (x : φ)
  | clock (x : κ)

def Label.actor : Label τ η ω φ κ → Actor τ η
  | .op a _ => a
  | .free a _ => a
  | .clock _ => .clock

/-- Only the current thread acts, and only while the clock does not. -/
def System.mayAct (M : System τ η σ ω φ κ) (s : σ) : Actor τ η → Prop
  | .thread t => M.current s = some t ∧ M.clockIdle s = true
  | .switcher => M.clockIdle s = true
  | _ => True

/-- The same system with every section one step. -/
inductive Atomic (M : System τ η σ ω φ κ) : σ → Label τ η ω φ κ → σ → Prop
  | op {s s' : σ} {a : Actor τ η} {o : ω} :
      M.mayAct s a → a = .switcher ∨ M.tests s a o = true →
      (M.code a o).run s = some ((), s') → Atomic M s (.op a o) s'
  | free {s s' : σ} {a : Actor τ η} {x : φ} :
      M.mayAct s a → M.free s a x = some s' → Atomic M s (.free a x) s'
  | clock {s s' : σ} {x : κ} : M.clock s x = some s' → Atomic M s (.clock x) s'

theorem System.levelOf_le (M : System τ η σ ω φ κ) (a : Actor τ η) :
    M.levelOf a ≤ M.lowest + 1 := by
  cases a with
  | service h => exact Nat.le_succ_of_le (M.level_le h)
  | _ => simp

theorem System.thread_of_lowest_lt {M : System τ η σ ω φ κ} {a : Actor τ η}
    (h : M.lowest < M.levelOf a) :
    ∃ t, a = .thread t := by
  cases a with
  | thread t => exact ⟨t, rfl⟩
  | service h' => exact absurd h (Nat.not_lt.mpr (M.level_le h'))
  | _ => exact absurd h (Nat.lt_irrefl _)

end Model

section Cases

variable {τ η σ ω φ κ : Type} [DecidableEq τ] {M : System τ η σ ω φ κ}
  {P P' : Processor τ η σ ω} {e : Event τ η ω φ κ}

theorem step_cases (h : step M P e = some P') : Step M P e P' := by
  cases e with
  | take a =>
      simp only [step, Option.ite_none_right_eq_some, Option.some.injEq] at h
      obtain ⟨⟨hlevel, hmask⟩, rfl⟩ := h
      exact .take hlevel hmask
  | test o =>
      simp only [step] at h
      split at h
      · next hout =>
          simp only [Option.ite_none_right_eq_some, Option.some.injEq] at h
          obtain ⟨htest, rfl⟩ := h
          exact .test hout htest
      · cases h
  | free x =>
      simp only [step] at h
      split at h
      · next hout =>
          obtain ⟨s, hs, hnext⟩ := Option.map_eq_some_iff.mp h
          split at hnext
          · next hlevel =>
              obtain rfl := hnext
              exact .free hout hlevel hs
          · next hlevel =>
              obtain rfl := hnext
              exact .freeAbove hout (Nat.lt_of_not_le hlevel)
      · cases h
  | save =>
      simp only [step] at h
      split at h
      · next htested =>
          obtain rfl := Option.some.inj h
          exact .save htested
      · cases h
  | raise =>
      simp only [step] at h
      split at h
      · next hsaved =>
          obtain rfl := Option.some.inj h
          exact .raise hsaved
      · cases h
  | begin =>
      simp only [step] at h
      split at h
      · next hactor hout =>
          obtain rfl := Option.some.inj h
          exact .begin hactor hout
      · cases h
  | access =>
      simp only [step] at h
      split at h
      · next hin =>
          obtain ⟨next, hnext, rfl⟩ := Option.map_eq_some_iff.mp h
          exact .access hin hnext
      · cases h
  | lower =>
      simp only [step] at h
      split at h
      · next hactor hin =>
          obtain rfl := Option.some.inj h
          exact .lowerSwitcher hactor hin
      · next hin hactor =>
          obtain rfl := Option.some.inj h
          exact .lower (fun heq => by simp [heq] at hactor) hin
      · cases h
  | tick x =>
      simp only [step] at h
      split at h
      · next hactor hout =>
          obtain ⟨s, hs, rfl⟩ := Option.map_eq_some_iff.mp h
          exact .tick hactor hout hs
      · cases h
  | leave =>
      simp only [step] at h
      split at h
      · cases h
      · next f rest hhandlers =>
          split at h
          · next hactor hout =>
              obtain rfl := Option.some.inj h
              exact .leaveService hhandlers hactor hout
          · next hactor hout =>
              simp only [Option.ite_none_right_eq_some, Option.some.injEq] at h
              obtain ⟨hidle, rfl⟩ := h
              exact .leaveClock hhandlers hactor hout hidle
          · next hactor hended =>
              obtain ⟨t, ht, rfl⟩ := Option.map_eq_some_iff.mp h
              exact .leaveSwitcher hhandlers hactor hended ht
          · cases h

end Cases

section Stack

variable {τ η σ ω φ κ : Type} {P : Processor τ η σ ω}

namespace Processor

theorem frames_eq (P : Processor τ η σ ω) : P.frames = P.top :: P.frames.tail := by
  cases h : P.handlers <;> simp [frames, top, h]

theorem frames_ne_nil (P : Processor τ η σ ω) : P.frames ≠ [] := by
  simp [frames]

theorem frames_of_handlers {P : Processor τ η σ ω} {f : Frame τ η σ ω}
    {rest : List (Frame τ η σ ω)} (h : P.handlers = f :: rest) :
    P.frames = f :: ({ P with handlers := rest } : Processor τ η σ ω).frames := by
  simp [frames, h, threadFrame]

variable [DecidableEq τ]
variable (P : Processor τ η σ ω) (activity : Activity σ ω) (mask : Nat) (shared : σ)

theorem put_frames :
    (P.put activity mask shared).frames = { P.top with activity := activity } :: P.frames.tail := by
  cases h : P.handlers <;> simp [frames, put, top, threadFrame, h]

@[simp] theorem put_thread : (P.put activity mask shared).thread = P.thread := by
  cases h : P.handlers <;> simp [put, h]

@[simp] theorem put_mask : (P.put activity mask shared).mask = mask := by
  cases h : P.handlers <;> simp [put, h]

@[simp] theorem put_shared : (P.put activity mask shared).shared = shared := by
  cases h : P.handlers <;> simp [put, h]

theorem put_activity {t : τ} (ht : t ≠ P.thread) :
    (P.put activity mask shared).activity t = P.activity t := by
  cases h : P.handlers <;> simp [put, h, ht]

theorem put_self {P : Processor τ η σ ω} {activity : Activity σ ω}
    (h : P.top.activity = activity) (shared : σ) :
    P.put activity P.mask shared = { P with shared := shared } := by
  obtain ⟨mask, thread, activities, handlers, s⟩ := P
  cases handlers with
  | nil =>
      simp only [top, threadFrame, List.headD_nil] at h
      simp [put, ← h]
  | cons f rest =>
      simp only [top, List.headD_cons] at h
      simp [put, ← h]

theorem put_actors :
    (P.put activity mask shared).handlers.map Frame.actor = P.handlers.map Frame.actor := by
  cases h : P.handlers <;> simp [put, h]

/-- The switcher has chosen and not yet left. -/
def Chosen (P : Processor τ η σ ω) : Prop :=
  ∃ f ∈ P.handlers, f.actor = .switcher ∧ f.activity = .ended

theorem Chosen.put {P : Processor τ η σ ω} (h : P.Chosen) (htop : P.top.activity ≠ .ended)
    (activity : Activity σ ω) (mask : Nat) (shared : σ) : (P.put activity mask shared).Chosen := by
  obtain ⟨f, hf, hactor, hended⟩ := h
  cases hhandlers : P.handlers with
  | nil => simp [hhandlers] at hf
  | cons g rest =>
      rw [hhandlers] at hf
      rcases List.mem_cons.mp hf with rfl | hrest
      · exact absurd hended (by simpa [top, hhandlers] using htop)
      · exact ⟨f, by simp [Processor.put, hhandlers, hrest], hactor, hended⟩

end Processor

theorem Processor.top_mem (h : ∀ t, P.top.actor ≠ .thread t) : P.top ∈ P.handlers := by
  cases hhandlers : P.handlers with
  | nil =>
      rw [Processor.top, hhandlers] at h
      exact absurd rfl (h P.thread)
  | cons f rest => simp [Processor.top, hhandlers]

end Stack

end Stm32f411.MaskedSections
