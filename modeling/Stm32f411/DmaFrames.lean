import Stm32f411.DmaGuarantee

/-!
A call touches its own stream only, and one that fails enables nothing.
-/

namespace Stm32f411.DmaFrames

open Stm32f411.BitMasks
open Stm32f411.RegisterPrograms
open Stm32f411.RtosTypes
open Stm32f411.DmaStreams
open Stm32f411.DmaGuarantee

section Frames

variable {s s' : DmaState} {c : Controller} {n : Nat}

def flags (s : DmaState) (controller : Controller) (stream : Nat) : Word :=
  (if stream < 4 then s.lisr controller else s.hisr controller) &&& eventFlags stream

/-- The other streams keep their registers and their flags. -/
def Framed (c : Controller) (n : Nat) (s s' : DmaState) : Prop :=
  ∀ c' n', ¬(c' = c ∧ n' = n) → n' < 8 →
    s'.streams c' n' = s.streams c' n' ∧ flags s' c' n' = flags s c' n'

/-- The accesses of a call on stream `n`: of the flags it clears none but the stream's. -/
def Own (c : Controller) (n : Nat) : DmaAccess → Prop
  | .read _ _ => True
  | .store _ .ahb1enr _ => True
  | .store _ (.cr c' n') _ => c' = c ∧ n' = n
  | .store _ (.ndtr c' n') _ => c' = c ∧ n' = n
  | .store _ (.par c' n') _ => c' = c ∧ n' = n
  | .store _ (.m0ar c' n') _ => c' = c ∧ n' = n
  | .store _ (.fcr c' n') _ => c' = c ∧ n' = n
  | .store _ (.lifcr c') v => c' = c ∧ n < 4 ∧ v &&& ~~~eventFlags n = 0
  | .store _ (.hifcr c') v => c' = c ∧ 4 ≤ n ∧ n < 8 ∧ v &&& ~~~eventFlags n = 0

theorem eventFlags_disjoint {n n' : Nat} (h : n % 4 ≠ n' % 4) :
    eventFlags n &&& eventFlags n' = 0 := by
  rw [eventFlags, eventFlags]
  obtain hn | hn | hn | hn : n % 4 = 0 ∨ n % 4 = 1 ∨ n % 4 = 2 ∨ n % 4 = 3 := by omega
  all_goals
    rw [hn] at h ⊢
    obtain hm | hm | hm | hm : n' % 4 = 0 ∨ n' % 4 = 1 ∨ n' % 4 = 2 ∨ n' % 4 = 3 := by omega
    all_goals
      rw [hm] at h ⊢
      first | decide | exact absurd rfl h

theorem clear_other {a v : Word} {n n' : Nat} (hv : v &&& ~~~eventFlags n = 0)
    (h : n % 4 ≠ n' % 4) : a &&& ~~~v &&& eventFlags n' = a &&& eventFlags n' :=
  clear_and (and_of_within hv (eventFlags_disjoint h))

theorem framed_of_streams {r : DmaStream} (hs' : s'.streams = (s.setStream c n r).streams)
    (hlisr : s'.lisr = s.lisr) (hhisr : s'.hisr = s.hisr) : Framed c n s s' := by
  intro c' n' hne _
  rw [hs', setStream_of_ne hne, flags, flags, hlisr, hhisr]
  exact ⟨rfl, rfl⟩

theorem framed_of_own {access : DmaAccess} (h : Own c n access)
    (heffect : dma.effect s access s') : Framed c n s s' := by
  cases access with
  | read location v =>
      obtain ⟨-, rfl⟩ := heffect
      exact fun _ _ _ _ => ⟨rfl, rfl⟩
  | store how location v =>
      cases location with
      | ahb1enr => rcases heffect with rfl | rfl <;> exact fun _ _ _ _ => ⟨rfl, rfl⟩
      | lifcr c' =>
          obtain ⟨rfl, hn, hv⟩ := h
          intro c n' hne _
          have hlisr : s'.lisr = Function.update s.lisr c' (s.lisr c' &&& ~~~v) ∧
              s'.hisr = s.hisr ∧ s'.streams = s.streams := by
            rcases heffect with rfl | rfl <;> exact ⟨rfl, rfl, rfl⟩
          refine ⟨by rw [hlisr.2.2], ?_⟩
          rw [flags, flags, hlisr.1, hlisr.2.1]
          split
          · next hlow =>
              by_cases hc : c = c'
              · subst hc
                rw [Function.update_self]
                refine clear_other hv fun hmod => hne ⟨rfl, ?_⟩
                rw [Nat.mod_eq_of_lt hn, Nat.mod_eq_of_lt hlow] at hmod
                exact hmod.symm
              · rw [Function.update_of_ne hc]
          · rfl
      | hifcr c' =>
          obtain ⟨rfl, hn, hn8, hv⟩ := h
          intro c n' hne hn'
          have hhisr : s'.hisr = Function.update s.hisr c' (s.hisr c' &&& ~~~v) ∧
              s'.lisr = s.lisr ∧ s'.streams = s.streams := by
            rcases heffect with rfl | rfl <;> exact ⟨rfl, rfl, rfl⟩
          refine ⟨by rw [hhisr.2.2], ?_⟩
          rw [flags, flags, hhisr.1, hhisr.2.1]
          split
          · rfl
          · next hhigh =>
              by_cases hc : c = c'
              · subst hc
                rw [Function.update_self]
                exact clear_other hv fun hmod => hne ⟨rfl, by omega⟩
              · rw [Function.update_of_ne hc]
      | _ =>
          obtain ⟨rfl, rfl⟩ := h
          rcases heffect with rfl | rfl <;> exact framed_of_streams rfl rfl rfl

theorem enableClock_own (c' : Controller) : Only (Own c n) (dmaEnableClock c') :=
  ⟨trivial, fun _ => ⟨trivial, trivial⟩⟩

theorem valid_stream {stream : Word} (h : ¬dmaIsValidStream stream = false) :
    stream.toNat < 8 := by
  have hle : stream ≤ 7 := by simpa [dmaIsValidStream] using h
  exact Nat.lt_succ_of_le hle

theorem clearFlags_own (stream flags : Word) :
    Only (Own c stream.toNat) (dmaClearFlags c stream flags) := by
  refine only_ite (fun _ => trivial) fun hvalid => ?_
  rw [not_or, not_or] at hvalid
  have hstream := valid_stream hvalid.2.1
  have hwithin := shift_within (not_not.mp hvalid.2.2) (dmaGetStreamOffset stream)
  rw [offset_eventFlags] at hwithin
  refine ⟨?_, trivial⟩
  split
  · next hlow => exact ⟨rfl, hlow, hwithin⟩
  · next hhigh => exact ⟨rfl, Nat.le_of_not_lt hhigh, hstream, hwithin⟩

theorem abortWait_own (c' : Controller) (n' timeout : Nat) :
    Only (Own c n) (dmaAbortWait c' n' timeout) := by
  induction timeout with
  | zero => trivial
  | succ timeout ih =>
      refine fun cr => ⟨trivial, only_ite (fun _ => ?_) fun _ => trivial⟩
      exact only_ite (fun _ => trivial) fun _ => ih

theorem abort_own (stream timeout : Word) :
    Only (Own c stream.toNat) (dmaAbort c stream timeout) :=
  only_ite (fun _ => trivial) fun _ => ⟨⟨rfl, rfl⟩, abortWait_own ..⟩

theorem init_own (stream : Word) (config : Option DmaConfig) :
    Only (Own c stream.toNat) (dmaInit c stream config) := by
  refine only_ite (fun _ => trivial) fun _ => only_ite (fun _ => trivial) fun _ => ?_
  cases config with
  | none => trivial
  | some config =>
      refine only_bind (enableClock_own c) fun _ cr => ⟨trivial, ?_⟩
      exact only_ite (fun _ => trivial) fun _ => ⟨⟨rfl, rfl⟩, ⟨rfl, rfl⟩, trivial⟩

theorem start_own (stream : Word) (transfer : Option DmaTransfer) :
    Only (Own c stream.toNat) (dmaStart c stream transfer) := by
  cases transfer with
  | none => trivial
  | some transfer =>
      refine only_ite (fun _ => trivial) fun _ => only_ite (fun _ => trivial) fun _ => ?_
      refine fun _ => ⟨trivial, only_ite (fun _ => trivial) fun _ => ?_⟩
      refine fun _ => ⟨trivial, fun _ => ⟨trivial, only_ite (fun _ => trivial) fun _ => ?_⟩⟩
      refine only_ite (fun _ => trivial) fun _ => only_ite (fun _ => trivial) fun _ => ?_
      refine ⟨⟨rfl, rfl⟩, ⟨rfl, rfl⟩, ⟨rfl, rfl⟩, ?_⟩
      refine only_bind (p := dmaClearFlags c stream dmaEventAll)
        (clearFlags_own stream dmaEventAll) fun status => ?_
      exact only_ite (fun _ => trivial) fun _ => ⟨⟨rfl, rfl⟩, trivial⟩

end Frames

section Errors

variable {α : Type} {P : DmaAccess → Prop} {c : Controller}

/-- The accesses that change no register of a stream. -/
def Harmless : DmaAccess → Prop
  | .read _ _ => True
  | .store _ .ahb1enr _ => True
  | _ => False

/-- A program that fails has made no access but those of `P`. -/
def FailsWithin (P : DmaAccess → Prop) (p : DmaProgram Int) : Prop :=
  ∀ trace result, Ends p trace result → result ≠ 0 → ∀ access ∈ trace, P access

theorem failsWithin_of_only {p : DmaProgram Int} (h : Only P p) : FailsWithin P p :=
  fun _ _ hends _ => h.ends hends

theorem failsWithin_of_success {p : DmaProgram Int}
    (h : ∀ trace result, Ends p trace result → result = 0) : FailsWithin P p :=
  fun trace result hends hne => absurd (h trace result hends) hne

theorem failsWithin_bind {p : DmaProgram α} {f : α → DmaProgram Int} (hp : Only P p)
    (hf : ∀ a, FailsWithin P (f a)) : FailsWithin P (p >>= f) := by
  intro trace result hends hne access haccess
  obtain ⟨before, a, after, rfl, hbefore, hafter⟩ := ends_bind.mp hends
  rcases List.mem_append.mp haccess with hmem | hmem
  · exact hp.ends hbefore access hmem
  · exact hf a after result hafter hne access hmem

theorem failsWithin_ite {b : Prop} [Decidable b] {p q : DmaProgram Int}
    (hp : b → FailsWithin P p) (hq : ¬b → FailsWithin P q) :
    FailsWithin P (if b then p else q) := by
  split
  · next h => exact hp h
  · next h => exact hq h

theorem clearFlags_fails (stream flags : Word) :
    FailsWithin Harmless (dmaClearFlags c stream flags) := by
  refine failsWithin_ite (fun _ => failsWithin_of_only trivial) fun _ => ?_
  refine failsWithin_of_success fun trace result hends => ?_
  rw [ends_assignReg_bind] at hends
  obtain ⟨rest, rfl, hends⟩ := hends
  exact (ends_done.mp hends).2

theorem abort_fails (stream timeout : Word) :
    FailsWithin (fun access => Harmless access ∨
      access = .store .clear (.cr c stream.toNat) dmaSxCrEn) (dmaAbort c stream timeout) := by
  have hwait : ∀ timeout, Only Harmless (dmaAbortWait c stream.toNat timeout) := by
    intro timeout
    induction timeout with
    | zero => trivial
    | succ timeout ih =>
        refine fun cr => ⟨trivial, only_ite (fun _ => ?_) fun _ => trivial⟩
        exact only_ite (fun _ => trivial) fun _ => ih
  refine failsWithin_of_only (only_ite (fun _ => trivial) fun _ => ⟨Or.inr rfl, ?_⟩)
  exact (hwait timeout.toNat).mono fun _ h => Or.inl h

theorem init_fails (stream : Word) (config : Option DmaConfig) :
    FailsWithin Harmless (dmaInit c stream config) := by
  refine failsWithin_ite (fun _ => failsWithin_of_only trivial) fun _ => ?_
  refine failsWithin_ite (fun _ => failsWithin_of_only trivial) fun _ => ?_
  cases config with
  | none => exact failsWithin_of_only trivial
  | some config =>
      have hclock : Only Harmless (dmaEnableClock c) := ⟨trivial, fun _ => ⟨trivial, trivial⟩⟩
      refine failsWithin_bind hclock fun _ => ?_
      refine failsWithin_bind (fun _ => ⟨trivial, trivial⟩) fun cr => ?_
      refine failsWithin_ite (fun _ => failsWithin_of_only trivial) fun _ => ?_
      refine failsWithin_of_success fun trace result hends => ?_
      rw [ends_assignReg_bind] at hends
      obtain ⟨rest, rfl, hends⟩ := hends
      rw [ends_assignReg_bind] at hends
      obtain ⟨rest, rfl, hends⟩ := hends
      exact (ends_done.mp hends).2

theorem start_fails (stream : Word) (transfer : Option DmaTransfer) :
    FailsWithin Harmless (dmaStart c stream transfer) := by
  cases transfer with
  | none => exact failsWithin_of_only trivial
  | some transfer =>
      have hread : Only Harmless (readReg (.cr c stream.toNat)) := fun _ => ⟨trivial, trivial⟩
      refine failsWithin_ite (fun _ => failsWithin_of_only trivial) fun hvalid => ?_
      refine failsWithin_ite (fun _ => failsWithin_of_only trivial) fun _ => ?_
      refine failsWithin_bind hread fun _ => ?_
      refine failsWithin_ite (fun _ => failsWithin_of_only trivial) fun _ => ?_
      refine failsWithin_bind hread fun _ => failsWithin_bind hread fun _ => ?_
      refine failsWithin_ite (fun _ => failsWithin_of_only trivial) fun _ => ?_
      refine failsWithin_ite (fun _ => failsWithin_of_only trivial) fun _ => ?_
      refine failsWithin_ite (fun _ => failsWithin_of_only trivial) fun _ => ?_
      refine failsWithin_of_success fun trace result hends => ?_
      rw [ends_assignReg_bind] at hends
      obtain ⟨rest, rfl, hends⟩ := hends
      rw [ends_assignReg_bind] at hends
      obtain ⟨rest, rfl, hends⟩ := hends
      rw [ends_assignReg_bind] at hends
      obtain ⟨rest, rfl, hends⟩ := hends
      rw [ends_bind] at hends
      obtain ⟨clear, status, rest, rfl, hclear, hends⟩ := hends
      rw [clearAll_eq hvalid, ends_assignReg_bind] at hclear
      obtain ⟨rest', rfl, hclear⟩ := hclear
      obtain ⟨rfl, rfl⟩ := ends_done.mp hclear
      rw [if_neg (not_not.mpr rfl)] at hends
      rw [ends_setBits_bind] at hends
      obtain ⟨rest, rfl, hends⟩ := hends
      exact (ends_done.mp hends).2

end Errors

end Stm32f411.DmaFrames
