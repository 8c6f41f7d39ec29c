import Mathlib.Data.Nat.Find
import Stm32f411.RegisterPrograms
import Stm32f411.RtosTypes

/-!
`usart_receive` of `stm32f411_usart.c`. The loop that waits for RXNE reads SR twice in a
turn, once in its test and once in its body, and looks for errors only in the second value.
-/

namespace Stm32f411.UsartReceive

open Stm32f411.RegisterPrograms
open Stm32f411.RtosTypes

/-- The registers of the instance, and the bytes of the caller's buffer. -/
inductive Location
  | sr | dr
  | data (index : Nat)
  deriving DecidableEq

abbrev UsartProgram := Program Location Word
abbrev UsartAccess := Access Location Word

def usartSrPe : Word := 0x1
def usartSrFe : Word := 0x2
def usartSrNf : Word := 0x4
def usartSrOre : Word := 0x8
def usartSrRxne : Word := 0x20

def errorFlags : Word := usartSrOre ||| usartSrFe ||| usartSrNf ||| usartSrPe

/-- The wait for one byte. With a timeout of zero the loop has no bound of its own, so it
is given up (`none`) after `polls` turns. -/
def waitRxne (timeout : Word) : Nat → Word → UsartProgram (Option Int)
  | 0, _ => pure none
  | polls + 1, count => do
      let status ← readReg .sr
      if status &&& usartSrRxne ≠ 0 then pure (some 0)
      else
        let sr ← readReg .sr
        if sr &&& errorFlags ≠ 0 then
          let _ ← readReg .dr
          pure (some (-5))
        else if timeout ≠ 0 then
          if count - 1 = 0 then pure (some (-2)) else waitRxne timeout polls (count - 1)
        else waitRxne timeout polls count

/-- The loop over the bytes from `index` on. -/
def receiveFrom (timeout : Word) (polls : Nat) (index : Nat) : Nat → UsartProgram (Option Int)
  | 0 => pure (some 0)
  | remaining + 1 => do
      let outcome ← waitRxne timeout polls timeout
      if outcome = some 0 then
        let value ← readReg .dr
        assignReg (.data index) (value &&& 0xFF)
        receiveFrom timeout polls (index + 1) remaining
      else pure outcome

def usartReceive (polls : Nat) (instancePtr data : Option BufferPtr) (len timeout : Word) :
    UsartProgram (Option Int) :=
  if instancePtr = none ∨ data = none then pure (some (-1))
  else receiveFrom timeout polls 0 len.toNat

def usartReadByte (polls : Nat) (instancePtr byte : Option BufferPtr) (timeout : Word) :
    UsartProgram (Option Int) :=
  if byte = none then pure (some (-1)) else usartReceive polls instancePtr byte 1 timeout

section Values

def HasByte (sr : Word) : Prop := sr &&& usartSrRxne ≠ 0

def HasError (sr : Word) : Prop := sr &&& errorFlags ≠ 0

instance : DecidablePred HasError := fun sr =>
  inferInstanceAs (Decidable (sr &&& errorFlags ≠ 0))

def drValue : UsartAccess → Option Word
  | .read .dr v => some v
  | _ => none

/-- The byte an access stores in the caller's buffer, with its index. -/
def storedByte : UsartAccess → Option (Word × Nat)
  | .store .assign (.data index) v => some (v, index)
  | _ => none

/-- The reads of SR return the values of the sequence `sr` from its `n`-th on, those of DR
the values of `dr` from its `d`-th on. -/
def Answers (sr dr : Nat → Word) : Nat → Nat → List UsartAccess → Prop
  | _, _, [] => True
  | n, d, .read .sr v :: rest => v = sr n ∧ Answers sr dr (n + 1) d rest
  | n, d, .read .dr v :: rest => v = dr d ∧ Answers sr dr n (d + 1) rest
  | n, d, _ :: rest => Answers sr dr n d rest

/-- Every SR value with an error flag ends the call with -5, and no byte is stored after
it. -/
def Noticed (result : Int) : List UsartAccess → Prop
  | [] => True
  | .read .sr v :: rest =>
      (HasError v → result = -5 ∧ rest.filterMap storedByte = []) ∧ Noticed result rest
  | _ :: rest => Noticed result rest

/-- The SR values for which a byte is stored are those the loop test saw last. -/
def Undamaged (trace : List UsartAccess) : Prop :=
  ∀ before v w index byte after, trace = before ++ .read .sr v :: .read .dr w ::
    .store .assign (.data index) byte :: after → ¬HasError v

/-- The bytes read from DR are stored in order, from `index` on. -/
def StoredInOrder (index : Nat) (trace : List UsartAccess) : Prop :=
  trace.filterMap storedByte = (((trace.filterMap drValue).take
    (trace.filterMap storedByte).length).map (· &&& 0xFF)).zipIdx index

/-- What a result tells: 0 vouches for every stored byte, and every error flag that was read
is reported. -/
def Reported (result : Int) (trace : List UsartAccess) : Prop :=
  (result = 0 → Undamaged trace) ∧ Noticed result trace ∧ StoredInOrder 0 trace

/-- Some SR value has an error flag. -/
def Flagged (trace : List UsartAccess) : Prop := ∃ v, .read .sr v ∈ trace ∧ HasError v

/-- No number of turns is enough for the call. -/
def NeverReturns (sr dr : Nat → Word) (call : Nat → UsartProgram (Option Int)) : Prop :=
  ∀ polls trace outcome, Ends (call polls) trace outcome → Answers sr dr 0 0 trace →
    outcome = none

/-- What the caller may rely on. A call that never returns reports nothing. -/
structure Reports (sr dr : Nat → Word) (call : Nat → UsartProgram (Option Int)) : Prop where
  returned : ∀ polls trace result, Ends (call polls) trace (some result) →
    Answers sr dr 0 0 trace → Reported result trace
  silent : NeverReturns sr dr call → ∀ polls trace outcome, Ends (call polls) trace outcome →
    Answers sr dr 0 0 trace → ¬Flagged trace

end Values

section Waits

/-- Turn `j` of the wait that starts at position `n` of the SR values goes on to the next. -/
def Quiet (sr : Nat → Word) (timeout : Word) (n j : Nat) : Prop :=
  ¬HasByte (sr (n + 2 * j)) ∧ ¬HasError (sr (n + 2 * j + 1)) ∧
    (timeout ≠ 0 → j + 1 < timeout.toNat)

/-- The wait that starts at position `n` ends in its turn `m`. -/
def WaitEnds (sr : Nat → Word) (timeout : Word) (n m : Nat) : Prop :=
  (∀ j < m, Quiet sr timeout n j) ∧ ¬Quiet sr timeout n m

/-- In the wait for one of the `remaining` bytes the loop test reads an error flag, and the
wait does not end because its body reads one: it ends in another way, or never. -/
inductive Overlooked (sr : Nat → Word) (timeout : Word) : Nat → Nat → Prop
  | here {n m j remaining : Nat} : WaitEnds sr timeout n m →
      HasByte (sr (n + 2 * m)) ∨ ¬HasError (sr (n + 2 * m + 1)) → j ≤ m →
      HasError (sr (n + 2 * j)) → Overlooked sr timeout n (remaining + 1)
  | forever {n j remaining : Nat} : (∀ i, Quiet sr timeout n i) →
      HasError (sr (n + 2 * j)) → Overlooked sr timeout n (remaining + 1)
  | later {n m remaining : Nat} : WaitEnds sr timeout n m → HasByte (sr (n + 2 * m)) →
      Overlooked sr timeout (n + 2 * m + 1) remaining →
      Overlooked sr timeout n (remaining + 1)

variable {sr dr : Nat → Word} {timeout : Word}

theorem waitEnds_unique {n m m' : Nat} (h : WaitEnds sr timeout n m)
    (h' : WaitEnds sr timeout n m') : m = m' := by
  rcases Nat.lt_trichotomy m m' with hlt | heq | hgt
  · exact absurd (h'.1 m hlt) h.2
  · exact heq
  · exact absurd (h.1 m' hgt) h'.2

theorem wait_ends_or_not (sr : Nat → Word) (timeout : Word) (n : Nat) :
    (∃ m, WaitEnds sr timeout n m) ∨ ∀ j, Quiet sr timeout n j := by
  classical
  by_cases hquiet : ∀ j, Quiet sr timeout n j
  · exact Or.inr hquiet
  · have hend := not_forall.mp hquiet
    exact Or.inl ⟨Nat.find hend, fun j hj => not_not.mp (Nat.find_min hend hj), Nat.find_spec hend⟩

/-- The reads of `k` SR values from position `n` on. -/
def polled (sr : Nat → Word) (n k : Nat) : List UsartAccess :=
  (List.range' n k).map fun i => .read .sr (sr i)

theorem polled_succ (n k : Nat) :
    polled sr n (k + 1) = .read .sr (sr n) :: polled sr (n + 1) k := rfl

theorem answers_polled (n d k : Nat) {rest : List UsartAccess} :
    Answers sr dr n d (polled sr n k ++ rest) ↔ Answers sr dr (n + k) d rest := by
  induction k generalizing n with
  | zero => rfl
  | succ k ih =>
      rw [polled_succ, List.cons_append, Answers, ih]
      simp [Nat.add_right_comm n 1 k, Nat.add_assoc]

theorem Answers.left {n d : Nat} {before after : List UsartAccess}
    (h : Answers sr dr n d (before ++ after)) : Answers sr dr n d before := by
  induction before generalizing n d with
  | nil => trivial
  | cons access before ih =>
      cases access with
      | read r v =>
          cases r with
          | sr => exact ⟨h.1, ih h.2⟩
          | dr => exact ⟨h.1, ih h.2⟩
          | data index => exact ih h
      | store how r v => exact ih h

theorem flagged_append {before after : List UsartAccess} :
    Flagged (before ++ after) ↔ Flagged before ∨ Flagged after := by
  simp only [Flagged, List.mem_append, or_and_right, exists_or]

theorem flagged_polled (n k : Nat) :
    Flagged (polled sr n k) ↔ ∃ i < k, HasError (sr (n + i)) := by
  constructor
  · rintro ⟨v, hv, herror⟩
    obtain ⟨i, hi, heq⟩ := List.mem_map.mp hv
    obtain ⟨hle, hlt⟩ := List.mem_range'_1.mp hi
    injection heq with _ heq
    exact ⟨i - n, by omega, by rwa [Nat.add_sub_of_le hle, heq]⟩
  · rintro ⟨i, hi, herror⟩
    exact ⟨_, List.mem_map.mpr ⟨n + i, List.mem_range'_1.mpr ⟨by omega, by omega⟩, rfl⟩, herror⟩

theorem values_polled {α : Type} {f : UsartAccess → Option α} (hf : ∀ v, f (.read .sr v) = none)
    (n k : Nat) : (polled sr n k).filterMap f = [] := by
  rw [List.filterMap_eq_nil_iff]
  intro access haccess
  obtain ⟨i, _, rfl⟩ := List.mem_map.mp haccess
  exact hf (sr i)

theorem stored_polled (n k : Nat) : (polled sr n k).filterMap storedByte = [] :=
  values_polled (fun _ => rfl) n k

theorem drs_polled (n k : Nat) : (polled sr n k).filterMap drValue = [] :=
  values_polled (fun _ => rfl) n k

theorem noticed_polled {result : Int} (n k : Nat) {rest : List UsartAccess} :
    Noticed result (polled sr n k ++ rest) ↔
      (∀ i < k, HasError (sr (n + i)) → result = -5 ∧ rest.filterMap storedByte = []) ∧
        Noticed result rest := by
  induction k generalizing n with
  | zero => simp [polled]
  | succ k ih =>
      rw [polled_succ, List.cons_append, Noticed, ih, List.filterMap_append, stored_polled,
        List.nil_append]
      constructor
      · rintro ⟨hhead, htail, hrest⟩
        refine ⟨fun i hi herror => ?_, hrest⟩
        cases i with
        | zero => exact hhead herror
        | succ i => exact htail i (by omega) (by rwa [Nat.add_right_comm, Nat.add_assoc])
      · rintro ⟨hall, hrest⟩
        refine ⟨hall 0 (by omega), fun i hi herror => ?_, hrest⟩
        exact hall (i + 1) (by omega) (by rwa [Nat.add_right_comm, Nat.add_assoc] at herror)

/-- How a wait that was not given up ends in turn `m`, and what it reads from turn `j` on. -/
inductive WaitOutcome (sr : Nat → Word) (n j m : Nat) : List UsartAccess → Int → Prop
  | byte : HasByte (sr (n + 2 * m)) →
      WaitOutcome sr n j m (polled sr (n + 2 * j) (2 * (m - j) + 1)) 0
  | error {v : Word} : ¬HasByte (sr (n + 2 * m)) → HasError (sr (n + 2 * m + 1)) →
      WaitOutcome sr n j m (polled sr (n + 2 * j) (2 * (m - j) + 2) ++ [.read .dr v]) (-5)
  | timedOut : ¬HasByte (sr (n + 2 * m)) → ¬HasError (sr (n + 2 * m + 1)) →
      WaitOutcome sr n j m (polled sr (n + 2 * j) (2 * (m - j) + 2)) (-2)

/-- A quiet turn before the others. -/
theorem WaitOutcome.turn {n j m : Nat} {trace : List UsartAccess} {result : Int} (hj : j < m)
    (h : WaitOutcome sr n (j + 1) m trace result) :
    WaitOutcome sr n j m (.read .sr (sr (n + 2 * j)) :: .read .sr (sr (n + 2 * j + 1)) :: trace)
      result := by
  have hturn : ∀ k, polled sr (n + 2 * j) (2 * (m - j) + k) =
      .read .sr (sr (n + 2 * j)) :: .read .sr (sr (n + 2 * j + 1)) ::
        polled sr (n + 2 * (j + 1)) (2 * (m - (j + 1)) + k) := by
    intro k
    have hcount : 2 * (m - j) + k = 2 * (m - (j + 1)) + k + 1 + 1 := by omega
    rw [hcount, polled_succ, polled_succ]
    rfl
  cases h with
  | byte hbyte => simpa only [hturn] using WaitOutcome.byte (j := j) hbyte
  | @error v hnone herror =>
      simpa only [hturn, List.cons_append] using
        WaitOutcome.error (j := j) (v := v) hnone herror
  | timedOut hnone hclean =>
      simpa only [hturn] using WaitOutcome.timedOut (j := j) hnone hclean

theorem waitRxne_ends {polls n d j : Nat} {count : Word} {trace : List UsartAccess}
    {result : Int} (h : Ends (waitRxne timeout polls count) trace (some result))
    (hanswers : Answers sr dr (n + 2 * j) d trace)
    (hcount : timeout ≠ 0 → count.toNat + j = timeout.toNat ∧ 0 < count.toNat)
    (hquiet : ∀ i < j, Quiet sr timeout n i) :
    ∃ m, WaitEnds sr timeout n m ∧ j ≤ m ∧ WaitOutcome sr n j m trace result := by
  induction polls generalizing j count trace with
  | zero => simp [waitRxne] at h
  | succ polls ih =>
      rw [waitRxne, ends_readReg_bind] at h
      obtain ⟨status, rest, rfl, h⟩ := h
      obtain ⟨rfl, hanswers⟩ := hanswers
      split at h
      · next hbyte =>
          obtain ⟨rfl, hresult⟩ := ends_done.mp h
          obtain rfl := Option.some.inj hresult
          refine ⟨j, ⟨hquiet, fun hq => hq.1 hbyte⟩, Nat.le_refl j, ?_⟩
          simpa [polled] using WaitOutcome.byte (j := j) hbyte
      · next hnone =>
          rw [ends_readReg_bind] at h
          obtain ⟨value, rest, rfl, h⟩ := h
          obtain ⟨rfl, hanswers⟩ := hanswers
          split at h
          · next herror =>
              rw [ends_readReg_bind] at h
              obtain ⟨v, rest, rfl, h⟩ := h
              obtain ⟨rfl, hresult⟩ := ends_done.mp h
              obtain rfl := Option.some.inj hresult
              refine ⟨j, ⟨hquiet, fun hq => hq.2.1 herror⟩, Nat.le_refl j, ?_⟩
              simpa [polled, List.range'] using WaitOutcome.error (j := j) (v := v) hnone herror
          · next hclean =>
              -- a turn that is not the last one
              have hgo : ∀ {count' : Word}, Ends (waitRxne timeout polls count') rest
                  (some result) → (timeout ≠ 0 → count'.toNat + (j + 1) = timeout.toNat ∧
                    0 < count'.toNat) → ∃ m, WaitEnds sr timeout n m ∧ j ≤ m ∧
                    WaitOutcome sr n j m (.read .sr (sr (n + 2 * j)) ::
                      .read .sr (sr (n + 2 * j + 1)) :: rest) result := by
                intro count' hrest hcount'
                have hturn : Quiet sr timeout n j := ⟨hnone, hclean, fun hne => by
                  have := hcount' hne
                  omega⟩
                obtain ⟨m, hm, hj, houtcome⟩ := ih hrest hanswers hcount' fun i hi =>
                  (Nat.lt_succ_iff_lt_or_eq.mp hi).elim (hquiet i) fun heq => heq ▸ hturn
                exact ⟨m, hm, by omega, houtcome.turn (by omega)⟩
              split at h
              · next htimeout =>
                  obtain ⟨hsum, hpos⟩ := hcount htimeout
                  split at h
                  · next hzero =>
                      obtain ⟨rfl, hresult⟩ := ends_done.mp h
                      obtain rfl := Option.some.inj hresult
                      have hlast : count.toNat = 1 := by bv_omega
                      refine ⟨j, ⟨hquiet, fun hq => ?_⟩, Nat.le_refl j, ?_⟩
                      · have := hq.2.2 htimeout
                        omega
                      · simpa [polled, List.range'] using
                          WaitOutcome.timedOut (j := j) hnone hclean
                  · next hleft =>
                      refine hgo h fun _ => ?_
                      bv_omega
              · next hforever => exact hgo h fun hne => absurd hne hforever

/-- The turns of a wait that is given up. -/
theorem waitRxne_givenUp {polls n d j : Nat} {count : Word} {trace : List UsartAccess}
    (h : Ends (waitRxne timeout polls count) trace none)
    (hanswers : Answers sr dr (n + 2 * j) d trace)
    (hcount : timeout ≠ 0 → count.toNat + j = timeout.toNat ∧ 0 < count.toNat) :
    trace = polled sr (n + 2 * j) (2 * polls) ∧ ∀ i < polls, Quiet sr timeout n (j + i) := by
  induction polls generalizing j count trace with
  | zero =>
      obtain ⟨rfl, _⟩ := ends_done.mp h
      exact ⟨rfl, fun i hi => absurd hi (Nat.not_lt_zero i)⟩
  | succ polls ih =>
      rw [waitRxne, ends_readReg_bind] at h
      obtain ⟨status, rest, rfl, h⟩ := h
      obtain ⟨rfl, hanswers⟩ := hanswers
      split at h
      · simp [ends_done] at h
      · next hnone =>
          rw [ends_readReg_bind] at h
          obtain ⟨value, rest, rfl, h⟩ := h
          obtain ⟨rfl, hanswers⟩ := hanswers
          split at h
          · simp [ends_readReg_bind, ends_done] at h
          · next hclean =>
              have hgo : ∀ {count' : Word}, Ends (waitRxne timeout polls count') rest none →
                  (timeout ≠ 0 → count'.toNat + (j + 1) = timeout.toNat ∧ 0 < count'.toNat) →
                  Access.read Location.sr (sr (n + 2 * j)) ::
                      .read .sr (sr (n + 2 * j + 1)) :: rest =
                    polled sr (n + 2 * j) (2 * (polls + 1)) ∧
                  ∀ i < polls + 1, Quiet sr timeout n (j + i) := by
                intro count' hrest hcount'
                obtain ⟨rfl, hquiet⟩ := ih hrest hanswers hcount'
                refine ⟨rfl, fun i hi => ?_⟩
                cases i with
                | zero =>
                    refine ⟨hnone, hclean, fun hne => ?_⟩
                    have := hcount' hne
                    omega
                | succ i =>
                    have hnext := hquiet i (by omega)
                    rwa [Nat.add_right_comm, Nat.add_assoc] at hnext
              split at h
              · next htimeout =>
                  obtain ⟨hsum, hpos⟩ := hcount htimeout
                  split at h
                  · simp [ends_done] at h
                  · refine hgo h fun _ => ?_
                    bv_omega
              · next hforever => exact hgo h fun hne => absurd hne hforever

theorem wait_givenUp {polls n d : Nat} {trace : List UsartAccess}
    (h : Ends (waitRxne timeout polls timeout) trace none) (hanswers : Answers sr dr n d trace) :
    trace = polled sr n (2 * polls) ∧ ∀ j < polls, Quiet sr timeout n j := by
  obtain ⟨htrace, hquiet⟩ := waitRxne_givenUp (j := 0) h hanswers
    (fun hne => ⟨rfl, by bv_omega⟩)
  exact ⟨htrace, fun j hj => Nat.zero_add j ▸ hquiet j hj⟩

/-- The whole wait for one byte. -/
theorem wait_ends {polls n d : Nat} {trace : List UsartAccess} {result : Int}
    (h : Ends (waitRxne timeout polls timeout) trace (some result))
    (hanswers : Answers sr dr n d trace) :
    ∃ m, WaitEnds sr timeout n m ∧ WaitOutcome sr n 0 m trace result := by
  obtain ⟨m, hm, _, houtcome⟩ := waitRxne_ends (j := 0) h hanswers
    (fun hne => ⟨rfl, by bv_omega⟩) (by simp)
  exact ⟨m, hm, houtcome⟩

end Waits

end Stm32f411.UsartReceive
