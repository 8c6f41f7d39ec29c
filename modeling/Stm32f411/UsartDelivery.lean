import Stm32f411.UsartDevice

/-!
The way in: a call puts the bytes it reads into its buffer, but for one at most, which it
reports.
-/

namespace Stm32f411.UsartDelivery

open Stm32f411.LabelledRuns
open Stm32f411.RegisterPrograms
open Stm32f411.RtosTypes
open Stm32f411.UsartReceive
open Stm32f411.UsartTransmit
open Stm32f411.UsartDevice

variable {s s' : UsartState} {timeout : Word} {polls : Nat}

theorem delivered_run {c c' : UsartProgram (Option Int) × UsartState}
    {events : List (Option UsartAccess)} (hrun : Run (Moves usart) c events c')
    (hs : Delivered c.2) : Delivered c'.2 := by
  apply hrun.preserves (I := fun c => Delivered c.2) _ hs
  rintro c event c' hs hmove
  cases hmove with
  | hardware hmove => exact hmove.delivered hs
  | read heffect => exact delivered_effect heffect hs
  | store heffect => exact delivered_effect heffect hs

/-- The `index` bytes read since `before` are in the buffer. -/
def Kept (before : List Word) (index : Nat) (s : UsartState) : Prop :=
  ∃ kept, kept.length = index ∧ s.taken = before ++ kept ∧
    (List.range index).map s.buffer = kept.map (· &&& 0xFF)

/-- One more was read, and is not stored yet. -/
def Taken (before : List Word) (index : Nat) (v : Word) (s : UsartState) : Prop :=
  ∃ kept, kept.length = index ∧ s.taken = before ++ kept ++ [v] ∧
    (List.range index).map s.buffer = kept.map (· &&& 0xFF)

/-- The buffer of a call with its outcome. The one byte it may drop is reported. -/
def Stored (before : List Word) (expected : Nat) (outcome : Option Int) (s : UsartState) :
    Prop :=
  ∃ kept dropped, s.taken = before ++ kept ++ dropped ∧
    (List.range kept.length).map s.buffer = kept.map (· &&& 0xFF) ∧ kept.length ≤ expected ∧
    (outcome = some 0 → kept.length = expected) ∧ dropped.length ≤ 1 ∧
    (dropped ≠ [] → outcome = some (-5))

variable {before : List Word} {index expected : Nat}

theorem kept_stable : Stable usart (Kept before index) := by
  rintro s s' hs h
  rwa [Kept, h.data.1, h.data.2]

theorem taken_stable {v : Word} : Stable usart (Taken before index v) := by
  rintro s s' hs h
  rwa [Taken, h.data.1, h.data.2]

theorem stored_stable {outcome : Option Int} :
    Stable usart (Stored before expected outcome) := by
  rintro s s' hs h
  rwa [Stored, h.data.1, h.data.2]

/-- Where a byte waits. -/
def Waits (before : List Word) (index : Nat) (s : UsartState) : Prop :=
  Kept before index s ∧ s.rxne = true

theorem waits_stable : Stable usart (Waits before index) := by
  rintro s s' ⟨hkept, hrxne⟩ h
  refine ⟨kept_stable s s' hkept h, ?_⟩
  cases h with
  | load _ _ => exact hrxne
  | finish _ => exact hrxne
  | arrive v => rfl

theorem Kept.stored {outcome : Option Int} (h : Kept before index s) (hindex : index ≤ expected)
    (hall : outcome = some 0 → index = expected) : Stored before expected outcome s := by
  obtain ⟨kept, rfl, htaken, hbuffer⟩ := h
  exact ⟨kept, [], by simpa using htaken, hbuffer, hindex, hall, by simp, by simp⟩

abbrev Receives {α : Type} (Q : α → UsartState → Prop) (p : UsartProgram α)
    (s : UsartState) : Prop :=
  Always usart (fun _ _ _ => True) Q p s

/-- A wait leaves the bytes alone, but for the one read with an error. -/
theorem waitRxne_receives (hindex : index ≤ expected) (count : Word)
    (hs : Kept before index s) :
    Receives (fun outcome s => (outcome = some 0 → Waits before index s) ∧
        (outcome ≠ some 0 → Stored before expected outcome s))
      (waitRxne timeout polls count) s := by
  have hfail : ∀ {outcome : Option Int} {s}, outcome ≠ some 0 →
      Stored before expected outcome s →
      Receives (fun outcome s => (outcome = some 0 → Waits before index s) ∧
        (outcome ≠ some 0 → Stored before expected outcome s)) (.done outcome) s :=
    fun houtcome hs => always_done stored_stable hs fun _ hs =>
      ⟨fun hzero => absurd hzero houtcome, fun _ => hs⟩
  have hshort : ∀ {outcome : Option Int} {s : UsartState}, outcome ≠ some 0 →
      Kept before index s → Stored before expected outcome s :=
    fun houtcome hs => hs.stored hindex fun hzero => absurd hzero houtcome
  induction polls generalizing count s with
  | zero => exact hfail (by simp) (hshort (by simp) hs)
  | succ polls ih =>
      rw [waitRxne]
      refine always_readReg_bind kept_stable hs fun s v s' hs heffect => ⟨trivial, ?_⟩
      obtain ⟨hshows, rfl⟩ := heffect
      have hread : Kept before index s.readSr := hs
      split
      · next hflag =>
          exact always_done waits_stable ⟨hread, hshows.rxne.mp hflag⟩ fun _ hs =>
            ⟨fun _ => hs, fun hne => absurd rfl hne⟩
      · refine always_readReg_bind kept_stable hread fun s v s' hs heffect => ⟨trivial, ?_⟩
        obtain ⟨-, rfl⟩ := heffect
        have hread : Kept before index s.readSr := hs
        split
        · -- the error is cleared by a read of DR, and the byte in it goes with it
          refine always_readReg_bind kept_stable hread fun s v s' hs heffect => ⟨trivial, ?_⟩
          obtain ⟨-, rfl⟩ := heffect
          obtain ⟨kept, rfl, htaken, hbuffer⟩ := hs
          refine hfail (by decide) ⟨kept, s.waiting, ?_, hbuffer, hindex, by simp, ?_, by simp⟩
          · rw [UsartState.readDr, htaken]
          · unfold UsartState.waiting
            split
            · exact Nat.le_refl 1
            · exact Nat.zero_le 1
        · split
          · split
            · exact hfail (by decide) (hshort (by decide) hread)
            · exact ih _ hread
          · exact ih _ hread

theorem receiveFrom_receives (remaining : Nat) (hexpected : index + remaining = expected)
    (hs : Kept before index s) :
    Receives (Stored before expected) (receiveFrom timeout polls index remaining) s := by
  induction remaining generalizing index s with
  | zero =>
      exact always_done kept_stable hs fun _ hs => hs.stored (by omega) fun _ => by omega
  | succ remaining ih =>
      rw [receiveFrom, Receives, always_bind]
      have hindex : index ≤ expected := by omega
      refine (waitRxne_receives hindex timeout hs).mono (fun _ _ _ h => h)
        fun outcome s hwaited => ?_
      split
      · next hzero =>
          refine always_readReg_bind waits_stable (hwaited.1 hzero)
            fun s v s' hwaits heffect => ⟨trivial, ?_⟩
          obtain ⟨rfl, rfl⟩ := heffect
          obtain ⟨⟨kept, hlength, htaken, hbuffer⟩, hrxne⟩ := hwaits
          have hread : Taken before index s.rdr s.readDr := by
            refine ⟨kept, hlength, ?_, hbuffer⟩
            simp [UsartState.readDr, UsartState.waiting, hrxne, htaken]
          refine always_store_bind taken_stable hread fun s' s'' hread heffect => ⟨trivial, ?_⟩
          obtain rfl : s'' = s'.storeData index _ := heffect
          refine ih (by omega) ?_
          obtain ⟨kept, rfl, htaken, hbuffer⟩ := hread
          refine ⟨kept ++ [s.rdr], by simp, ?_, ?_⟩
          · simpa [UsartState.storeData] using htaken
          · rw [List.range_succ, List.map_append, List.map_append, ← hbuffer]
            congr 1
            · refine List.map_congr_left fun i hi => ?_
              have hne : i ≠ kept.length := Nat.ne_of_lt (List.mem_range.mp hi)
              simp [UsartState.storeData, hne]
            · simp [UsartState.storeData]
      · next hfailed => exact always_done stored_stable (hwaited.2 hfailed) fun _ hs => hs

/-- The calls that send leave the received bytes alone. -/
def NoTake : UsartAccess → Prop
  | .read .dr _ => False
  | .store _ (.data _) _ => False
  | _ => True

theorem waitFlag_noTake (flag : Word) (count : Word) :
    Only NoTake (waitFlag flag timeout polls count) := by
  induction polls generalizing count with
  | zero => trivial
  | succ polls ih =>
      refine fun v => ⟨trivial, ?_⟩
      refine only_ite (fun _ => trivial) fun _ => only_ite (fun _ => ?_) fun _ => ih count
      exact only_ite (fun _ => trivial) fun _ => ih _

theorem transmitFrom_noTake {data : Nat → Byte} (index remaining : Nat) :
    Only NoTake (transmitFrom timeout polls data index remaining) := by
  induction remaining generalizing index with
  | zero => exact waitFlag_noTake _ _
  | succ remaining ih =>
      refine only_bind (waitFlag_noTake _ _) fun outcome => only_ite (fun _ => ?_) fun _ => trivial
      exact ⟨trivial, ih (index + 1)⟩

theorem kept_effect {access : UsartAccess} (htake : NoTake access)
    (h : usartEffect s access s') (hs : Kept before index s) : Kept before index s' := by
  cases effect_cases h with
  | readSr _ => exact hs
  | readDr => exact htake.elim
  | readData => exact hs
  | storeSr => exact hs
  | writeDr => exact hs
  | storeData => exact htake.elim

theorem noTake_receives {p : UsartProgram (Option Int)} (hp : Only NoTake p)
    (hs : Kept before index s) : Receives (fun _ s => Kept before index s) p s :=
  hp.always kept_stable
    (fun _ _ _ htake hs heffect => ⟨trivial, kept_effect htake heffect hs⟩) hs

theorem call_receives (call : UsartCall) (hs : Kept before 0 s) :
    Receives (Stored before call.expects) call.program s := by
  have hrefused : ∀ {expected : Nat},
      Receives (Stored before expected) (pure (some (-1))) s := fun {expected} =>
    always_done kept_stable hs fun _ hs =>
      hs.stored (Nat.zero_le expected) fun hzero => absurd hzero (by decide)
  have hsends : ∀ {data : Nat → Byte} {polls remaining : Nat} {timeout : Word},
      Receives (Stored before 0) (transmitFrom timeout polls data 0 remaining) s :=
    (noTake_receives (transmitFrom_noTake 0 _) hs).mono (fun _ _ _ h => h)
      fun _ _ hs => hs.stored (Nat.le_refl 0) fun _ => rfl
  cases call with
  | transmit polls instancePtr data len timeout =>
      cases instancePtr with
      | none => exact hrefused
      | some p =>
          cases data with
          | none => exact hrefused
          | some data => exact hsends
  | writeByte polls instancePtr byte timeout =>
      cases instancePtr with
      | none => exact hrefused
      | some p => exact hsends
  | puts polls instancePtr str timeout =>
      cases instancePtr with
      | none => exact hrefused
      | some p =>
          cases str with
          | none => exact hrefused
          | some str =>
              rw [UsartCall.program, usartPuts_eq]
              exact hsends
  | receive polls instancePtr data len timeout =>
      rw [UsartCall.program, usartReceive]
      split
      · exact hrefused
      · exact receiveFrom_receives _ (Nat.zero_add _) hs
  | readByte polls instancePtr byte timeout =>
      rw [UsartCall.program, usartReadByte, usartReceive]
      split
      · exact hrefused
      · split
        · exact hrefused
        · exact receiveFrom_receives _ (Nat.zero_add _) hs

theorem calls_delivered (h : Reachable CallStep (· = .idle) s) : Delivered s := by
  refine h.invariant ?_ fun s x s' _ hs hstep => delivered_run hstep hs
  rintro s rfl
  rfl

end Stm32f411.UsartDelivery
