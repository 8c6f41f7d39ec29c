import Stm32f411.DmaConfigurations

/-!
What every register access of the driver keeps, from any state with legal streams.
-/

namespace Stm32f411.DmaGuarantee

open Stm32f411.BitMasks
open Stm32f411.RegisterPrograms
open Stm32f411.RtosTypes
open Stm32f411.DmaStreams
open Stm32f411.DmaConfigurations

section Guarantee

/-- The event flags of a stream in LISR or HISR: FEIF, DMEIF, TEIF, HTIF and TCIF. -/
def eventFlags (stream : Nat) : Word :=
  match stream % 4 with
  | 0 => 0x3D
  | 1 => 0xF40
  | 2 => 0x3D0000
  | _ => 0xF400000

/-- The store that clears all event flags of a stream. -/
def clearEvents (controller : Controller) (stream : Nat) : DmaAccess :=
  .store .assign (if stream < 4 then .lifcr controller else .hifcr controller)
    (eventFlags stream)

/-- What an access of a call does to any stream. -/
structure Lawful (s s' : DmaState) : Prop where
  enabling : ∀ controller stream, ¬(s.streams controller stream).Enabled →
    (s'.streams controller stream).Enabled →
      Startable controller (s'.streams controller stream) ∧
        s.lastStore = some (clearEvents controller stream)
  steady : ∀ controller stream, (s.streams controller stream).Enabled →
    (s'.streams controller stream).par = (s.streams controller stream).par ∧
    (s'.streams controller stream).m0ar = (s.streams controller stream).m0ar ∧
    (s'.streams controller stream).modes = (s.streams controller stream).modes ∧
    (s'.streams controller stream).fcr = (s.streams controller stream).fcr

/-- Every stream has legal mode fields. -/
def Good (s : DmaState) : Prop :=
  ∀ controller stream, Configured controller (s.streams controller stream)

variable {s s' : DmaState} {c : Controller} {n : Nat} {r r' : DmaStream}

@[simp] theorem setStream_self : (s.setStream c n r).streams c n = r := by
  simp [DmaState.setStream]

theorem setStream_of_ne {c' : Controller} {n' : Nat} (h : ¬(c' = c ∧ n' = n)) :
    (s.setStream c n r).streams c' n' = s.streams c' n' := by
  simp [DmaState.setStream, h]

theorem lawful_of_streams (h : s'.streams = s.streams) : Lawful s s' := by
  constructor
  · intro c n hdisabled henabled
    exact absurd (h ▸ henabled) hdisabled
  · intro c n _
    rw [h]
    exact ⟨rfl, rfl, rfl, rfl⟩

theorem Good.of_streams (hs : Good s) (h : s'.streams = s.streams) : Good s' := by
  intro c n
  rw [h]
  exact hs c n

/-- A store to a disabled stream. -/
theorem lawful_setStream (hdisabled : ¬(s.streams c n).Enabled)
    (hs' : s'.streams = (s.setStream c n r).streams)
    (hr : r.Enabled → Startable c r ∧ s.lastStore = some (clearEvents c n)) :
    Lawful s s' := by
  constructor
  · intro c' n' hbefore hafter
    rw [hs'] at hafter ⊢
    by_cases h : c' = c ∧ n' = n
    · obtain ⟨rfl, rfl⟩ := h
      rw [setStream_self] at hafter ⊢
      exact hr hafter
    · rw [setStream_of_ne h] at hafter
      exact absurd hafter hbefore
  · intro c' n' henabled
    have h : ¬(c' = c ∧ n' = n) := by
      rintro ⟨rfl, rfl⟩
      exact hdisabled henabled
    rw [hs', setStream_of_ne h]
    exact ⟨rfl, rfl, rfl, rfl⟩

theorem Good.setStream (hs : Good s) (hs' : s'.streams = (s.setStream c n r).streams)
    (hr : Configured c r) : Good s' := by
  intro c' n'
  rw [hs']
  by_cases h : c' = c ∧ n' = n
  · obtain ⟨rfl, rfl⟩ := h
    rwa [setStream_self]
  · rw [setStream_of_ne h]
    exact hs c' n'

theorem good_stable : Stable dma Good := fun _ _ hs hmove c n =>
  (hs c n).of_modes (Hardware.modes (hmove.1 c n)) (hmove.1 c n).2.2.2.2

/-- A store that cannot come too early to disable a stream. -/
theorem store_effect {how : Assignment} {location : Location} {v : Word}
    (h : dma.effect s (.store how location v) s')
    (hdisabled : ∀ c n, location = .cr c n → ¬(s.streams c n).Enabled) :
    s' = { s.store how location v with lastStore := some (.store how location v) } := by
  rcases h with h | h
  · exact h
  · rw [h]
    cases location with
    | cr c n =>
        have hen := not_enabled_iff.mp (hdisabled c n rfl)
        simp [DmaState.storeLate, DmaState.store, hen]
    | _ => rfl

end Guarantee

section Programs

variable {α : Type} {s : DmaState} {c : Controller} {n : Nat} {r : DmaStream}

/-- Every access is lawful, and the streams stay legal. -/
abbrev Keeps (p : DmaProgram α) (s : DmaState) : Prop :=
  Always dma (fun s _ s' => Lawful s s') (fun _ s => Good s) p s

theorem keeps_done (hs : Good s) (a : α) : Keeps (pure a) s :=
  always_done good_stable hs fun _ h => h

theorem keeps_read {location : Location} {f : Word → DmaProgram α} (hs : Good s)
    (h : ∀ s v, Good s → s.value location v → Keeps (f v) s) :
    Keeps (readReg location >>= f) s := by
  refine always_readReg_bind good_stable hs fun s v s' hs heffect => ?_
  obtain ⟨hv, rfl⟩ := heffect
  exact ⟨lawful_of_streams rfl, h s' v hs hv⟩

theorem clearFlags_keeps {stream flags : Word} (hs : Good s) :
    Keeps (dmaClearFlags c stream flags) s := by
  unfold dmaClearFlags
  split
  · exact keeps_done hs _
  · refine always_store_bind good_stable hs fun s s' hs heffect => ?_
    have hs' : s'.streams = s.streams := by
      rcases heffect with rfl | rfl <;> split <;> rfl
    exact ⟨lawful_of_streams hs', keeps_done (hs.of_streams hs') _⟩

theorem abortWait_keeps (timeout : Nat) (hs : Good s) :
    Keeps (dmaAbortWait c n timeout) s := by
  induction timeout generalizing s with
  | zero => exact keeps_done hs _
  | succ timeout ih =>
      rw [dmaAbortWait]
      refine keeps_read hs fun s v hs _ => ?_
      split
      · split
        · exact keeps_done hs _
        · exact ih hs
      · exact keeps_done hs _

/-- Clearing EN, at once or when the transfer under way ends. -/
theorem abort_effect {s' : DmaState} (h : dma.effect s (.store .clear (.cr c n) dmaSxCrEn) s') :
    s'.lastStore = some (.store .clear (.cr c n) dmaSxCrEn) ∧ s'.lisr = s.lisr ∧
      s'.hisr = s.hisr ∧ (s'.streams = s.streams ∨
        s'.streams = (s.setStream c n
          { s.streams c n with cr := (s.streams c n).modes }).streams) := by
  rcases h with rfl | rfl
  · exact ⟨rfl, rfl, rfl, Or.inr rfl⟩
  · refine ⟨rfl, rfl, rfl, Or.inl ?_⟩
    have hkeep : (s.streams c n).cr &&& ~~~dmaSxCrEn ||| ((s.streams c n).cr &&& dmaSxCrEn) =
        (s.streams c n).cr := clear_or_and
    funext c' n'
    by_cases h : c' = c ∧ n' = n
    · obtain ⟨rfl, rfl⟩ := h
      simp [DmaState.storeLate, assigned, hkeep]
    · simp [DmaState.storeLate, setStream_of_ne h]

theorem abort_keeps {stream timeout : Word} (hs : Good s) :
    Keeps (dmaAbort c stream timeout) s := by
  unfold dmaAbort
  split
  · exact keeps_done hs _
  · refine always_store_bind good_stable hs fun s s' hs heffect => ?_
    obtain ⟨-, -, -, hs' | hs'⟩ := abort_effect heffect
    · exact ⟨lawful_of_streams hs', abortWait_keeps _ (hs.of_streams hs')⟩
    · refine ⟨⟨fun c' n' hbefore hafter => ?_, fun c' n' _ => ?_⟩, abortWait_keeps _ ?_⟩
      · rw [hs'] at hafter
        by_cases h : c' = c ∧ n' = stream.toNat
        · obtain ⟨rfl, rfl⟩ := h
          rw [setStream_self] at hafter
          exact absurd hafter modes_disabled
        · rw [setStream_of_ne h] at hafter
          exact absurd hafter hbefore
      · rw [hs']
        by_cases h : c' = c ∧ n' = stream.toNat
        · obtain ⟨rfl, rfl⟩ := h
          rw [setStream_self]
          exact ⟨rfl, rfl, modes_modes, rfl⟩
        · rw [setStream_of_ne h]
          exact ⟨rfl, rfl, rfl, rfl⟩
      · exact hs.setStream hs' ((hs c stream.toNat).of_modes modes_modes rfl)

/-- A disabled stream holds `r`. -/
def Parked (c : Controller) (n : Nat) (r : DmaStream) (s : DmaState) : Prop :=
  s.streams c n = r ∧ Good s

theorem parked_stable (hr : ¬r.Enabled) : Stable dma (Parked c n r) := by
  intro s s' hs hmove
  have hsame := Hardware.eq_of_disabled (hmove.1 c n) (by rwa [hs.1])
  exact ⟨hsame.trans hs.1, good_stable s s' hs.2 hmove⟩

/-- Loading one register of a disabled stream. -/
theorem parked_assign {location : Location} {v : Word} {q : DmaStream}
    {f : Unit → DmaProgram α} (hr : ¬r.Enabled) (hq : q.cr = r.cr) (hfcr : q.fcr = r.fcr)
    (hs : Parked c n r s)
    (hstore : ∀ s : DmaState, s.streams c n = r →
      (s.store .assign location v).streams = (s.setStream c n q).streams)
    (hcr : ∀ c' n', location ≠ .cr c' n') (h : ∀ s, Parked c n q s → Keeps (f ()) s) :
    Keeps (assignReg location v >>= f) s := by
  refine always_store_bind (parked_stable hr) hs fun s s' hs heffect => ?_
  have hdisabled : ¬(s.streams c n).Enabled := by rwa [hs.1]
  have heq := store_effect heffect fun c' n' hl => absurd hl (hcr c' n')
  have hs' : s'.streams = (s.setStream c n q).streams := by
    rw [heq]
    exact hstore s hs.1
  have hoff : ¬q.Enabled := by rwa [DmaStream.Enabled, hq]
  have hconf : Configured c q := by
    have hmodes : q.modes = r.modes := by rw [DmaStream.modes, hq, DmaStream.modes]
    exact (hs.1 ▸ hs.2 c n : Configured c r).of_modes hmodes hfcr
  refine ⟨lawful_setStream hdisabled hs' fun hen => absurd hen hoff, h s' ⟨?_, ?_⟩⟩
  · rw [hs', setStream_self]
  · exact hs.2.setStream hs' hconf

/-- Between the stores to CR and FCR only the other streams are known to be legal. -/
def Loading (c : Controller) (n : Nat) (cr : Word) (s : DmaState) : Prop :=
  (s.streams c n).cr = cr ∧
    ∀ c' n', ¬(c' = c ∧ n' = n) → Configured c' (s.streams c' n')

theorem Loading.disabled {cr : Word} (hcr : cr &&& dmaSxCrEn = 0) (hs : Loading c n cr s) :
    ¬(s.streams c n).Enabled :=
  not_enabled_iff.mpr (by rw [hs.1, hcr])

theorem loading_stable {cr : Word} (hcr : cr &&& dmaSxCrEn = 0) :
    Stable dma (Loading c n cr) := by
  intro s s' hs hmove
  have hsame := Hardware.eq_of_disabled (hmove.1 c n) (hs.disabled hcr)
  refine ⟨by rw [hsame, hs.1], fun c' n' hne => ?_⟩
  exact (hs.2 c' n' hne).of_modes (Hardware.modes (hmove.1 c' n')) (hmove.1 c' n').2.2.2.2

theorem loadFcr_keeps {config : DmaConfig} (h : Accepted c config)
    (hs : Loading c n (configCr config) s) :
    Keeps (do
      assignReg (.fcr c n) (configFcr config)
      pure (0 : Int)) s := by
  obtain ⟨-, -, -, -, hen⟩ := configCr_fields config
  refine always_store_bind (loading_stable hen) hs fun s s' hs heffect => ?_
  have heq := store_effect heffect fun _ _ hl => by cases hl
  have hs' : s'.streams =
      (s.setStream c n { s.streams c n with fcr := configFcr config }).streams := by
    rw [heq]
    rfl
  refine ⟨lawful_setStream (hs.disabled hen) hs' fun h => absurd h (hs.disabled hen), ?_⟩
  refine keeps_done (fun c' n' => ?_) 0
  rw [hs']
  by_cases hsame : c' = c ∧ n' = n
  · obtain ⟨rfl, rfl⟩ := hsame
    have hconfigured := configured_of_accepted h (s.streams c' n')
    rw [setStream_self]
    rwa [← hs.1] at hconfigured
  · rw [setStream_of_ne hsame]
    exact hs.2 c' n' hsame

theorem loadCr_keeps {config : DmaConfig} (h : Accepted c config) (hr : ¬r.Enabled)
    (hs : Parked c n r s) :
    Keeps (do
      assignReg (.cr c n) (configCr config)
      assignReg (.fcr c n) (configFcr config)
      pure (0 : Int)) s := by
  obtain ⟨-, -, -, -, hen⟩ := configCr_fields config
  refine always_store_bind (parked_stable hr) hs fun s s' hs heffect => ?_
  have hoff : ¬(s.streams c n).Enabled := by rwa [hs.1]
  have heq := store_effect heffect fun c' n' hl => by
    obtain ⟨rfl, rfl⟩ := Location.cr.inj hl
    exact hoff
  have hs' : s'.streams =
      (s.setStream c n { s.streams c n with cr := configCr config }).streams := by
    rw [heq]
    rfl
  refine ⟨lawful_setStream hoff hs' fun h => absurd hen h, loadFcr_keeps h ?_⟩
  rw [Loading, hs', setStream_self]
  refine ⟨rfl, fun c' n' hne => ?_⟩
  rw [setStream_of_ne hne]
  exact hs.2 c' n'

theorem init_keeps {stream : Word} {config : Option DmaConfig} (hs : Good s) :
    Keeps (dmaInit c stream config) s := by
  unfold dmaInit
  split
  · exact keeps_done hs _
  split
  · exact keeps_done hs _
  next hvalid =>
  cases config with
  | none => exact keeps_done hs _
  | some config =>
      have haccepted := accepted_of_validate (not_not.mp hvalid)
      refine always_store good_stable hs fun s s' hs heffect => ?_
      have hclock : s'.streams = s.streams := by
        rcases heffect with rfl | rfl <;> rfl
      refine ⟨lawful_of_streams hclock, ?_⟩
      refine keeps_read (hs.of_streams hclock) fun s _ hs _ => ?_
      refine always_readReg_bind good_stable hs fun s cr s' hs heffect => ?_
      obtain ⟨hcr, rfl⟩ := heffect
      refine ⟨lawful_of_streams rfl, ?_⟩
      split
      · exact keeps_done hs _
      · next hdisabled =>
          rw [hcr] at hdisabled
          exact loadCr_keeps haccepted hdisabled ⟨rfl, hs⟩

theorem offset_eventFlags (stream : Word) :
    dmaEventAll <<< dmaGetStreamOffset stream = eventFlags stream.toNat := by
  have hmod : (stream &&& 0x3).toNat = stream.toNat % 4 := by
    rw [BitVec.toNat_and]
    exact Nat.and_two_pow_sub_one_eq_mod stream.toNat 2
  have hlt : stream.toNat % 4 < 4 := Nat.mod_lt _ (by decide)
  rw [dmaGetStreamOffset, eventFlags, hmod]
  obtain h | h | h | h : stream.toNat % 4 = 0 ∨ stream.toNat % 4 = 1 ∨ stream.toNat % 4 = 2 ∨
      stream.toNat % 4 = 3 := by omega
  all_goals
    rw [h]
    decide

theorem clearAll_eq {stream : Word} (hvalid : ¬(dmaIsValidController c = false ∨
      dmaIsValidStream stream = false)) :
    dmaClearFlags c stream dmaEventAll = (do
      assignReg (if stream < 4 then .lifcr c else .hifcr c)
        (dmaEventAll <<< dmaGetStreamOffset stream)
      pure 0) := by
  have hflags : ¬(dmaIsValidController c = false ∨ dmaIsValidStream stream = false ∨
      dmaEventAll &&& ~~~dmaEventAll ≠ 0) := by
    rw [not_or] at hvalid
    exact not_or.mpr ⟨hvalid.1, not_or.mpr ⟨hvalid.2, by decide⟩⟩
  rw [dmaClearFlags, if_neg hflags]

/-- The last two stores of `dma_start`: all flags of the stream are cleared, EN is set. -/
theorem enable_keeps {stream : Word} (hvalid : ¬(dmaIsValidController c = false ∨
      dmaIsValidStream stream = false)) (hr : ¬r.Enabled)
    (hstart : Startable c { r with cr := r.cr ||| dmaSxCrEn })
    (hs : Parked c stream.toNat r s) :
    Keeps (do
      let status ← dmaClearFlags c stream dmaEventAll
      if status ≠ 0 then pure status
      else
        setBits (.cr c stream.toNat) dmaSxCrEn
        pure 0) s := by
  rw [clearAll_eq hvalid]
  refine always_store (parked_stable hr) hs fun s s' hs heffect => ?_
  have hs' : s'.streams = s.streams := by
    rcases heffect with rfl | rfl <;> split <;> rfl
  have hlast : s'.lastStore = some (clearEvents c stream.toNat) := by
    have hside : (stream < 4) ↔ stream.toNat < 4 := Iff.rfl
    rw [clearEvents, ← offset_eventFlags]
    simp only [← hside]
    rcases heffect with rfl | rfl <;> rfl
  refine ⟨lawful_of_streams hs', ?_⟩
  have hstable : Stable dma fun s => Parked c stream.toNat r s ∧
      s.lastStore = some (clearEvents c stream.toNat) := fun s s' h hmove =>
    ⟨parked_stable hr s s' h.1 hmove, hmove.2.2.2.trans h.2⟩
  have hparked : Parked c stream.toNat r s' := by
    rw [Parked, hs']
    exact ⟨hs.1, hs.2.of_streams hs'⟩
  refine always_store_bind hstable ⟨hparked, hlast⟩ fun s s' hs heffect => ?_
  have hdisabled : ¬(s.streams c stream.toNat).Enabled := by rwa [hs.1.1]
  have heq := store_effect heffect fun c' n' hl => by
    obtain ⟨rfl, rfl⟩ := Location.cr.inj hl
    exact hdisabled
  have hset : s'.streams =
      (s.setStream c stream.toNat { r with cr := r.cr ||| dmaSxCrEn }).streams := by
    rw [heq, ← hs.1.1]
    rfl
  exact ⟨lawful_setStream hdisabled hset fun _ => ⟨hstart, hs.2⟩,
    keeps_done (hs.1.2.setStream hset hstart.toConfigured) 0⟩

/-- Loading the three registers of a transfer and enabling the stream. -/
theorem transfer_keeps {stream : Word} {transfer : DmaTransfer}
    (hvalid : ¬(dmaIsValidController c = false ∨ dmaIsValidStream stream = false))
    (hr : ¬r.Enabled)
    (hstart : Startable c { r with
      cr := r.cr ||| dmaSxCrEn
      par := transfer.periphAddress
      m0ar := transfer.memoryAddress
      ndtr := transfer.itemCount })
    (hs : Parked c stream.toNat r s) :
    Keeps (do
      assignReg (.par c stream.toNat) transfer.periphAddress
      assignReg (.m0ar c stream.toNat) transfer.memoryAddress
      assignReg (.ndtr c stream.toNat) transfer.itemCount
      let status ← dmaClearFlags c stream dmaEventAll
      if status ≠ 0 then pure status
      else
        setBits (.cr c stream.toNat) dmaSxCrEn
        pure 0) s := by
  let r₁ : DmaStream := { r with par := transfer.periphAddress }
  let r₂ : DmaStream := { r₁ with m0ar := transfer.memoryAddress }
  let r₃ : DmaStream := { r₂ with ndtr := transfer.itemCount }
  refine parked_assign (q := r₁) hr rfl rfl hs
    (fun s h => by rw [DmaState.store, h]; rfl) (fun _ _ h => by cases h) fun s hs => ?_
  refine parked_assign (r := r₁) (q := r₂) hr rfl rfl hs
    (fun s h => by rw [DmaState.store, h]; rfl) (fun _ _ h => by cases h) fun s hs => ?_
  refine parked_assign (r := r₂) (q := r₃) hr rfl rfl hs
    (fun s h => by rw [DmaState.store, h]; rfl) (fun _ _ h => by cases h) fun s hs => ?_
  exact enable_keeps (r := r₃) hvalid hr hstart hs

theorem start_keeps {stream : Word} {transfer : Option DmaTransfer} (hs : Good s) :
    Keeps (dmaStart c stream transfer) s := by
  cases transfer with
  | none => exact keeps_done hs _
  | some transfer =>
      unfold dmaStart
      simp only
      split
      · exact keeps_done hs _
      next hvalid =>
      split
      · exact keeps_done hs _
      next hcount =>
      refine always_readReg_bind good_stable hs fun s cr s' hs heffect => ?_
      obtain ⟨hcr, rfl⟩ := heffect
      refine ⟨lawful_of_streams rfl, ?_⟩
      split
      · exact keeps_done hs _
      next hdisabled =>
      obtain ⟨r, hr⟩ : ∃ r, s'.streams c stream.toNat = r := ⟨_, rfl⟩
      have hoff : ¬r.Enabled := by rwa [hcr, hr] at hdisabled
      refine always_readReg_bind (parked_stable hoff) ⟨hr, hs⟩ fun s cr s' hs heffect => ?_
      obtain ⟨hcr, rfl⟩ := heffect
      obtain rfl : cr = r.cr := hcr.trans (by rw [hs.1])
      refine ⟨lawful_of_streams rfl, ?_⟩
      refine always_readReg_bind (parked_stable hoff) hs fun s cr s' hs heffect => ?_
      obtain ⟨hcr, rfl⟩ := heffect
      obtain rfl : cr = r.cr := hcr.trans (by rw [hs.1])
      refine ⟨lawful_of_streams rfl, ?_⟩
      split
      · exact keeps_done hs.2 _
      split
      · exact keeps_done hs.2 _
      next haligned =>
      split
      · exact keeps_done hs.2 _
      next hmultiple =>
      rw [not_or] at hcount haligned
      refine transfer_keeps hvalid hoff ?_ hs
      exact startable_of_checks (hs.1 ▸ hs.2 c stream.toNat) hcount.1
        (BitVec.not_lt.mp hcount.2) (not_not.mp haligned.1) (not_not.mp haligned.2)
        fun hlt => by_contra fun hne => hmultiple ⟨hlt, hne⟩

end Programs

end Stm32f411.DmaGuarantee
