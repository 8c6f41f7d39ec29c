import Stm32f411.RccSwitching
import Stm32f411.TruncatedQuotient

/-!
The read-back functions of `stm32f411_rcc.c` after `rcc_sys_clk_config` has selected the PLL.
The decoder divides by PLLM before it multiplies by PLLN.
-/

namespace Stm32f411.ClockReadback

open Stm32f411.BitMasks
open Stm32f411.LabelledRuns
open Stm32f411.RegisterPrograms
open Stm32f411.RtosTypes
open Stm32f411.RccClock
open Stm32f411.RccTransients
open Stm32f411.RccSwitching
open Stm32f411.TruncatedQuotient

section Driver

def rccCfgrSwsHse : Word := 0x4

/-- The clock at the input of the PLL. -/
def pllInput (pllcfgr : Word) : Nat :=
  if pllcfgr &&& rccPllcfgrPllsrc ≠ 0 then hseValue else hsiValue

/-- The branch `RCC_CFGR_SWS_PLL`. -/
def pllReadback (pllcfgr : Word) : Word :=
  let pllm := (pllcfgr &&& rccPllcfgrPllmMsk) >>> 0
  let plln := (pllcfgr &&& rccPllcfgrPllnMsk) >>> 6
  let pllp := ((pllcfgr &&& rccPllcfgrPllpMsk) >>> 16 + 1) * 2
  BitVec.ofNat 32 (pllInput pllcfgr) / pllm * plln / pllp

def rccGetSysclkFreq : RccProgram Word := do
  let cfgr ← readReg .cfgr
  if cfgr &&& rccCfgrSwsMsk = rccCfgrSwsHse then pure (BitVec.ofNat 32 hseValue)
  else if cfgr &&& rccCfgrSwsMsk = rccCfgrSwsPll then do
    let pllcfgr ← readReg .pllcfgr
    pure (pllReadback pllcfgr)
  else pure (BitVec.ofNat 32 hsiValue)

/-- A division by the entry of a prescaler table that a field of CFGR selects; the field is
read before the clock that is divided. -/
def rccGetDivided (mask : Word) (pos : Nat) (table : List Nat) (clock : RccProgram Word) :
    RccProgram Word := do
  let cfgr ← readReg .cfgr
  let freq ← clock
  pure (freq / BitVec.ofNat 32 (table.getD (field cfgr mask pos) 1))

def rccGetHclkFreq : RccProgram Word :=
  rccGetDivided rccCfgrHpreMsk 4 ahbPrescalerTable rccGetSysclkFreq

def rccGetPclk1Freq : RccProgram Word :=
  rccGetDivided rccCfgrPpre1Msk 10 apbPrescalerTable rccGetHclkFreq

def rccGetPclk2Freq : RccProgram Word :=
  rccGetDivided rccCfgrPpre2Msk 13 apbPrescalerTable rccGetHclkFreq

end Driver

section Frequencies

/-- The documented frequency, in whole hertz. -/
def sysclkHz (pll : PllConfig) : Nat :=
  pll.sourceHz * pll.plln.toNat / (pll.pllm.toNat * pll.pllp.divisor)

/-- What the decoder computes. -/
def truncatedHz (pll : PllConfig) : Nat :=
  pll.sourceHz / pll.pllm.toNat * pll.plln.toNat / pll.pllp.divisor

/-- The function returns, and it returns `hz`, whatever the hardware does. -/
def Returns (p : RccProgram Word) (s : ClockState) (hz : Nat) : Prop :=
  (∃ events freq s', Run (Moves rcc) (p, s) events (.done freq, s')) ∧
    ∀ events freq s', Run (Moves rcc) (p, s) events (.done freq, s') → freq.toNat = hz

/-- The frequencies read back are the configured ones, and no product on the way leaves the
32 bits. -/
structure ReadsBack (cfg : ClkInit) (s : ClockState) : Prop where
  sysclk : Returns rccGetSysclkFreq s (sysclkHz cfg.pll)
  hclk : Returns rccGetHclkFreq s (sysclkHz cfg.pll / cfg.ahbPrescaler.divisor)
  pclk1 : Returns rccGetPclk1Freq s
    (sysclkHz cfg.pll / cfg.ahbPrescaler.divisor / cfg.apb1Prescaler.divisor)
  pclk2 : Returns rccGetPclk2Freq s
    (sysclkHz cfg.pll / cfg.ahbPrescaler.divisor / cfg.apb2Prescaler.divisor)
  product : pllInput s.pllcfgr / field s.pllcfgr rccPllcfgrPllmMsk 0 *
    field s.pllcfgr rccPllcfgrPllnMsk 6 < 2 ^ 32
  divisor : (field s.pllcfgr rccPllcfgrPllpMsk 16 + 1) * 2 < 2 ^ 32

/-- Every successful run of the configuration ends in a state that reads back. -/
def InvertsConfig (cfg : ClkInit) (s₀ : ClockState) : Prop :=
  ∀ events s, Run (Moves rcc) (rccSysClkConfig cfg, s₀) events (.done 0, s) → ReadsBack cfg s

/-- What the division by PLLM cuts off, times PLLN, is in the remainder of the last division. -/
def NothingLost (pll : PllConfig) : Prop :=
  pll.sourceHz % pll.pllm.toNat * pll.plln.toNat ≤
    pll.sourceHz * pll.plln.toNat % (pll.pllm.toNat * pll.pllp.divisor)

end Frequencies

section Decoding

variable {pll : PllConfig} {cfg : ClkInit}

theorem divisor_pos (p : PllP) : 0 < p.divisor := by
  cases p <;> decide

theorem truncatedHz_eq_iff (h : pll.InRange) :
    truncatedHz pll = sysclkHz pll ↔ NothingLost pll :=
  div_mul_div_eq_iff (by have hpllm := h.pllm.1; omega) (divisor_pos pll.pllp)

theorem sourceHz_le (pll : PllConfig) : pll.sourceHz ≤ 16000000 := by
  unfold PllConfig.sourceHz
  split <;> decide

theorem product_lt (h : pll.InRange) :
    pll.sourceHz / pll.pllm.toNat * pll.plln.toNat < 2 ^ 32 := by
  have hquotient : pll.sourceHz / pll.pllm.toNat ≤ 16000000 / 2 :=
    Nat.div_le_div (sourceHz_le pll) h.pllm.1 (by decide)
  calc pll.sourceHz / pll.pllm.toNat * pll.plln.toNat
      ≤ 16000000 / 2 * 432 := Nat.mul_le_mul hquotient h.plln.2
    _ < 2 ^ 32 := by decide

/-- The words of the decoder follow the numbers. -/
theorem toNat_pllReadback (h : pll.InRange) :
    (pllReadback pll.pllcfgr).toNat = truncatedHz pll := by
  obtain ⟨hpllm, hplln, hpllp, hsource⟩ := decoded_fields h
  have hinput : pllInput pll.pllcfgr = pll.sourceHz := hsource
  have hle := sourceHz_le pll
  have hproduct := product_lt h
  have hone : (1 : Word).toNat = 1 := rfl
  have htwo : (2 : Word).toNat = 2 := rfl
  have hdivisor : pll.pllp.divisor ≤ 8 := by
    cases pll.pllp <;> decide
  unfold field at hpllm hplln hpllp
  rw [pllReadback, BitVec.toNat_udiv, BitVec.toNat_mul, BitVec.toNat_udiv, BitVec.toNat_mul,
    BitVec.toNat_add, BitVec.toNat_ofNat, hpllm, hplln, hone, htwo, hinput,
    Nat.mod_eq_of_lt (show pll.sourceHz < 2 ^ 32 by omega), Nat.mod_eq_of_lt hproduct,
    Nat.mod_eq_of_lt (show ((pll.pllcfgr &&& rccPllcfgrPllpMsk) >>> 16).toNat + 1 < 2 ^ 32 by
      omega), Nat.mod_eq_of_lt (by omega), hpllp]
  rfl

theorem divide_word (freq : Word) {d : Nat} (hd : d < 2 ^ 32) :
    (freq / BitVec.ofNat 32 d).toNat = freq.toNat / d := by
  rw [BitVec.toNat_udiv, BitVec.toNat_ofNat, Nat.mod_eq_of_lt hd]

/-- The prescaler fields, decoded through the tables. -/
theorem decoded_prescalers (cfg : ClkInit) :
    ahbPrescalerTable.getD (field cfg.prescalers rccCfgrHpreMsk 4) 1 =
        cfg.ahbPrescaler.divisor ∧
      apbPrescalerTable.getD (field cfg.prescalers rccCfgrPpre1Msk 10) 1 =
        cfg.apb1Prescaler.divisor ∧
      apbPrescalerTable.getD (field cfg.prescalers rccCfgrPpre2Msk 13) 1 =
        cfg.apb2Prescaler.divisor := by
  unfold field ClkInit.prescalers
  rw [or_and, or_and, or_and, or_and, or_and, or_and]
  have hahb : cfg.ahbPrescaler.value <<< 4 &&& rccCfgrPpre1Msk = 0 ∧
      cfg.ahbPrescaler.value <<< 4 &&& rccCfgrPpre2Msk = 0 := by
    cases cfg.ahbPrescaler <;> decide
  have hapb1 : cfg.apb1Prescaler.value <<< 10 &&& rccCfgrHpreMsk = 0 ∧
      cfg.apb1Prescaler.value <<< 10 &&& rccCfgrPpre2Msk = 0 := by
    cases cfg.apb1Prescaler <;> decide
  have hapb2 : cfg.apb2Prescaler.value <<< 13 &&& rccCfgrHpreMsk = 0 ∧
      cfg.apb2Prescaler.value <<< 13 &&& rccCfgrPpre1Msk = 0 := by
    cases cfg.apb2Prescaler <;> decide
  rw [hahb.1, hahb.2, hapb1.1, hapb1.2, hapb2.1, hapb2.2]
  refine ⟨?_, ?_, ?_⟩
  · cases cfg.ahbPrescaler <;> decide
  · cases cfg.apb1Prescaler <;> decide
  · cases cfg.apb2Prescaler <;> decide

end Decoding

section Forward

variable {cfg : ClkInit} {s : ClockState} {α : Type}

/-- Every end satisfies `Q`. -/
abbrev Ensures (Q : α → ClockState → Prop) (p : RccProgram α) (s : ClockState) : Prop :=
  GuardedBy (fun _ => True) Q p s

theorem ensures_iff_runs {Q : α → ClockState → Prop} {p : RccProgram α} : Ensures Q p s ↔
    ∀ events a s', Run (Moves rcc) (p, s) events (.done a, s') → Q a s' := by
  rw [Ensures, GuardedBy, always_iff_runs]
  constructor
  · exact fun h events a s' hrun => (h events _ s' hrun).2 a rfl
  · intro h events p' s' hrun
    refine ⟨fun _ _ _ _ _ => trivial, ?_⟩
    rintro a rfl
    exact h events a s' hrun

theorem ensures_true (p : RccProgram α) (s : ClockState) : Ensures (fun _ _ => True) p s :=
  ensures_iff_runs.mpr fun _ _ _ _ => trivial

/-- The registers hold the configuration, and the PLL runs the system. -/
structure Configured (cfg : ClkInit) (s : ClockState) : Prop where
  pllcfgr_eq : s.pllcfgr = cfg.pll.pllcfgr
  prescalers_eq : s.prescalers = cfg.prescalers
  sws_eq : s.sws = .pll
  selects : s.Selects .pll

/-- The hardware keeps PLLCFGR. -/
theorem pllcfgr_stable (pllcfgr : Word) : Stable rcc fun s => s.pllcfgr = pllcfgr := by
  intro s s' h hmove
  exact (Hardware.settings hmove).2.2.1.trans h

theorem settings_stable (pllcfgr prescalers : Word) :
    Stable rcc fun s => s.pllcfgr = pllcfgr ∧ s.prescalers = prescalers := by
  intro s s' h hmove
  obtain ⟨-, hpre, hpll, -, -⟩ := Hardware.settings hmove
  exact ⟨hpll.trans h.1, hpre.trans h.2⟩

/-- SWS stays at the clock that is selected. -/
theorem configured_stable (cfg : ClkInit) : Stable rcc (Configured cfg) := by
  intro s s' h hmove
  obtain ⟨⟨hpll, hpre⟩, hsws, hsel⟩ :=
    switched_stable (settings_stable cfg.pll.pllcfgr cfg.prescalers) .pll s s'
      ⟨⟨h.pllcfgr_eq, h.prescalers_eq⟩, h.sws_eq, h.selects⟩ hmove
  exact ⟨hpll, hpre, hsws, hsel⟩

theorem enterPll_ensures (hs : s.pllcfgr = cfg.pll.pllcfgr) :
    Ensures (fun rc s => rc = 0 → Configured cfg s) (rccEnterPll cfg) s := by
  have hpllcfgr := pllcfgr_stable cfg.pll.pllcfgr
  have hsettings := settings_stable cfg.pll.pllcfgr cfg.prescalers
  have hlatency : Ensures (fun rc s => rc = 0 → s.pllcfgr = cfg.pll.pllcfgr)
      (rccSetFlashLatency cfg.flashLatency.value) s :=
    setFlashLatency_rule hpllcfgr hpllcfgr hs fun _ _ hs _ => ⟨trivial, hs⟩
  refine success_bind id hlatency (fun _ h => h) fun s hs => always_bind.mpr ?_
  have hprescalers : Ensures (fun _ s => s.pllcfgr = cfg.pll.pllcfgr ∧
      s.prescalers = cfg.prescalers) (rccSetPrescalers cfg) s :=
    setPrescalers_rule hpllcfgr hsettings hs fun _ _ hs hpre _ => ⟨trivial, hs, hpre⟩
  refine hprescalers.mono (fun _ _ _ h => h) fun _ s hs => ?_
  have hswitch : Ensures _ (rccSwitchSysclk (Source.value .pll)) s :=
    switchSysclk_rule .pll hsettings hsettings hs fun _ _ hs hpre _ =>
      ⟨trivial, hs.1, hpre.trans hs.2⟩
  refine hswitch.mono (fun _ _ _ h => h) fun rc s h hzero => ?_
  obtain ⟨⟨hpll, hpre⟩, hsws, hsel⟩ := h hzero
  exact ⟨hpll, hpre, hsws, hsel⟩

theorem startPll_ensures (cfg : ClkInit) (s : ClockState) :
    Ensures (fun rc s => rc = 0 → Configured cfg s) (rccStartPll cfg) s := by
  have hany : Stable rcc fun _ => True := fun _ _ _ _ => trivial
  rw [rccStartPll]
  refine guarded_store hany trivial fun s _ => ⟨trivial, ?_⟩
  refine guarded_read hany trivial fun s _ _ _ => ?_
  refine guarded_read hany trivial fun s _ _ _ => ?_
  refine guarded_store hany trivial fun s _ => ⟨trivial, ?_⟩
  refine guarded_store hany trivial fun s _ => ⟨trivial, ?_⟩
  refine guarded_store (pllcfgr_stable cfg.pll.pllcfgr) rfl fun s hs => ⟨trivial, ?_⟩
  refine await_bind (await_guarded (pllcfgr_stable cfg.pll.pllcfgr) (pllcfgr_stable _)
    (fun s _ h _ _ => h) rccTimeout ?_) (fun _ hzero => absurd hzero (by decide)) fun s hs => ?_
  · exact hs
  · exact enterPll_ensures hs

/-- Whatever the state before, a success leaves the configuration in the registers. -/
theorem sysClkConfig_ensures (hsource : cfg.sysclkSrc = .pll) (s : ClockState) :
    Ensures (fun rc s => rc = 0 → Configured cfg s) (rccSysClkConfig cfg) s := by
  have hany : Stable rcc fun _ => True := fun _ _ _ _ => trivial
  have hdone {p : RccProgram Int} {s : ClockState} : Ensures (fun rc _ => rc = 0 → True) p s :=
    (ensures_true p s).mono (fun _ _ _ h => h) fun _ _ _ _ => trivial
  unfold rccSysClkConfig
  simp only [hsource]
  refine success_bind id hdone (fun _ h => h) fun s _ => ?_
  refine guarded_store hany trivial fun s _ => ⟨trivial, ?_⟩
  refine await_bind (B := fun _ => True) ?_ (fun _ hzero => absurd hzero (by decide))
    fun s _ => ?_
  · exact (ensures_true _ _).mono (fun _ _ _ h => h) fun _ _ _ _ => trivial
  · exact success_bind id hdone (fun _ h => h) fun s _ => startPll_ensures cfg s

end Forward

section Readback

variable {cfg : ClkInit} {s : ClockState} {hz : Nat}

theorem sysclk_ensures (h : Configured cfg s) :
    Ensures (fun freq s => freq = pllReadback cfg.pll.pllcfgr ∧ Configured cfg s)
      rccGetSysclkFreq s := by
  refine guarded_read (configured_stable cfg) h fun s v hs hv => ?_
  have hsws : v &&& rccCfgrSwsMsk = rccCfgrSwsPll := (read_cfgr_sws hv .pll).mpr hs.sws_eq
  rw [hsws, if_neg (by decide), if_pos rfl]
  refine guarded_read (configured_stable cfg) hs fun s pllcfgr hs hpllcfgr => ?_
  obtain rfl : pllcfgr = cfg.pll.pllcfgr := (show pllcfgr = s.pllcfgr from hpllcfgr).trans
    hs.pllcfgr_eq
  exact always_done (configured_stable cfg) hs fun _ h => ⟨rfl, h⟩

/-- A prescaler field read from CFGR is the configured one. -/
theorem field_of_read {v mask : Word} {pos : Nat} (h : Configured cfg s) (hv : s.value .cfgr v)
    (hsws : rccCfgrSwsMsk &&& mask = 0) (hmask : prescalersMsk &&& mask = mask) :
    field v mask pos = field cfg.prescalers mask pos := by
  have hbits : v &&& mask = cfg.prescalers &&& mask := by
    rw [(copy_of_read hv).and hsws, ← h.prescalers_eq, ClockState.prescalers, BitVec.and_assoc,
      hmask]
  rw [field, field, hbits]

theorem divided_ensures {mask : Word} {pos d : Nat} {table : List Nat} {clock : RccProgram Word}
    (h : Configured cfg s) (hsws : rccCfgrSwsMsk &&& mask = 0)
    (hmask : prescalersMsk &&& mask = mask)
    (htable : table.getD (field cfg.prescalers mask pos) 1 = d) (hd : d < 2 ^ 32)
    (hclock : ∀ s, Configured cfg s →
      Ensures (fun freq s => freq.toNat = hz ∧ Configured cfg s) clock s) :
    Ensures (fun freq s => freq.toNat = hz / d ∧ Configured cfg s)
      (rccGetDivided mask pos table clock) s := by
  refine guarded_read (configured_stable cfg) h fun s v hs hv => always_bind.mpr ?_
  refine (hclock s hs).mono (fun _ _ _ h => h) fun freq s hfreq => ?_
  rw [field_of_read hs hv hsws hmask, htable]
  refine always_done (configured_stable cfg) hfreq.2 fun _ hs => ⟨?_, hs⟩
  rw [divide_word freq hd, hfreq.1]

/-- A program always comes to its end: every register can be read and written. -/
theorem exists_readback (p : RccProgram Word) (s : ClockState) :
    ∃ events freq s', Run (Moves rcc) (p, s) events (.done freq, s') := by
  refine exists_run_done (fun s r => ?_) (fun s how r v => ⟨_, rfl⟩) p s
  cases r with
  | cr => exact ⟨_, s, value_flags s, rfl⟩
  | cfgr => exact ⟨_, s, rfl, rfl⟩
  | pllcfgr => exact ⟨_, s, rfl, rfl⟩
  | apb1enr => exact ⟨_, s, rfl, rfl⟩
  | acr => exact ⟨_, s, rfl, rfl⟩
  | pwrCr => exact ⟨_, s, rfl, rfl⟩

theorem returns_of_ensures {p : RccProgram Word}
    (h : Ensures (fun freq s => freq.toNat = hz ∧ Configured cfg s) p s) : Returns p s hz :=
  ⟨exists_readback p s, fun events freq s' hrun => (ensures_iff_runs.mp h events freq s' hrun).1⟩

theorem ahbDivisor_lt (p : AhbPrescaler) : p.divisor < 2 ^ 32 := by
  cases p <;> decide

theorem apbDivisor_lt (p : ApbPrescaler) : p.divisor < 2 ^ 32 := by
  cases p <;> decide

theorem sysclk_truncated (hrange : cfg.pll.InRange) (h : Configured cfg s) :
    Ensures (fun freq s => freq.toNat = truncatedHz cfg.pll ∧ Configured cfg s)
      rccGetSysclkFreq s := by
  refine (sysclk_ensures h).mono (fun _ _ _ h => h) ?_
  rintro _ s ⟨rfl, hs⟩
  exact ⟨toNat_pllReadback hrange, hs⟩

theorem hclk_truncated (hrange : cfg.pll.InRange) (h : Configured cfg s) :
    Ensures (fun freq s =>
      freq.toNat = truncatedHz cfg.pll / cfg.ahbPrescaler.divisor ∧ Configured cfg s)
      rccGetHclkFreq s :=
  divided_ensures h (by decide) (by decide) (decoded_prescalers cfg).1 (ahbDivisor_lt _)
    fun _ hs => sysclk_truncated hrange hs

/-- In a configured state the read-back is the configuration when nothing is lost. -/
theorem readsBack_of_nothingLost (hrange : cfg.pll.InRange) (hlost : NothingLost cfg.pll)
    (h : Configured cfg s) : ReadsBack cfg s := by
  obtain ⟨hpllm, hplln, hpllp, hsource⟩ := decoded_fields hrange
  obtain ⟨-, hpre1, hpre2⟩ := decoded_prescalers cfg
  have hexact := (truncatedHz_eq_iff hrange).mpr hlost
  have hsysclk := sysclk_truncated hrange h
  have hhclk (s : ClockState) (hs : Configured cfg s) := hclk_truncated hrange hs
  rw [hexact] at hsysclk hhclk
  refine ⟨returns_of_ensures hsysclk, returns_of_ensures (hhclk s h),
    returns_of_ensures (divided_ensures h (by decide) (by decide) hpre1 (apbDivisor_lt _) hhclk),
    returns_of_ensures (divided_ensures h (by decide) (by decide) hpre2 (apbDivisor_lt _) hhclk),
    ?_, ?_⟩
  · rw [h.pllcfgr_eq, hpllm, hplln, pllInput, hsource]
    exact product_lt hrange
  · rw [h.pllcfgr_eq, hpllp]
    cases cfg.pll.pllp <;> decide

end Readback

section Success

variable {I : ClockState → Prop} {Q : Int → ClockState → Prop} {s : ClockState}

/-- SWS follows a selection whose clock is ready. -/
theorem switch_path (source : Source) (hready : s.ready source = true)
    (h : GuardedBy I Q (rccSwitchSysclk source.value) s) : ∃ s', Q 0 s' := by
  have hstored := (store_path (read_path h rfl)).2
  have hsel := (switch_write (copy_of_read (s := s) rfl) source).2
  have hfollow := Always.hardware hstored (.single (.follow source hsel hready))
  have hdone := await_path (by decide) hfollow rfl
    (decide_eq_true ((read_cfgr_sws rfl source).mpr rfl))
  exact ⟨_, hdone _ .refl⟩

theorem leave_path {next : RccProgram Int} (h : GuardedBy I Q (do
      let rc ← rccLeavePll
      if rc ≠ 0 then pure rc else next) s) : ∃ s', GuardedBy I Q next s' := by
  by_cases hsws : s.sws = .pll
  · rw [GuardedBy, always_bind, rccLeavePll] at h
    have hread := read_path h rfl
    have hshown : (s.cfgr &&& ~~~rccCfgrSwsMsk ||| s.sws.value <<< 2) &&& rccCfgrSwsMsk =
        rccCfgrSwsPll := (read_cfgr_sws rfl .pll).mpr hsws
    rw [if_pos hshown] at hread
    obtain ⟨-, hstarted⟩ := start_path .hsi hread
    rw [GuardedBy, always_bind] at hstarted
    have hready := setReady_self (s := s.store .set .cr (Source.onBit .hsi)) .hsi true
    obtain ⟨s', hswitched⟩ := switch_path .hsi hready hstarted
    rw [if_neg (by decide)] at hswitched
    exact ⟨s', zero_path (f := id) hswitched⟩
  · exact ⟨s, leave_skipped hsws h⟩

theorem enterPll_path {cfg : ClkInit} (hready : s.ready .pll = true)
    (h : GuardedBy I Q (rccEnterPll cfg) s) : ∃ s', Q 0 s' := by
  obtain ⟨acr, -, -, hlatency⟩ := latency_path (f := id) h
  obtain ⟨cfgr, -, -, -, hswitch⟩ := prescalers_path hlatency
  refine switch_path .pll ?_ hswitch
  exact hready

theorem startPll_path {cfg : ClkInit} (h : GuardedBy I Q (rccStartPll cfg) s) :
    ∃ s', Q 0 s' := by
  rw [rccStartPll] at h
  have hpwr := read_path (read_path (store_path h).2 rfl) rfl
  have hpllcfgr := (store_path (store_path hpwr).2).2
  refine enterPll_path ?_ (start_path .pll hpllcfgr).2
  exact setReady_self ..

/-- The call can succeed from every state. -/
theorem exists_success {cfg : ClkInit} (hsource : cfg.sysclkSrc = .pll) (s : ClockState) :
    ∃ events s', Run (Moves rcc) (rccSysClkConfig cfg, s) events (.done 0, s') := by
  by_contra hnever
  have h : Ensures (fun rc _ => rc ≠ 0) (rccSysClkConfig cfg) s := by
    refine ensures_iff_runs.mpr ?_
    rintro events rc s' hrun rfl
    exact hnever ⟨events, s', hrun⟩
  unfold rccSysClkConfig at h
  simp only [hsource] at h
  obtain ⟨s₁, hleft⟩ := leave_path h
  have hfall := Always.hardware (store_path hleft).2 (.single (.fall .pll clear_cr_off))
  have hnext := await_path (by decide) hfall (value_flags _) (decide_eq_true ?_)
  · obtain ⟨s₂, -, -, -, hstart⟩ := startPllSource_path hnext
    obtain ⟨s₃, hzero⟩ := startPll_path hstart
    exact hzero rfl
  · refine Classical.not_not.mp fun hflag => ?_
    have hready := (value_flags _ .pll).mp hflag
    rw [setReady_self] at hready
    cases hready

end Success

section Calls

theorem nothingLost_of_inverts {cfg : ClkInit} {s₀ : ClockState} (hsource : cfg.sysclkSrc = .pll)
    (hrange : cfg.pll.InRange) (h : InvertsConfig cfg s₀) : NothingLost cfg.pll := by
  obtain ⟨events, s, hrun⟩ := exists_success hsource s₀
  have hconfigured : Configured cfg s :=
    ensures_iff_runs.mp (sysClkConfig_ensures hsource s₀) events 0 s hrun rfl
  obtain ⟨⟨reads, freq, s', hread⟩, hexact⟩ := (h events s hrun).sysclk
  have hreturns := returns_of_ensures (sysclk_truncated hrange hconfigured)
  have htruncated := hreturns.2 reads freq s' hread
  exact (truncatedHz_eq_iff hrange).mp (htruncated.symm.trans (hexact reads freq s' hread))

/-- From every prior state the read-back inverts a configuration of the PLL exactly when its
early division loses nothing. -/
theorem inverts_config_iff (cfg : ClkInit) (s₀ : ClockState) (hsource : cfg.sysclkSrc = .pll)
    (hrange : cfg.pll.InRange) : InvertsConfig cfg s₀ ↔ NothingLost cfg.pll := by
  refine ⟨nothingLost_of_inverts hsource hrange, fun hlost events s hrun => ?_⟩
  refine readsBack_of_nothingLost hrange hlost ?_
  exact ensures_iff_runs.mp (sysClkConfig_ensures hsource s₀) events 0 s hrun rfl

/-- HSE / 8 * 400 / 4, for 100 MHz. -/
def exactTarget : ClkInit where
  sysclkSrc := .pll
  ahbPrescaler := .div1
  apb1Prescaler := .div2
  apb2Prescaler := .div1
  flashLatency := .ws3
  pll := ⟨.hse, 8, 400, .div4, 8⟩

/-- HSE / 6 * 150 / 4, for 50 MHz. -/
def inexactTarget : ClkInit where
  sysclkSrc := .pll
  ahbPrescaler := .div1
  apb1Prescaler := .div1
  apb2Prescaler := .div1
  flashLatency := .ws1
  pll := ⟨.hse, 6, 150, .div4, 4⟩

theorem inverts_config_iff_demo : InvertsConfig exactTarget fast := by
  refine (inverts_config_iff exactTarget fast rfl ⟨by decide, by decide, by decide⟩).mpr ?_
  unfold NothingLost
  decide

/-- The read-back of 50 MHz is 49999987 Hz. -/
theorem readback_too_low :
    sysclkHz inexactTarget.pll = 50000000 ∧ truncatedHz inexactTarget.pll = 49999987 ∧
      (∀ events s, Run (Moves rcc) (rccSysClkConfig inexactTarget, fast) events (.done 0, s) →
        Returns rccGetSysclkFreq s 49999987) ∧ ¬InvertsConfig inexactTarget fast := by
  have hrange : inexactTarget.pll.InRange := ⟨by decide, by decide, by decide⟩
  have hlow : truncatedHz inexactTarget.pll = 49999987 := by decide
  refine ⟨by decide, hlow, fun events s hrun => ?_, fun h => ?_⟩
  · rw [← hlow]
    refine returns_of_ensures (sysclk_truncated hrange ?_)
    exact ensures_iff_runs.mp (sysClkConfig_ensures rfl fast) events 0 s hrun rfl
  · have hlost := nothingLost_of_inverts rfl hrange h
    rw [← truncatedHz_eq_iff hrange] at hlost
    exact absurd hlost (by decide)

end Calls

end Stm32f411.ClockReadback
