import Stm32f411.RccTransients

/-!
Which calls of `rcc_sys_clk_config` keep the limits at every step: the hardware can make the
PLL run the system wherever the condition fails.
-/

namespace Stm32f411.RccSwitching

open Stm32f411.BitMasks
open Stm32f411.LabelledRuns
open Stm32f411.RegisterPrograms
open Stm32f411.RtosTypes
open Stm32f411.RccClock
open Stm32f411.RccTransients

section Paths

variable {I : ClockState → Prop} {Q : Int → ClockState → Prop} {s : ClockState} {α : Type}

theorem store_path {P : α → ClockState → Prop} {how : Assignment} {r : Location} {v : Word}
    {f : Unit → RccProgram α} (h : GuardedBy I P (Program.store how r v (.done ()) >>= f) s) :
    I (s.store how r v) ∧ GuardedBy I P (f ()) (s.store how r v) := by
  obtain ⟨hinv, hnext⟩ := h s .refl _ rfl
  exact ⟨hinv ⟨_, _, _, rfl⟩, hnext⟩

theorem read_path {P : α → ClockState → Prop} {r : Location} {v : Word}
    {f : Word → RccProgram α} (h : GuardedBy I P (readReg r >>= f) s) (hv : s.value r v) :
    GuardedBy I P (f v) s :=
  Always.after_read h ⟨hv, rfl⟩

/-- What CR shows when only ready flags are set. -/
def flags (s : ClockState) : Word :=
  (bif s.ready .hsi then rccCrHsirdy else 0) ||| (bif s.ready .hse then rccCrHserdy else 0) |||
    (bif s.ready .pll then rccCrPllrdy else 0)

theorem value_flags (s : ClockState) : s.value .cr (flags s) := by
  intro source
  unfold flags
  cases source <;> cases s.ready .hsi <;> cases s.ready .hse <;> cases s.ready .pll <;> decide

theorem await_path {r : Location} {done : Word → Bool} {v : Word} {timeout : Nat}
    {next : RccProgram Int} {rc : Int} (htimeout : timeout ≠ 0)
    (h : GuardedBy I Q (do if ← rccAwait r done timeout then next else pure rc) s)
    (hv : s.value r v) (hdone : done v = true) : GuardedBy I Q next s := by
  obtain ⟨timeout, rfl⟩ := Nat.exists_eq_succ_of_ne_zero htimeout
  rw [GuardedBy, always_bind, Nat.succ_eq_add_one, rccAwait] at h
  have hread := read_path h hv
  rw [if_pos hdone] at hread
  have hseen : GuardedBy I Q (if true = true then next else pure rc) s := hread s .refl
  rwa [if_pos rfl] at hseen

/-- The oscillator or the PLL comes up at once. -/
theorem start_path (source : Source) {next : RccProgram Int} {rc : Int}
    (h : GuardedBy I Q (do
      setBits .cr source.onBit
      if ← rccAwait .cr (fun cr => cr &&& source.rdyBit ≠ 0) rccTimeout then next
      else pure rc) s) :
    I (s.store .set .cr source.onBit) ∧
      GuardedBy I Q next ((s.store .set .cr source.onBit).setReady source true) := by
  obtain ⟨hinv, hnext⟩ := store_path h
  have hon : (s.store .set .cr source.onBit).On source := by
    have hbit : (s.cr ||| source.onBit) &&& source.onBit = source.onBit := set_and_self
    change (s.cr ||| source.onBit) &&& source.onBit ≠ 0
    rw [hbit]
    cases source <;> decide
  have hrise := Always.hardware hnext (.single (.rise source hon))
  refine ⟨hinv, await_path (by decide) hrise (value_flags _) ?_⟩
  rw [decide_eq_true_eq, value_flags _ source]
  exact setReady_self ..

theorem zero_path {next : RccProgram Int} {f : Int → Int}
    (h : GuardedBy I (fun rc s => GuardedBy I Q (if rc ≠ 0 then pure (f rc) else next) s)
      (pure 0) s) :
    GuardedBy I Q next s := by
  have hnext : GuardedBy I Q (if (0 : Int) ≠ 0 then pure (f 0) else next) s := h s .refl
  rwa [if_neg (by decide)] at hnext

theorem latency_path {flash : FlashLatency} {next : RccProgram Int} {f : Int → Int}
    (h : GuardedBy I Q (do
      let rc ← rccSetFlashLatency flash.value
      if rc ≠ 0 then pure (f rc) else next) s) :
    ∃ acr, acr &&& flashAcrLatencyMsk = flash.value ∧ I { s with acr := acr } ∧
      GuardedBy I Q next { s with acr := acr } := by
  have hwrite := latency_write s.acr flash
  rw [GuardedBy, always_bind] at h
  obtain ⟨hinv, hback⟩ := store_path (read_path h rfl)
  have hread := read_path hback (v := s.acr &&& ~~~flashAcrLatencyMsk |||
    (flash.value ||| flashAcrPrften ||| flashAcrIcen ||| flashAcrDcen)) rfl
  refine ⟨_, hwrite, hinv, ?_⟩
  rw [if_neg (not_not.mpr hwrite)] at hread
  exact zero_path hread

theorem prescalers_path {cfg : ClkInit} {f : Unit → RccProgram Int}
    (h : GuardedBy I Q (rccSetPrescalers cfg >>= f) s) :
    ∃ cfgr, cfgr &&& prescalersMsk = cfg.prescalers ∧
      cfgr &&& rccCfgrSwMsk = s.cfgr &&& rccCfgrSwMsk ∧ I { s with cfgr := cfgr } ∧
        GuardedBy I Q (f ()) { s with cfgr := cfgr } := by
  obtain ⟨hpre, hsw⟩ := prescalers_write (copy_of_read (s := s) rfl) cfg
  rw [GuardedBy, always_bind] at h
  obtain ⟨hinv, hnext⟩ := store_path (f := pure) (read_path h rfl)
  exact ⟨_, hpre, hsw, hinv, hnext _ .refl⟩

/-- On the way to an oscillator the PLL can run the system with every setting. -/
theorem runFrom_needs {cfg : ClkInit} {notReady : Int} (source : Source) (hne : source ≠ .pll)
    (h : Guarded Q (rccRunFrom cfg source.onBit source.rdyBit source.value notReady) s)
    (hmay : MayPll s) :
    Suits s.latency s.prescalers (pllFreq s.pllcfgr) ∧
      Suits cfg.flashLatency.value s.prescalers (pllFreq s.pllcfgr) ∧
        Suits cfg.flashLatency.value cfg.prescalers (pllFreq s.pllcfgr) := by
  have hbit : source.onBit &&& rccCrPllon = 0 := by
    cases source with
    | hsi => decide
    | hse => decide
    | pll => exact absurd rfl hne
  obtain ⟨hstart, hnext⟩ := start_path source h
  obtain ⟨acr, hacr, hlatency, hnext⟩ := latency_path (f := id) hnext
  obtain ⟨cfgr, hpre, hsw, hprescalers, -⟩ := prescalers_path hnext
  have hset : MayPll (s.store .set .cr source.onBit) :=
    hmay.imp_right fun ⟨hsel, hpll⟩ => ⟨hsel, hpll.imp_left (set_cr_on hbit).mpr⟩
  have hready : MayPll ((s.store .set .cr source.onBit).setReady source true) := by
    refine hset.imp_right fun ⟨hsel, hpll⟩ => ⟨hsel, hpll.imp_right fun hready => ?_⟩
    rw [setReady_of_ne (Ne.symm hne)]
    exact hready
  refine ⟨hstart.suits hset rfl rfl rfl, hlatency.suits hready hacr rfl rfl, ?_⟩
  exact hprescalers.suits (hready.imp_right fun ⟨hsel, hpll⟩ => ⟨hsw.trans hsel, hpll⟩)
    hacr hpre rfl

/-- Step 1 does nothing when SWS does not show the PLL. -/
theorem leave_skipped {next : RccProgram Int} (hsws : s.sws ≠ .pll)
    (h : GuardedBy I Q (do
      let rc ← rccLeavePll
      if rc ≠ 0 then pure rc else next) s) : GuardedBy I Q next s := by
  rw [GuardedBy, always_bind, rccLeavePll] at h
  have hread := read_path h rfl
  have hshown : (s.cfgr &&& ~~~rccCfgrSwsMsk ||| s.sws.value <<< 2) &&& rccCfgrSwsMsk ≠
      rccCfgrSwsPll := fun hpll => hsws ((read_cfgr_sws rfl .pll).mp hpll)
  rw [if_neg hshown] at hread
  exact zero_path (f := id) hread

theorem startPllSource_path {source : PllSource} {next : RccProgram Int}
    (h : GuardedBy I Q (do
      let rc ← rccStartPllSource source
      if rc ≠ 0 then pure rc else next) s) :
    ∃ s', s'.latency = s.latency ∧ s'.prescalers = s.prescalers ∧ s'.cfgr = s.cfgr ∧
      GuardedBy I Q next s' := by
  rw [GuardedBy, always_bind] at h
  cases source with
  | hse =>
      refine ⟨_, ?_, ?_, ?_, zero_path (f := id) (start_path .hse h).2⟩
      all_goals rfl
  | hsi =>
      refine ⟨_, ?_, ?_, ?_, zero_path (f := id) (start_path .hsi h).2⟩
      all_goals rfl

theorem startPll_needs {cfg : ClkInit} (h : Guarded Q (rccStartPll cfg) s)
    (hsel : s.Selects .pll) :
    Suits s.latency s.prescalers (pllFreq cfg.pll.pllcfgr) ∧
      Suits cfg.flashLatency.value s.prescalers (pllFreq cfg.pll.pllcfgr) := by
  rw [rccStartPll] at h
  have hpwr := read_path (read_path (store_path h).2 rfl) rfl
  have hpllcfgr := (store_path (store_path hpwr).2).2
  obtain ⟨hon, hnext⟩ := start_path .pll hpllcfgr
  obtain ⟨acr, hacr, hlatency, -⟩ := latency_path (f := id) hnext
  have hbit : (s.cr ||| rccCrPllon) &&& rccCrPllon = rccCrPllon := set_and_self
  constructor
  · refine hon.suits (Or.inr ⟨hsel, Or.inl ?_⟩) rfl rfl rfl
    change (s.cr ||| rccCrPllon) &&& rccCrPllon ≠ 0
    rw [hbit]
    decide
  · exact hlatency.suits (Or.inr ⟨hsel, Or.inr (by simp)⟩) hacr rfl rfl

/-- On the way to the PLL only a switch to it that is still pending makes it run the system. -/
theorem enterPll_needs {cfg : ClkInit} (hsource : cfg.sysclkSrc = .pll) (hsel : s.Selects .pll)
    (hsws : s.sws ≠ .pll) (h : Guarded Q (rccSysClkConfig cfg) s) :
    (s.On .pll ∨ s.ready .pll = true →
      Suits s.latency s.prescalers (pllFreq s.pllcfgr)) ∧
      Suits s.latency s.prescalers (pllFreq cfg.pll.pllcfgr) ∧
        Suits cfg.flashLatency.value s.prescalers (pllFreq cfg.pll.pllcfgr) := by
  unfold rccSysClkConfig at h
  simp only [hsource] at h
  constructor
  · intro hpll
    obtain ⟨s', hready, hsame, hsws', hnext⟩ : ∃ s', s'.ready .pll = true ∧
        (s'.latency = s.latency ∧ s'.prescalers = s.prescalers ∧ s'.pllcfgr = s.pllcfgr ∧
          s'.Selects .pll) ∧ s'.sws ≠ .pll ∧ Guarded Q _ s' := by
      rcases hpll with hon | hready
      · exact ⟨_, setReady_self .pll true, ⟨rfl, rfl, rfl, hsel⟩, hsws,
          Always.hardware h (.single (.rise .pll hon))⟩
      · exact ⟨s, hready, ⟨rfl, rfl, rfl, hsel⟩, hsws, h⟩
    obtain ⟨hlat, hpre, hpllcfgr, hsel'⟩ := hsame
    exact (store_path (leave_skipped hsws' hnext)).1.suits
      (Or.inr ⟨hsel', Or.inr hready⟩) hlat hpre hpllcfgr
  · have hcleared := (store_path (leave_skipped hsws h)).2
    have hfall := Always.hardware hcleared (.single (.fall .pll clear_cr_off))
    have hnext := await_path (by decide) hfall (value_flags _) (decide_eq_true ?_)
    · obtain ⟨s', hlat, hpre, hcfgr, hstart⟩ := startPllSource_path hnext
      have hneeds := startPll_needs hstart ((congrArg (· &&& rccCfgrSwMsk) hcfgr).trans hsel)
      rw [hlat, hpre] at hneeds
      exact hneeds
    · refine Classical.not_not.mp fun hflag => ?_
      have hready := (value_flags _ .pll).mp hflag
      rw [setReady_self] at hready
      cases hready

end Paths

section Calls

/-- From a state within limits a call keeps the limits at every step exactly when the PLL suits
what the call passes through. -/
theorem never_overclocks_iff (cfg : ClkInit) (s : ClockState) (hvalid : cfg.Valid)
    (hlimits : s.WithinLimits) : NeverOverclocks cfg s ↔ SwitchesSafely cfg s := by
  rw [neverOverclocks_iff]
  refine ⟨fun h => ?_, guarded_of_safely hvalid hlimits⟩
  unfold SwitchesSafely
  cases hsource : cfg.sysclkSrc with
  | hsi =>
      intro hmay
      unfold rccSysClkConfig at h
      simp only [hsource] at h
      exact runFrom_needs .hsi (by decide) h hmay
  | hse =>
      intro hmay
      unfold rccSysClkConfig at h
      simp only [hsource] at h
      exact runFrom_needs .hse (by decide) h hmay
  | pll =>
      intro hsel hsws
      rw [freq_of_pll hvalid hsource]
      exact enterPll_needs hsource hsel hsws h

/-- HSI with no wait states, every prescaler 1. -/
def slowTarget : ClkInit where
  sysclkSrc := .hsi
  ahbPrescaler := .div1
  apb1Prescaler := .div1
  apb2Prescaler := .div1
  flashLatency := .ws0
  pll := ⟨.hsi, 16, 400, .div4, 8⟩

/-- The PLL runs the system at 100 MHz, with 3 wait states and APB1 at half of it. -/
def fast : ClockState where
  cr := rccCrHsion ||| rccCrPllon
  cfgr := rccCfgrSwPll ||| (0x4 : Word) <<< 10
  pllcfgr := slowTarget.pll.pllcfgr
  apb1enr := rccApb1enrPwren
  acr := 3
  pwrCr := pwrCrVosScale1
  ready _ := true
  sws := .pll

theorem slowTarget_pll : pllFreq slowTarget.pll.pllcfgr = 100000000 := by
  have hrange : slowTarget.pll.InRange := ⟨by decide, by decide, by decide⟩
  rw [pllFreq_pllcfgr hrange]
  have hpllm : (16 : Word).toNat = 16 := by decide
  have hplln : (400 : Word).toNat = 400 := by decide
  norm_num [PllConfig.freq, PllConfig.sourceHz, PllP.divisor, slowTarget, hsiValue, hpllm, hplln]

theorem slowTarget_valid : slowTarget.Valid where
  inRange := by simp [slowTarget]
  suits := suits_oscillator (by simp [ClkInit.freq, slowTarget])
    (by simp [ClkInit.freq, slowTarget])

theorem fast_withinLimits : fast.WithinLimits := by
  have hhclk : hclkFreq fast.prescalers 100000000 = 100000000 := by
    have hdiv : ahbPrescalerTable.getD (field fast.prescalers rccCfgrHpreMsk 4) 1 = 1 := by decide
    rw [hclkFreq, hdiv]
    norm_num
  have hlatency : fast.latency.toNat = 3 := by decide
  have hpre1 : apbPrescalerTable.getD (field fast.prescalers rccCfgrPpre1Msk 10) 1 = 2 := by
    decide
  have hpre2 : apbPrescalerTable.getD (field fast.prescalers rccCfgrPpre2Msk 13) 1 = 1 := by
    decide
  change Suits fast.latency fast.prescalers (pllFreq slowTarget.pll.pllcfgr)
  rw [slowTarget_pll]
  refine ⟨?_, ?_, ?_⟩
  · rw [hhclk, hlatency]
    exact le_refl _
  · rw [pclk1Freq, hhclk, hpre1]
    norm_num
  · rw [pclk2Freq, hhclk, hpre2]
    norm_num

/-- The call takes the wait states away while the PLL still runs the system. -/
theorem wait_states_lost :
    slowTarget.Valid ∧ fast.WithinLimits ∧ ¬NeverOverclocks slowTarget fast := by
  refine ⟨slowTarget_valid, fast_withinLimits, fun h => ?_⟩
  obtain ⟨p, hrun⟩ : ∃ p, Run (Moves rcc) (rccSysClkConfig slowTarget, fast)
      [some (.store .set .cr rccCrHsion), some (.read .cr (flags fast)), some (.read .acr 3),
        some (.store .assign .acr 0x700)] (p, { fast with acr := 0x700 }) :=
    ⟨_, .cons (.store rfl) (.cons (.read ⟨value_flags _, rfl⟩)
      (.cons (.read ⟨rfl, rfl⟩) (.cons (.store rfl) .nil)))⟩
  have hlimits := h _ _ _ hrun ⟨.set, .cr, rccCrHsion, by simp⟩
  have hdiv : ahbPrescalerTable.getD (field fast.prescalers rccCfgrHpreMsk 4) 1 = 1 := by decide
  have hhclk : hclkFreq fast.prescalers (pllFreq slowTarget.pll.pllcfgr) ≤ 30000000 :=
    hlimits.hclk
  rw [slowTarget_pll, hclkFreq, hdiv] at hhclk
  norm_num at hhclk

/-- HSI with the wait states and the prescalers of `fast`. -/
def steadyTarget : ClkInit :=
  { slowTarget with apb1Prescaler := .div2, flashLatency := .ws3 }

theorem never_overclocks_iff_demo : NeverOverclocks steadyTarget fast := by
  have hvalid : steadyTarget.Valid :=
    ⟨by simp [steadyTarget, slowTarget], suits_oscillator
      (by simp [ClkInit.freq, steadyTarget, slowTarget])
      (by simp [ClkInit.freq, steadyTarget, slowTarget])⟩
  refine (never_overclocks_iff steadyTarget fast hvalid fast_withinLimits).mpr fun _ => ?_
  have hlatency : steadyTarget.flashLatency.value = fast.latency := by decide
  have hprescalers : steadyTarget.prescalers = fast.prescalers := by decide
  rw [hlatency, hprescalers]
  exact ⟨fast_withinLimits, fast_withinLimits, fast_withinLimits⟩

end Calls

end Stm32f411.RccSwitching
