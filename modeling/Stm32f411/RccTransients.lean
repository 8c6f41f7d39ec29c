import Mathlib.Algebra.Order.Field.Basic
import Mathlib.Algebra.Order.Ring.Rat
import Mathlib.Tactic.Linarith
import Mathlib.Tactic.NormNum
import Stm32f411.BitMasks
import Stm32f411.RccClock

/-!
How `rcc_sys_clk_config` keeps the flash latency and the bus clocks within limits at every
step: the PLL, wherever it may still run the system, has to suit the settings that the call
passes through.
-/

namespace Stm32f411.RccTransients

open Relation
open Stm32f411.BitMasks
open Stm32f411.LabelledRuns
open Stm32f411.RegisterPrograms
open Stm32f411.RtosTypes
open Stm32f411.RccClock

section Limits

variable {latency prescalers : Word} {s s' : ClockState}

theorem one_le_getD {table : List Nat} (h : ∀ x ∈ table, 1 ≤ x) (i : Nat) :
    (1 : ℚ) ≤ table.getD i 1 := by
  have hget : 1 ≤ table.getD i 1 := by
    rw [List.getD_eq_getElem?_getD]
    cases hi : table[i]? with
    | none => exact Nat.le_refl 1
    | some x => exact h x (List.mem_of_getElem? hi)
  exact_mod_cast hget

theorem ahb_divides (i : Nat) : (1 : ℚ) ≤ ahbPrescalerTable.getD i 1 :=
  one_le_getD (by decide) i

theorem apb_divides (i : Nat) : (1 : ℚ) ≤ apbPrescalerTable.getD i 1 :=
  one_le_getD (by decide) i

/-- The oscillators suit every setting. -/
theorem suits_oscillator {f : ℚ} (hpos : 0 ≤ f) (hf : f ≤ hsiValue) :
    Suits latency prescalers f := by
  have hsixteen : f ≤ 16000000 := by simpa [hsiValue] using hf
  have hhclk : hclkFreq prescalers f ≤ f := div_le_self hpos (ahb_divides _)
  have hhclkPos : 0 ≤ hclkFreq prescalers f :=
    div_nonneg hpos (zero_le_one.trans (ahb_divides _))
  have hmax : 16000000 ≤ maxHclk latency.toNat := by
    unfold maxHclk
    split <;> norm_num
  have hpclk1 : pclk1Freq prescalers f ≤ f := (div_le_self hhclkPos (apb_divides _)).trans hhclk
  have hpclk2 : pclk2Freq prescalers f ≤ f := (div_le_self hhclkPos (apb_divides _)).trans hhclk
  exact ⟨hhclk.trans (hsixteen.trans hmax), by linarith, by linarith⟩

@[simp] theorem setReady_self (source : Source) (b : Bool) :
    (s.setReady source b).ready source = b :=
  Function.update_self ..

theorem setReady_of_ne {source source' : Source} (h : source' ≠ source) (b : Bool) :
    (s.setReady source b).ready source' = s.ready source' :=
  Function.update_of_ne h ..

/-- The PLL runs the system, or the hardware can make it. -/
def MayPll (s : ClockState) : Prop :=
  s.sws = .pll ∨ s.Selects .pll ∧ (s.On .pll ∨ s.ready .pll = true)

/-- Whatever the hardware does, the state stays within limits. -/
def Settled (s : ClockState) : Prop :=
  MayPll s → Suits s.latency s.prescalers (pllFreq s.pllcfgr)

theorem Settled.withinLimits (h : Settled s) : s.WithinLimits := by
  rw [ClockState.WithinLimits]
  cases hsws : s.sws with
  | hsi => exact suits_oscillator (by simp [sysclkFreq]) (by simp [sysclkFreq])
  | hse =>
      exact suits_oscillator (by simp [sysclkFreq])
        (by norm_num [sysclkFreq, hseValue, hsiValue])
  | pll => exact h (Or.inl hsws)

theorem Settled.suits {latency prescalers pllcfgr : Word} (h : Settled s) (hmay : MayPll s)
    (hlatency : s.latency = latency) (hprescalers : s.prescalers = prescalers)
    (hpllcfgr : s.pllcfgr = pllcfgr) : Suits latency prescalers (pllFreq pllcfgr) := by
  rw [← hlatency, ← hprescalers, ← hpllcfgr]
  exact h hmay

theorem selects_unique {source source' : Source} (h : s.Selects source)
    (h' : s.Selects source') : source = source' := by
  have hvalue : source.value = source'.value := h.symm.trans h'
  revert hvalue
  cases source <;> cases source' <;> decide

theorem Hardware.mayPll (h : s.Hardware s') (hmay : MayPll s') : MayPll s := by
  cases h with
  | rise source hon =>
      refine hmay.imp_right fun ⟨hsel, hpll⟩ => ⟨hsel, ?_⟩
      by_cases hsource : source = .pll
      · exact Or.inl (hsource ▸ hon)
      · refine hpll.imp_right fun hready => ?_
        rwa [setReady_of_ne (Ne.symm hsource)] at hready
  | fall source hoff =>
      refine hmay.imp_right fun ⟨hsel, hpll⟩ => ⟨hsel, ?_⟩
      refine hpll.imp_right fun hready => ?_
      by_cases hsource : source = .pll
      · subst hsource
        rw [setReady_self] at hready
        cases hready
      · rwa [setReady_of_ne (Ne.symm hsource)] at hready
  | follow source hsel hready =>
      rcases hmay with hsws | hmay
      · obtain rfl : source = .pll := hsws
        exact Or.inr ⟨hsel, Or.inr hready⟩
      · exact Or.inr hmay

theorem Hardware.settings (h : s.Hardware s') : s'.latency = s.latency ∧
    s'.prescalers = s.prescalers ∧ s'.pllcfgr = s.pllcfgr ∧ s'.cfgr = s.cfgr ∧
      s'.cr = s.cr := by
  cases h <;> exact ⟨rfl, rfl, rfl, rfl, rfl⟩

theorem settled_stable : Stable rcc Settled := by
  intro s s' hs hmove hmay
  obtain ⟨hlat, hpre, hpll, -, -⟩ := Hardware.settings hmove
  rw [hlat, hpre, hpll]
  exact hs (Hardware.mayPll hmove hmay)

/-- Otherwise the hardware can leave the limits. -/
theorem overclocks_of_not_settled (h : ¬Settled s) :
    ∃ s', ReflTransGen ClockState.Hardware s s' ∧ ¬s'.WithinLimits := by
  rw [Settled, Classical.not_imp] at h
  obtain ⟨hsws | ⟨hsel, hon | hready⟩, hsuits⟩ := h
  · refine ⟨s, .refl, ?_⟩
    rwa [ClockState.WithinLimits, hsws]
  · have hrise : ClockState.Hardware s (s.setReady .pll true) := .rise .pll hon
    exact ⟨_, (ReflTransGen.single hrise).tail (.follow .pll hsel (setReady_self ..)), hsuits⟩
  · exact ⟨_, .single (.follow .pll hsel hready), hsuits⟩

end Limits

section Frequency

variable {pll : PllConfig}

theorem pllcfgr_fields (h : pll.InRange) :
    pll.pllcfgr &&& rccPllcfgrPllmMsk = pll.pllm ∧
      pll.pllcfgr &&& rccPllcfgrPllnMsk = pll.plln <<< 6 ∧
      pll.pllcfgr &&& rccPllcfgrPllpMsk = pll.pllp.value <<< 16 ∧
      pll.pllcfgr &&& rccPllcfgrPllsrc = pll.pllSource.value <<< 22 := by
  have hpllm : pll.pllm &&& ~~~rccPllcfgrPllmMsk = 0 :=
    within_low (n := 6) (by decide) (Nat.lt_of_le_of_lt h.pllm.2 (by decide))
  have hplln : pll.plln <<< 6 &&& ~~~rccPllcfgrPllnMsk = 0 :=
    shift_within (within_low (n := 9) (by decide)
      (Nat.lt_of_le_of_lt h.plln.2 (by decide))) 6
  have hpllp : pll.pllp.value <<< 16 &&& ~~~rccPllcfgrPllpMsk = 0 := by
    cases pll.pllp <;> decide
  have hsource : pll.pllSource.value <<< 22 &&& ~~~rccPllcfgrPllsrc = 0 := by
    cases pll.pllSource <;> decide
  have hpllq : pll.pllq <<< 24 &&& ~~~((0xF : Word) <<< 24) = 0 :=
    shift_within (within_low (n := 4) (by decide)
      (Nat.lt_of_le_of_lt h.pllq.2 (by decide))) 24
  refine ⟨?_, ?_, ?_, ?_⟩
  · rw [PllConfig.pllcfgr, or_and, or_and, or_and, or_and, and_eq_of_within hpllm,
      and_of_within hplln (by decide), and_of_within hpllp (by decide),
      and_of_within hsource (by decide), and_of_within hpllq (by decide)]
    simp
  · rw [PllConfig.pllcfgr, or_and, or_and, or_and, or_and, and_eq_of_within hplln,
      and_of_within hpllm (by decide), and_of_within hpllp (by decide),
      and_of_within hsource (by decide), and_of_within hpllq (by decide)]
    simp
  · rw [PllConfig.pllcfgr, or_and, or_and, or_and, or_and, and_eq_of_within hpllp,
      and_of_within hpllm (by decide), and_of_within hplln (by decide),
      and_of_within hsource (by decide), and_of_within hpllq (by decide)]
    simp
  · rw [PllConfig.pllcfgr, or_and, or_and, or_and, or_and, and_eq_of_within hsource,
      and_of_within hpllm (by decide), and_of_within hplln (by decide),
      and_of_within hpllp (by decide), and_of_within hpllq (by decide)]
    simp

/-- The fields of PLLCFGR, decoded. -/
theorem decoded_fields (h : pll.InRange) :
    field pll.pllcfgr rccPllcfgrPllmMsk 0 = pll.pllm.toNat ∧
      field pll.pllcfgr rccPllcfgrPllnMsk 6 = pll.plln.toNat ∧
      (field pll.pllcfgr rccPllcfgrPllpMsk 16 + 1) * 2 = pll.pllp.divisor ∧
      (if pll.pllcfgr &&& rccPllcfgrPllsrc ≠ 0 then hseValue else hsiValue) = pll.sourceHz := by
  obtain ⟨hpllm, hplln, hpllp, hsource⟩ := pllcfgr_fields h
  have hback : pll.plln <<< 6 >>> 6 = pll.plln :=
    shift_back (by decide) (Nat.lt_of_le_of_lt h.plln.2 (by decide))
  refine ⟨?_, ?_, ?_, ?_⟩
  · rw [field, hpllm, BitVec.ushiftRight_zero]
  · rw [field, hplln, hback]
  · rw [field, hpllp]
    cases pll.pllp <;> decide
  · rw [hsource, PllConfig.sourceHz]
    cases pll.pllSource with
    | hsi => exact if_neg (by decide)
    | hse => exact if_pos (by decide)

theorem pllFreq_pllcfgr (h : pll.InRange) : pllFreq pll.pllcfgr = pll.freq := by
  obtain ⟨hpllm, hplln, hpllp, hsource⟩ := decoded_fields h
  have hcast (n : Nat) : ((n : ℚ) + 1) * 2 = Nat.cast ((n + 1) * 2) := by
    rw [Nat.cast_mul, Nat.cast_succ, Nat.cast_ofNat]
  rw [pllFreq, hpllm, hplln, hsource, hcast, hpllp, PllConfig.freq]

end Frequency

section Guard

/-- Every register write leaves a settled state. -/
abbrev Guarded {α : Type} (Q : α → ClockState → Prop) (p : RccProgram α) (s : ClockState) :
    Prop :=
  Always rcc (fun _ access s' => (∃ how r v, access = .store how r v) → Settled s') Q p s

/-- Every register write leaves a state in `I`. -/
abbrev GuardedBy {α : Type} (I : ClockState → Prop) (Q : α → ClockState → Prop)
    (p : RccProgram α) (s : ClockState) : Prop :=
  Always rcc (fun _ access s' => (∃ how r v, access = .store how r v) → I s') Q p s

theorem settled_after_store {Q : Int → ClockState → Prop} {p p' : RccProgram Int}
    {s s' : ClockState} {events : List (Option RccAccess)} (h : Guarded Q p s)
    (hrun : Run (Moves rcc) (p, s) events (p', s'))
    (hstore : ∃ how r v, some (.store how r v) ∈ events) : Settled s' := by
  generalize hfrom : (p, s) = c at hrun
  generalize hto : (p', s') = c' at hrun
  induction hrun generalizing p' s' with
  | nil =>
      obtain ⟨how, r, v, hmem⟩ := hstore
      cases hmem
  | @snoc labels middle last label hrun hlast ih =>
      subst hfrom
      obtain ⟨q, t⟩ := middle
      subst hto
      obtain ⟨how, r, v, hmem⟩ := hstore
      have hearlier : label ≠ some (.store how r v) → Settled t := by
        intro hne
        refine ih ⟨how, r, v, ?_⟩ rfl
        exact (List.mem_append.mp hmem).resolve_right fun h =>
          hne (List.mem_singleton.mp h).symm
      cases hlast with
      | hardware hmove => exact settled_stable _ _ (hearlier (by simp)) hmove
      | read heffect =>
          obtain ⟨-, rfl⟩ := heffect
          exact hearlier (by simp)
      | store heffect =>
          exact ((h.run hrun).move (.store heffect)).2 _ rfl ⟨_, _, _, rfl⟩

theorem neverOverclocks_iff (cfg : ClkInit) (s : ClockState) :
    NeverOverclocks cfg s ↔ Guarded (fun _ _ => True) (rccSysClkConfig cfg) s := by
  constructor
  · intro h
    refine always_iff_runs.mpr fun events p s' hrun => ⟨?_, fun _ _ => trivial⟩
    rintro access p'' s'' hmove ⟨how, r, v, rfl⟩
    by_contra hnot
    obtain ⟨t, hreach, hlimits⟩ := overclocks_of_not_settled hnot
    obtain ⟨later, hlater⟩ := run_hardware (D := rcc) p'' hreach
    refine hlimits (h _ _ t (hrun.append (.cons hmove hlater)) ⟨how, r, v, ?_⟩)
    simp
  · exact fun h events p s' hrun hstore => (settled_after_store h hrun hstore).withinLimits

end Guard

section Fields

variable {s : ClockState} {v : Word}

/-- A value read from CFGR, without SWS. The hardware does not make it stale. -/
def CopyOfCfgr (v : Word) (s : ClockState) : Prop :=
  v &&& ~~~rccCfgrSwsMsk = s.cfgr &&& ~~~rccCfgrSwsMsk

theorem copy_of_read (h : s.value .cfgr v) : CopyOfCfgr v s := by
  have hsws : s.sws.value <<< 2 &&& ~~~rccCfgrSwsMsk = 0 := by cases s.sws <;> decide
  rw [CopyOfCfgr, show v = _ from h, or_and, clear_clear, hsws]
  exact BitVec.or_zero

theorem CopyOfCfgr.and (h : CopyOfCfgr v s) {m : Word} (hm : rccCfgrSwsMsk &&& m = 0) :
    v &&& m = s.cfgr &&& m := by
  rw [← clear_and hm, h, clear_and hm]

theorem read_cfgr_sws (h : s.value .cfgr v) (source : Source) :
    v &&& rccCfgrSwsMsk = source.value <<< 2 ↔ s.sws = source := by
  have hsws : v &&& rccCfgrSwsMsk = s.sws.value <<< 2 := by
    have hwithin : s.sws.value <<< 2 &&& rccCfgrSwsMsk = s.sws.value <<< 2 := by
      cases s.sws <;> decide
    rw [show v = _ from h, or_and, clear_and_self, hwithin]
    exact BitVec.zero_or
  rw [hsws]
  cases s.sws <;> cases source <;> decide

theorem prescalers_and (cfg : ClkInit) : cfg.prescalers &&& prescalersMsk = cfg.prescalers ∧
    cfg.prescalers &&& rccCfgrSwMsk = 0 := by
  have hahb : cfg.ahbPrescaler.value <<< 4 &&& prescalersMsk = cfg.ahbPrescaler.value <<< 4 ∧
      cfg.ahbPrescaler.value <<< 4 &&& rccCfgrSwMsk = 0 := by
    cases cfg.ahbPrescaler <;> decide
  have hapb1 : cfg.apb1Prescaler.value <<< 10 &&& prescalersMsk =
      cfg.apb1Prescaler.value <<< 10 ∧ cfg.apb1Prescaler.value <<< 10 &&& rccCfgrSwMsk = 0 := by
    cases cfg.apb1Prescaler <;> decide
  have hapb2 : cfg.apb2Prescaler.value <<< 13 &&& prescalersMsk =
      cfg.apb2Prescaler.value <<< 13 ∧ cfg.apb2Prescaler.value <<< 13 &&& rccCfgrSwMsk = 0 := by
    cases cfg.apb2Prescaler <;> decide
  constructor
  · rw [ClkInit.prescalers, or_and, or_and, hahb.1, hapb1.1, hapb2.1]
  · rw [ClkInit.prescalers, or_and, or_and, hahb.2, hapb1.2, hapb2.2]
    rfl

/-- The write of `rcc_set_prescalers`. -/
theorem prescalers_write (h : CopyOfCfgr v s) (cfg : ClkInit) :
    (v &&& ~~~prescalersMsk ||| cfg.prescalers) &&& prescalersMsk = cfg.prescalers ∧
      (v &&& ~~~prescalersMsk ||| cfg.prescalers) &&& rccCfgrSwMsk = s.cfgr &&& rccCfgrSwMsk := by
  obtain ⟨hpre, hsw⟩ := prescalers_and cfg
  constructor
  · rw [or_and, clear_and_self, hpre]
    exact BitVec.zero_or
  · rw [or_and, clear_and (by decide), hsw, h.and (by decide)]
    exact BitVec.or_zero

/-- The write of `rcc_switch_sysclk`. -/
theorem switch_write (h : CopyOfCfgr v s) (source : Source) :
    (v &&& ~~~rccCfgrSwMsk ||| source.value) &&& prescalersMsk = s.cfgr &&& prescalersMsk ∧
      (v &&& ~~~rccCfgrSwMsk ||| source.value) &&& rccCfgrSwMsk = source.value := by
  have hsource : source.value &&& prescalersMsk = 0 ∧
      source.value &&& rccCfgrSwMsk = source.value := by
    cases source <;> decide
  constructor
  · rw [or_and, clear_and (by decide), hsource.1, h.and (by decide)]
    exact BitVec.or_zero
  · rw [or_and, clear_and_self, hsource.2]
    exact BitVec.zero_or

/-- The write of `rcc_set_flash_latency`. -/
theorem latency_write (acr : Word) (latency : FlashLatency) :
    (acr &&& ~~~flashAcrLatencyMsk ||| (latency.value ||| flashAcrPrften ||| flashAcrIcen |||
      flashAcrDcen)) &&& flashAcrLatencyMsk = latency.value := by
  have hlatency : (latency.value ||| flashAcrPrften ||| flashAcrIcen ||| flashAcrDcen) &&&
      flashAcrLatencyMsk = latency.value := by
    cases latency <;> decide
  rw [or_and, clear_and_self, hlatency]
  exact BitVec.zero_or

/-- Other bits of CR. -/
theorem set_cr_on {on : Word} (h : on &&& rccCrPllon = 0) :
    (s.store .set .cr on).On .pll ↔ s.On .pll := by
  have hbits : (s.cr ||| on) &&& rccCrPllon = s.cr &&& rccCrPllon := set_and h
  change ((s.cr ||| on) &&& rccCrPllon ≠ 0) ↔ (s.cr &&& rccCrPllon ≠ 0)
  rw [hbits]

theorem clear_cr_off : ¬(s.store .clear .cr rccCrPllon).On .pll :=
  not_not.mpr clear_and_self

end Fields

section Safety

variable {latency prescalers pllcfgr : Word} {m k : Prop} {s : ClockState}
  {I : ClockState → Prop}

/-- The settings of the moment, and what is known of the PLL: `m` when it runs the system or
the hardware can make it, `k` when it runs it or is selected. -/
structure Keeps (latency prescalers pllcfgr : Word) (m k : Prop) (s : ClockState) : Prop where
  latency_eq : s.latency = latency
  prescalers_eq : s.prescalers = prescalers
  pllcfgr_eq : s.pllcfgr = pllcfgr
  may : MayPll s → m
  reach : s.sws = .pll ∨ s.Selects .pll → k

theorem Keeps.settled (h : Keeps latency prescalers pllcfgr m k s)
    (hm : m → Suits latency prescalers (pllFreq pllcfgr)) : Settled s := by
  intro hmay
  rw [h.latency_eq, h.prescalers_eq, h.pllcfgr_eq]
  exact hm (h.may hmay)

theorem keeps_stable : Stable rcc (Keeps latency prescalers pllcfgr m k) := by
  intro s s' hs hmove
  obtain ⟨hlat, hpre, hpll, hcfgr, -⟩ := Hardware.settings hmove
  refine ⟨hlat.trans hs.latency_eq, hpre.trans hs.prescalers_eq, hpll.trans hs.pllcfgr_eq,
    fun hmay => hs.may (Hardware.mayPll hmove hmay), fun hreach => hs.reach ?_⟩
  have hselects : s'.Selects .pll → s.Selects .pll := fun h => by
    rwa [ClockState.Selects, hcfgr] at h
  refine hreach.elim (fun hsws => ?_) fun hsel => Or.inr (hselects hsel)
  cases hmove with
  | rise source _ => exact Or.inl hsws
  | fall source _ => exact Or.inl hsws
  | follow source hsel _ =>
      obtain rfl : source = .pll := hsws
      exact Or.inr hsel

/-- A state that differs in neither the settings nor the PLL. -/
theorem Keeps.of_eq {s' : ClockState} (h : Keeps latency prescalers pllcfgr m k s)
    (hacr : s'.latency = s.latency) (hpre : s'.prescalers = s.prescalers)
    (hpll : s'.pllcfgr = s.pllcfgr) (hsws : s'.sws = s.sws)
    (hsel : s'.Selects .pll → s.Selects .pll) (hon : s'.On .pll → s.On .pll)
    (hready : s'.ready = s.ready) : Keeps latency prescalers pllcfgr m k s' := by
  refine ⟨hacr.trans h.latency_eq, hpre.trans h.prescalers_eq, hpll.trans h.pllcfgr_eq,
    fun hmay => h.may ?_, fun hreach => h.reach ?_⟩
  · rw [MayPll, hsws, hready] at hmay
    exact hmay.imp_right fun ⟨h, hpll⟩ => ⟨hsel h, hpll.imp_left hon⟩
  · rw [hsws] at hreach
    exact hreach.imp_right hsel

theorem copy_stable {A : ClockState → Prop} (hA : Stable rcc A) (v : Word) :
    Stable rcc fun s => A s ∧ CopyOfCfgr v s := by
  intro s s' h hmove
  refine ⟨hA s s' h.1 hmove, ?_⟩
  rw [CopyOfCfgr, (Hardware.settings hmove).2.2.2.1]
  exact h.2

/-- With a clock selected, SWS can only come to it. -/
theorem selected_stable {A : ClockState → Prop} (hA : Stable rcc A) (source : Source) :
    Stable rcc fun s => A s ∧ s.Selects source := by
  intro s s' h hmove
  refine ⟨hA s s' h.1 hmove, ?_⟩
  rw [ClockState.Selects, (Hardware.settings hmove).2.2.2.1]
  exact h.2

theorem switched_stable {A : ClockState → Prop} (hA : Stable rcc A) (source : Source) :
    Stable rcc fun s => A s ∧ s.sws = source ∧ s.Selects source := by
  intro s s' h hmove
  obtain ⟨hs, hsel⟩ := selected_stable hA source s s' ⟨h.1, h.2.2⟩ hmove
  refine ⟨hs, ?_, hsel⟩
  cases hmove with
  | rise _ _ => exact h.2.1
  | fall _ _ => exact h.2.1
  | follow source' hsel' _ => exact selects_unique hsel' h.2.2

theorem guarded_store {α : Type} {A : ClockState → Prop} {Q : α → ClockState → Prop}
    {how : Assignment} {r : Location} {v : Word} {f : Unit → RccProgram α} (hA : Stable rcc A)
    (hs : A s) (h : ∀ s, A s → I (s.store how r v) ∧ GuardedBy I Q (f ()) (s.store how r v)) :
    GuardedBy I Q (Program.store how r v (.done ()) >>= f) s := by
  refine always_store_bind hA hs fun s s' hs heffect => ?_
  obtain rfl : s' = s.store how r v := heffect
  exact ⟨fun _ => (h s hs).1, (h s hs).2⟩

theorem guarded_read {α : Type} {A : ClockState → Prop} {Q : α → ClockState → Prop}
    {r : Location} {f : Word → RccProgram α} (hA : Stable rcc A) (hs : A s)
    (h : ∀ s v, A s → s.value r v → GuardedBy I Q (f v) s) :
    GuardedBy I Q (readReg r >>= f) s := by
  refine always_readReg_bind hA hs fun s v s' hs heffect => ?_
  obtain ⟨hv, rfl⟩ := heffect
  refine ⟨?_, h s' v hs hv⟩
  rintro ⟨how, r', v', hno⟩
  cases hno

theorem await_guarded {A B : ClockState → Prop} {r : Location} {done : Word → Bool}
    (hA : Stable rcc A) (hB : Stable rcc B)
    (hseen : ∀ s v, A s → s.value r v → done v = true → B s) (timeout : Nat) (hs : A s) :
    GuardedBy I (fun seen s => seen = true → B s) (rccAwait r done timeout) s := by
  induction timeout generalizing s with
  | zero => exact always_done hA hs fun _ _ h => by cases h
  | succ timeout ih =>
      rw [rccAwait]
      refine guarded_read hA hs fun s v hs hv => ?_
      split
      · next hdone => exact always_done hB (hseen s v hs hv hdone) fun _ h _ => h
      · split
        · exact always_done hA hs fun _ _ h => by cases h
        · exact ih hs

/-- A program that goes on only when the flag was seen. -/
theorem await_bind {B : ClockState → Prop} {Q : Int → ClockState → Prop} {p : RccProgram Bool}
    {next : RccProgram Int} {rc : Int} (hp : GuardedBy I (fun seen s => seen = true → B s) p s)
    (hfail : ∀ s, Q rc s) (hnext : ∀ s, B s → GuardedBy I Q next s) :
    GuardedBy I Q (do if ← p then next else pure rc) s := by
  rw [GuardedBy, always_bind]
  refine hp.mono (fun _ _ _ h => h) fun seen s hs => ?_
  split
  · next hseen => exact hnext s (hs hseen)
  · exact fun s' _ => hfail s'

/-- A program that goes on only after a success. -/
theorem success_bind {A B : ClockState → Prop} {p next : RccProgram Int} (fail : Int → Int)
    (hp : GuardedBy I (fun rc s => rc = 0 → A s) p s) (hfail : ∀ rc, rc ≠ 0 → fail rc ≠ 0)
    (hnext : ∀ s, A s → GuardedBy I (fun rc s => rc = 0 → B s) next s) :
    GuardedBy I (fun rc s => rc = 0 → B s) (do
      let rc ← p
      if rc ≠ 0 then pure (fail rc) else next) s := by
  rw [GuardedBy, always_bind]
  refine hp.mono (fun _ _ _ h => h) fun rc s hs => ?_
  split
  · next hrc => exact fun _ _ hzero => absurd hzero (hfail rc hrc)
  · next hrc => exact hnext s (hs (not_not.mp hrc))

/-- `rcc_set_flash_latency`, given what its write does. -/
theorem setFlashLatency_rule {A B : ClockState → Prop} {flash : FlashLatency}
    (hA : Stable rcc A) (hB : Stable rcc B) (hs : A s)
    (hwrite : ∀ s acr, A s → acr &&& flashAcrLatencyMsk = flash.value →
      I (s.store .assign .acr acr) ∧ B (s.store .assign .acr acr)) :
    GuardedBy I (fun rc s => rc = 0 → B s) (rccSetFlashLatency flash.value) s := by
  refine guarded_read hA hs fun s acr hs _ => ?_
  refine guarded_store hA hs fun s hs => ?_
  obtain ⟨hinv, hstored⟩ := hwrite s _ hs (latency_write acr flash)
  refine ⟨hinv, ?_⟩
  refine guarded_read hB hstored fun s acr hs _ => ?_
  split
  · exact fun _ _ hzero => absurd hzero (by decide)
  · exact always_done hB hs fun _ h _ => h

/-- `rcc_set_prescalers`, given what its write does. -/
theorem setPrescalers_rule {A B : ClockState → Prop} {cfg : ClkInit} (hA : Stable rcc A)
    (hB : Stable rcc B) (hs : A s)
    (hwrite : ∀ s cfgr, A s → cfgr &&& prescalersMsk = cfg.prescalers →
      cfgr &&& rccCfgrSwMsk = s.cfgr &&& rccCfgrSwMsk →
      I (s.store .assign .cfgr cfgr) ∧ B (s.store .assign .cfgr cfgr)) :
    GuardedBy I (fun _ s => B s) (rccSetPrescalers cfg) s := by
  refine guarded_read hA hs fun s v hs hv => ?_
  refine guarded_store (f := pure) (copy_stable hA v) ⟨hs, copy_of_read hv⟩
    fun s ⟨hs, hcopy⟩ => ?_
  obtain ⟨hpre, hsw⟩ := prescalers_write hcopy cfg
  obtain ⟨hinv, hstored⟩ := hwrite s _ hs hpre hsw
  exact ⟨hinv, always_done hB hstored fun _ h => h⟩

/-- `rcc_switch_sysclk`, given what its write does. -/
theorem switchSysclk_rule {A B : ClockState → Prop} (source : Source) (hA : Stable rcc A)
    (hB : Stable rcc B) (hs : A s)
    (hwrite : ∀ s cfgr, A s → cfgr &&& prescalersMsk = s.prescalers →
      (s.store .assign .cfgr cfgr).Selects source →
      I (s.store .assign .cfgr cfgr) ∧ B (s.store .assign .cfgr cfgr)) :
    GuardedBy I (fun rc s => rc = 0 → B s ∧ s.sws = source ∧ s.Selects source)
      (rccSwitchSysclk source.value) s := by
  refine guarded_read hA hs fun s v hs hv => ?_
  refine guarded_store (copy_stable hA v) ⟨hs, copy_of_read hv⟩ fun s ⟨hs, hcopy⟩ => ?_
  obtain ⟨hpre, hsel⟩ := switch_write hcopy source
  obtain ⟨hinv, hstored⟩ := hwrite s _ hs hpre hsel
  refine ⟨hinv, ?_⟩
  have hafter := switched_stable hB source
  refine await_bind (await_guarded (selected_stable hB source) hafter ?_ rccTimeout
    ⟨hstored, hsel⟩) ?_ ?_
  · intro s v h hv hdone
    exact ⟨h.1, (read_cfgr_sws hv source).mp (of_decide_eq_true hdone), h.2⟩
  · exact fun _ hzero => absurd hzero (by decide)
  · exact fun s h => always_done hafter h fun _ h _ => h

theorem setFlashLatency_guarded {flash : FlashLatency}
    (hs : Keeps latency prescalers pllcfgr m k s)
    (hm : m → Suits flash.value prescalers (pllFreq pllcfgr)) :
    Guarded (fun rc s => rc = 0 → Keeps flash.value prescalers pllcfgr m k s)
      (rccSetFlashLatency flash.value) s := by
  refine setFlashLatency_rule keeps_stable keeps_stable hs fun s acr hs hacr => ?_
  have hstored : Keeps flash.value prescalers pllcfgr m k (s.store .assign .acr acr) :=
    ⟨hacr, hs.prescalers_eq, hs.pllcfgr_eq, hs.may, hs.reach⟩
  exact ⟨hstored.settled hm, hstored⟩

theorem setPrescalers_guarded {cfg : ClkInit} (hs : Keeps latency prescalers pllcfgr m k s)
    (hm : m → Suits latency cfg.prescalers (pllFreq pllcfgr)) :
    Guarded (fun _ s => Keeps latency cfg.prescalers pllcfgr m k s) (rccSetPrescalers cfg) s := by
  refine setPrescalers_rule keeps_stable keeps_stable hs fun s cfgr hs hpre hsw => ?_
  have hsel : (s.store .assign .cfgr cfgr).Selects .pll → s.Selects .pll :=
    fun h => hsw.symm.trans h
  have hstored : Keeps latency cfg.prescalers pllcfgr m k (s.store .assign .cfgr cfgr) := by
    refine ⟨hs.latency_eq, hpre, hs.pllcfgr_eq, fun hmay => hs.may ?_,
      fun hreach => hs.reach (hreach.imp_right hsel)⟩
    exact hmay.imp_right fun ⟨h, hpll⟩ => ⟨hsel h, hpll⟩
  exact ⟨hstored.settled hm, hstored⟩

/-- The switch to a source; to the PLL only with settings that suit it. -/
theorem switchSysclk_guarded (source : Source) (hs : Keeps latency prescalers pllcfgr m k s)
    (hsource : source = .pll → m ∧ k) (hm : m → Suits latency prescalers (pllFreq pllcfgr)) :
    Guarded (fun rc s => rc = 0 → Keeps latency prescalers pllcfgr m k s ∧ s.sws = source ∧
      s.Selects source) (rccSwitchSysclk source.value) s := by
  refine switchSysclk_rule source keeps_stable keeps_stable hs fun s cfgr hs hpre hsel => ?_
  have hstored : Keeps latency prescalers pllcfgr m k (s.store .assign .cfgr cfgr) := by
    refine ⟨hs.latency_eq, hpre.trans hs.prescalers_eq, hs.pllcfgr_eq, fun hmay => ?_,
      fun hreach => ?_⟩
    · rcases hmay with hsws | ⟨hpll, -⟩
      · exact hs.may (Or.inl hsws)
      · exact (hsource (selects_unique hsel hpll)).1
    · rcases hreach with hsws | hpll
      · exact hs.reach (Or.inl hsws)
      · exact (hsource (selects_unique hsel hpll)).2
  exact ⟨hstored.settled hm, hstored⟩

theorem Keeps.mono {m' k' : Prop} (h : Keeps latency prescalers pllcfgr m k s)
    (hm : m → k → m') (hk : k → k') : Keeps latency prescalers pllcfgr m' k' s :=
  ⟨h.latency_eq, h.prescalers_eq, h.pllcfgr_eq,
    fun hmay => hm (h.may hmay) (h.reach (hmay.imp_right And.left)),
    fun hreach => hk (h.reach hreach)⟩

theorem Keeps.setCr {on : Word} (hon : on &&& rccCrPllon = 0)
    (hs : Keeps latency prescalers pllcfgr m k s) :
    Keeps latency prescalers pllcfgr m k (s.store .set .cr on) :=
  hs.of_eq rfl rfl rfl rfl id (set_cr_on hon).mp rfl

/-- Starting an oscillator and waiting for it. -/
theorem oscillator_bind {Q : Int → ClockState → Prop} {on : Word} {done : Word → Bool}
    {next : RccProgram Int} {rc : Int} (hon : on &&& rccCrPllon = 0)
    (hs : Keeps latency prescalers pllcfgr m k s)
    (hm : m → Suits latency prescalers (pllFreq pllcfgr)) (hfail : ∀ s, Q rc s)
    (hnext : ∀ s, Keeps latency prescalers pllcfgr m k s → Guarded Q next s) :
    Guarded Q (do
      setBits .cr on
      if ← rccAwait .cr done rccTimeout then next else pure rc) s := by
  refine guarded_store keeps_stable hs fun s hs => ⟨(hs.setCr hon).settled hm, ?_⟩
  exact await_bind (await_guarded keeps_stable keeps_stable (fun s _ h _ _ => h) rccTimeout
    (hs.setCr hon)) hfail hnext

/-- Latency, prescalers and switch, which is how all three branches end. -/
theorem settle_guarded {cfg : ClkInit} {m' k' : Prop} (source : Source)
    (hs : Keeps latency prescalers pllcfgr m k s) (hm' : m → m') (hk' : k → k')
    (hsource : source = .pll → m' ∧ k')
    (hflash : m → Suits cfg.flashLatency.value prescalers (pllFreq pllcfgr))
    (hcfg : m' → Suits cfg.flashLatency.value cfg.prescalers (pllFreq pllcfgr)) :
    Guarded (fun rc _ => rc = 0 → True) (do
      let rc ← rccSetFlashLatency cfg.flashLatency.value
      if rc ≠ 0 then pure rc
      else
        rccSetPrescalers cfg
        rccSwitchSysclk source.value) s := by
  refine success_bind id (setFlashLatency_guarded hs hflash) (fun _ h => h)
    fun s hs => ?_
  refine always_bind.mpr ?_
  refine (setPrescalers_guarded hs fun h => hcfg (hm' h)).mono (fun _ _ _ h => h)
    fun _ s hs => ?_
  have hlast := switchSysclk_guarded source (hs.mono (fun h _ => hm' h) hk') hsource hcfg
  exact hlast.mono (fun _ _ _ h => h) fun _ _ _ _ => trivial

theorem runFrom_guarded {cfg : ClkInit} {on rdy : Word} {notReady : Int} (source : Source)
    (hsource : source ≠ .pll) (hon : on &&& rccCrPllon = 0)
    (hs : Keeps latency prescalers pllcfgr m True s)
    (hold : m → Suits latency prescalers (pllFreq pllcfgr))
    (hflash : m → Suits cfg.flashLatency.value prescalers (pllFreq pllcfgr))
    (hcfg : m → Suits cfg.flashLatency.value cfg.prescalers (pllFreq pllcfgr)) :
    Guarded (fun _ _ => True) (rccRunFrom cfg on rdy source.value notReady) s := by
  refine oscillator_bind hon hs hold (fun _ => trivial) fun s hs => ?_
  have hsettle := settle_guarded source hs id id (fun h => absurd h hsource) hflash hcfg
  exact hsettle.mono (fun _ _ _ h => h) fun _ _ _ => trivial

/-- After step 1 only a switch to the PLL that was pending before it can still be. -/
theorem leavePll_guarded (hs : Keeps latency prescalers pllcfgr m True s)
    (hpending : s.Selects .pll → s.sws ≠ .pll → k)
    (hold : m → Suits latency prescalers (pllFreq pllcfgr)) :
    Guarded (fun rc s => rc = 0 → Keeps latency prescalers pllcfgr m k s) rccLeavePll s := by
  have hstable : Stable rcc fun s => Keeps latency prescalers pllcfgr m True s ∧
      (s.Selects .pll → s.sws ≠ .pll → k) := by
    intro s s' h hmove
    refine ⟨keeps_stable s s' h.1 hmove, fun hsel hsws => ?_⟩
    rw [ClockState.Selects, (Hardware.settings hmove).2.2.2.1] at hsel
    refine h.2 hsel ?_
    cases hmove with
    | rise _ _ => exact hsws
    | fall _ _ => exact hsws
    | follow source hsource _ => exact absurd (selects_unique hsource hsel) hsws
  refine guarded_read hstable ⟨hs, hpending⟩ fun s v ⟨hs, hpending⟩ hv => ?_
  split
  · refine oscillator_bind (by decide) hs hold (fun _ h => absurd h (by decide)) fun s hs => ?_
    have hswitch := switchSysclk_guarded .hsi hs (fun h => by cases h) hold
    refine success_bind (fun _ => -2) hswitch (fun _ _ => by decide) fun s hs => ?_
    refine always_done keeps_stable (A := Keeps latency prescalers pllcfgr m k) ?_
      fun _ h _ => h
    obtain ⟨hkeeps, hsws, hsel⟩ := hs
    refine ⟨hkeeps.latency_eq, hkeeps.prescalers_eq, hkeeps.pllcfgr_eq, hkeeps.may, ?_⟩
    rintro (hpll | hpll)
    · cases hsws.symm.trans hpll
    · cases selects_unique hsel hpll
  · next hnot =>
      have hsws : s.sws ≠ .pll := fun h => hnot ((read_cfgr_sws hv .pll).mpr h)
      refine always_done keeps_stable (A := Keeps latency prescalers pllcfgr m k) ?_
        fun _ h _ => h
      refine ⟨hs.latency_eq, hs.prescalers_eq, hs.pllcfgr_eq, hs.may, ?_⟩
      exact fun h => h.elim (fun h => absurd h hsws) fun h => hpending h hsws

theorem startPllSource_guarded {source : PllSource}
    (hs : Keeps latency prescalers pllcfgr m k s)
    (hold : m → Suits latency prescalers (pllFreq pllcfgr)) :
    Guarded (fun rc s => rc = 0 → Keeps latency prescalers pllcfgr m k s)
      (rccStartPllSource source) s := by
  cases source with
  | hse =>
      exact oscillator_bind (by decide) hs hold (fun _ h => absurd h (by decide))
        fun s hs => always_done keeps_stable hs fun _ h _ => h
  | hsi =>
      exact oscillator_bind (by decide) hs hold (fun _ h => absurd h (by decide))
        fun s hs => always_done keeps_stable hs fun _ h _ => h

theorem startPll_guarded {cfg : ClkInit} (hs : Keeps latency prescalers pllcfgr m k s)
    (hold : m → Suits latency prescalers (pllFreq pllcfgr))
    (hnew : k → Suits latency prescalers (pllFreq cfg.pll.pllcfgr))
    (hflash : k → Suits cfg.flashLatency.value prescalers (pllFreq cfg.pll.pllcfgr))
    (hcfg : Suits cfg.flashLatency.value cfg.prescalers (pllFreq cfg.pll.pllcfgr)) :
    Guarded (fun rc _ => rc = 0 → True) (rccStartPll cfg) s := by
  rw [rccStartPll]
  refine guarded_store keeps_stable hs fun s hs => ?_
  have hclock : Keeps latency prescalers pllcfgr m k (s.store .set .apb1enr rccApb1enrPwren) :=
    hs.of_eq rfl rfl rfl rfl id id rfl
  refine ⟨hclock.settled hold, ?_⟩
  refine guarded_read keeps_stable hclock fun s _ hs _ => ?_
  refine guarded_read keeps_stable hs fun s pwr hs _ => ?_
  refine guarded_store keeps_stable hs fun s hs => ?_
  have hscale : Keeps latency prescalers pllcfgr m k
      (s.store .assign .pwrCr (pwr &&& ~~~pwrCrVosMsk ||| pwrCrVosScale1)) :=
    hs.of_eq rfl rfl rfl rfl id id rfl
  refine ⟨hscale.settled hold, ?_⟩
  refine guarded_store keeps_stable hscale fun s hs => ?_
  have hpll : Keeps latency prescalers cfg.pll.pllcfgr k k
      (s.store .assign .pllcfgr cfg.pll.pllcfgr) :=
    ⟨hs.latency_eq, hs.prescalers_eq, rfl, fun h => hs.reach (h.imp_right And.left), hs.reach⟩
  refine ⟨hpll.settled hnew, ?_⟩
  refine guarded_store keeps_stable hpll fun s hs => ?_
  have hon : Keeps latency prescalers cfg.pll.pllcfgr k k (s.store .set .cr rccCrPllon) :=
    ⟨hs.latency_eq, hs.prescalers_eq, hs.pllcfgr_eq,
      fun h => hs.reach (h.imp_right And.left), hs.reach⟩
  refine ⟨hon.settled hnew, ?_⟩
  refine await_bind (await_guarded keeps_stable keeps_stable (fun s _ h _ _ => h) rccTimeout hon)
    (fun _ h => absurd h (by decide)) fun s hs => ?_
  have hsettle := settle_guarded .pll hs (fun _ => trivial) (fun _ => trivial)
    (fun _ => ⟨trivial, trivial⟩) hflash fun _ => hcfg
  exact hsettle

/-- The PLL suits the settings that the call passes through while it can run the system. -/
def SwitchesSafely (cfg : ClkInit) (s : ClockState) : Prop :=
  match cfg.sysclkSrc with
  | .pll => s.Selects .pll → s.sws ≠ .pll →
      (s.On .pll ∨ s.ready .pll = true → Suits s.latency s.prescalers (pllFreq s.pllcfgr)) ∧
        Suits s.latency s.prescalers cfg.freq ∧
          Suits cfg.flashLatency.value s.prescalers cfg.freq
  | _ => MayPll s →
      Suits s.latency s.prescalers (pllFreq s.pllcfgr) ∧
        Suits cfg.flashLatency.value s.prescalers (pllFreq s.pllcfgr) ∧
          Suits cfg.flashLatency.value cfg.prescalers (pllFreq s.pllcfgr)

theorem freq_of_pll {cfg : ClkInit} (hvalid : cfg.Valid) (hsource : cfg.sysclkSrc = .pll) :
    cfg.freq = pllFreq cfg.pll.pllcfgr := by
  rw [ClkInit.freq, hsource]
  exact (pllFreq_pllcfgr (hvalid.inRange hsource)).symm

theorem reconfigure_guarded {cfg : ClkInit} (hs : Keeps latency prescalers pllcfgr m k s)
    (hold : m → Suits latency prescalers (pllFreq pllcfgr))
    (hnew : k → Suits latency prescalers (pllFreq cfg.pll.pllcfgr))
    (hflash : k → Suits cfg.flashLatency.value prescalers (pllFreq cfg.pll.pllcfgr))
    (hcfg : Suits cfg.flashLatency.value cfg.prescalers (pllFreq cfg.pll.pllcfgr)) :
    Guarded (fun rc _ => rc = 0 → True) (do
      clearBits .cr rccCrPllon
      if ← rccAwait .cr (fun cr => cr &&& rccCrPllrdy = 0) rccTimeout then
        let rc ← rccStartPllSource cfg.pll.pllSource
        if rc ≠ 0 then pure rc else rccStartPll cfg
      else pure (-3)) s := by
  refine guarded_store keeps_stable hs fun s hs => ?_
  have hoff : Keeps latency prescalers pllcfgr m k (s.store .clear .cr rccCrPllon) :=
    hs.of_eq rfl rfl rfl rfl id (fun h => absurd h clear_cr_off) rfl
  refine ⟨hoff.settled hold, ?_⟩
  refine await_bind (await_guarded keeps_stable keeps_stable (fun s _ h _ _ => h) rccTimeout hoff)
    (fun _ _ => trivial) fun s hs => ?_
  exact success_bind id (startPllSource_guarded hs hold) (fun _ h => h)
    fun s hs => startPll_guarded hs hold hnew hflash hcfg

theorem guarded_of_safely {cfg : ClkInit} (hvalid : cfg.Valid) (hlimits : s.WithinLimits)
    (hsafe : SwitchesSafely cfg s) :
    Guarded (fun _ _ => True) (rccSysClkConfig cfg) s := by
  have hs : Keeps s.latency s.prescalers s.pllcfgr (MayPll s) True s :=
    ⟨rfl, rfl, rfl, id, fun _ => trivial⟩
  unfold SwitchesSafely at hsafe
  unfold rccSysClkConfig
  cases hsource : cfg.sysclkSrc with
  | hsi =>
      simp only [hsource] at hsafe ⊢
      exact runFrom_guarded .hsi (by decide) (by decide) hs (fun h => (hsafe h).1)
        (fun h => (hsafe h).2.1) fun h => (hsafe h).2.2
  | hse =>
      simp only [hsource] at hsafe ⊢
      exact runFrom_guarded .hse (by decide) (by decide) hs (fun h => (hsafe h).1)
        (fun h => (hsafe h).2.1) fun h => (hsafe h).2.2
  | pll =>
      have hfreq := freq_of_pll hvalid hsource
      have hcfg := hvalid.suits
      simp only [hsource, hfreq] at hsafe hcfg ⊢
      have hold : MayPll s → Suits s.latency s.prescalers (pllFreq s.pllcfgr) := by
        intro hmay
        by_cases hsws : s.sws = .pll
        · rwa [ClockState.WithinLimits, hsws] at hlimits
        · obtain ⟨hsel, hpll⟩ := hmay.resolve_left hsws
          exact (hsafe hsel hsws).1 hpll
      have hleave := leavePll_guarded hs
        (fun hsel hsws => (⟨hsel, hsws⟩ : s.Selects .pll ∧ s.sws ≠ .pll)) hold
      have hrest := success_bind id hleave (fun _ h => h) fun s hs =>
        reconfigure_guarded hs hold (fun h => (hsafe h.1 h.2).2.1) (fun h => (hsafe h.1 h.2).2.2)
          hcfg
      exact hrest.mono (fun _ _ _ h => h) fun _ _ _ => trivial

end Safety

end Stm32f411.RccTransients
