import Stm32f411.BitMasks
import Stm32f411.RtosTypes

/-!
The set-up calls of `stm32f411_systick.c`. `hclk` is what `rcc_get_hclk_freq` returns. The
three calls share one helper, which looks at the reload value only from above.
-/

namespace Stm32f411.SysTickSetup

open Stm32f411.BitMasks
open Stm32f411.RtosTypes

section Driver

inductive ClkSource
  | ahbDiv8 | ahb
  deriving DecidableEq

structure SysTickConfig where
  clkSource : ClkSource
  tickFreqHz : Word
  deriving DecidableEq

/-- The timer's registers, COUNTFLAG apart from the rest of CTRL, and the variables of the
driver. -/
structure SysTickState where
  ctrl : Word
  countFlag : Bool
  load : Word
  val : Word
  ticks : Word
  savedCfg : SysTickConfig
  initialized : Bool
  deriving DecidableEq

def systickCtrlEnable : Word := 0x1
def systickCtrlTickint : Word := 0x2
def systickCtrlClksource : Word := 0x4
def systickLoadReloadMsk : Word := 0xFFFFFF

/-- A read of CTRL clears COUNTFLAG. -/
def SysTickState.readCtrl (s : SysTickState) : SysTickState := { s with countFlag := false }

/-- So does a write to VAL, which clears VAL whatever is written. -/
def SysTickState.writeVal (s : SysTickState) : SysTickState :=
  { s with val := 0, countFlag := false }

def clkHz (hclk : Word) : ClkSource → Word
  | .ahbDiv8 => hclk / 8
  | .ahb => hclk

def systickConfigure (hclk : Word) (cfg : Option SysTickConfig) (s : SysTickState) :
    SysTickState × Int :=
  match cfg with
  | none => (s, -1)
  | some cfg =>
      if cfg.tickFreqHz = 0 then (s, -1)
      else
        let reload := clkHz hclk cfg.clkSource / cfg.tickFreqHz - 1
        if systickLoadReloadMsk < reload then (s, -1)
        else
          ({ s.writeVal with
             ctrl := if cfg.clkSource = .ahb then systickCtrlClksource else 0
             load := reload &&& systickLoadReloadMsk }, 0)

def systickStartInternal (s : SysTickState) : SysTickState :=
  let s := s.writeVal.readCtrl
  { s with ctrl := s.ctrl ||| (systickCtrlTickint ||| systickCtrlEnable) }

def systickConfigureStopped (hclk : Word) (cfg : Option SysTickConfig) (s : SysTickState) :
    SysTickState × Int :=
  let configured := systickConfigure hclk cfg s
  if configured.2 ≠ 0 then configured
  else
    ({ configured.1 with
       savedCfg := cfg.getD s.savedCfg
       initialized := true
       ticks := 0 }, 0)

def systickInit (hclk : Word) (cfg : Option SysTickConfig) (s : SysTickState) :
    SysTickState × Int :=
  let configured := systickConfigureStopped hclk cfg s
  if configured.2 ≠ 0 then configured else (systickStartInternal configured.1, 0)

def systickUpdateFreq (hclk : Word) (s : SysTickState) : SysTickState × Int :=
  if s.initialized = false then (s, -2)
  else
    let wasRunning := s.ctrl &&& (systickCtrlEnable ||| systickCtrlTickint)
    let configured := systickConfigure hclk (some s.savedCfg) s.readCtrl
    if configured.2 = 0 ∧ wasRunning ≠ 0 then
      (systickStartInternal configured.1, configured.2)
    else configured

end Driver

section Calls

inductive SysTickCall
  | init (cfg : Option SysTickConfig)
  | configureStopped (cfg : Option SysTickConfig)
  | updateFreq

def systickCall (hclk : Word) (s : SysTickState) : SysTickCall → SysTickState × Int
  | .init cfg => systickInit hclk cfg s
  | .configureStopped cfg => systickConfigureStopped hclk cfg s
  | .updateFreq => systickUpdateFreq hclk s

/-- The configuration that a call programs. -/
def SysTickCall.config (s : SysTickState) : SysTickCall → Option SysTickConfig
  | .init cfg => cfg
  | .configureStopped cfg => cfg
  | .updateFreq => if s.initialized = true then some s.savedCfg else none

/-- The clock cycles between two ticks; a RELOAD of zero never generates one. -/
def period (load : Word) : Option Nat :=
  if load = 0 then none else some (load.toNat + 1)

def Running (s : SysTickState) : Prop :=
  s.ctrl &&& systickCtrlEnable ≠ 0

def Interrupts (s : SysTickState) : Prop :=
  s.ctrl &&& systickCtrlTickint ≠ 0

/-- The timer counts HCLK itself. -/
def CountsAhb (s : SysTickState) : Prop :=
  s.ctrl &&& systickCtrlClksource ≠ 0

/-- The call is to leave the timer running. -/
def SysTickCall.Starts (s : SysTickState) : SysTickCall → Prop
  | .init _ => True
  | .configureStopped _ => False
  | .updateFreq => Running s

/-- What the caller may rely on. -/
structure SetUpRight (hclk : Word) (s : SysTickState) (call : SysTickCall)
    (result : SysTickState × Int) : Prop where
  period : result.2 = 0 → ∃ cfg, call.config s = some cfg ∧
    period result.1.load = some ((clkHz hclk cfg.clkSource).toNat / cfg.tickFreqHz.toNat) ∧
      result.1.load.toNat < 2 ^ 24 ∧ (CountsAhb result.1 ↔ cfg.clkSource = .ahb)
  running : result.2 = 0 →
    (Running result.1 ↔ call.Starts s) ∧ (Interrupts result.1 ↔ call.Starts s)
  refused : result.2 ≠ 0 → result.1 = s
  update : call = .updateFreq → result.1.ticks = s.ticks ∧ (Running result.1 ↔ Running s)

/-- The helper programs a configuration. -/
def Accepted (hclk : Word) (cfg : SysTickConfig) : Prop :=
  cfg.tickFreqHz ≠ 0 ∧ cfg.tickFreqHz.toNat ≤ (clkHz hclk cfg.clkSource).toNat ∧
    (clkHz hclk cfg.clkSource).toNat / cfg.tickFreqHz.toNat ≤ 2 ^ 24

/-- A configuration that is accepted asks for at least two cycles a tick, and the timer that
is updated has its interrupt enabled only if it runs, or COUNTFLAG clear where the update is
refused. -/
def Sensible (hclk : Word) (s : SysTickState) (call : SysTickCall) : Prop :=
  ∀ cfg, call.config s = some cfg →
    (Accepted hclk cfg → 2 * cfg.tickFreqHz.toNat ≤ (clkHz hclk cfg.clkSource).toNat ∧
      (call = .updateFreq → Interrupts s → Running s)) ∧
    (¬Accepted hclk cfg → call = .updateFreq → s.countFlag = false)

end Calls

section Helper

variable {hclk : Word} {s : SysTickState} {cfg : SysTickConfig}

/-- The registers that a configuration is programmed with. -/
def programmed (hclk : Word) (cfg : SysTickConfig) (s : SysTickState) : SysTickState :=
  { s.writeVal with
    ctrl := if cfg.clkSource = .ahb then systickCtrlClksource else 0
    load := clkHz hclk cfg.clkSource / cfg.tickFreqHz - 1 }

theorem pos_of_ne_zero {v : Word} (h : v ≠ 0) : 0 < v.toNat :=
  Nat.pos_of_ne_zero fun hzero => h (BitVec.eq_of_toNat_eq hzero)

/-- The reload value is small enough only if the quotient is not zero. -/
theorem reload_le_iff (v : Word) :
    v - 1 ≤ systickLoadReloadMsk ↔ 1 ≤ v.toNat ∧ v.toNat ≤ 2 ^ 24 := by
  have hlt := v.isLt
  have hone : (1 : Word).toNat = 1 := rfl
  have hmask : systickLoadReloadMsk.toNat = 2 ^ 24 - 1 := rfl
  rw [BitVec.le_def, BitVec.toNat_sub, hone, hmask]
  omega

theorem configure_accepted (h : Accepted hclk cfg) :
    systickConfigure hclk (some cfg) s = (programmed hclk cfg s, 0) := by
  obtain ⟨hne, hslow, hlong⟩ := h
  have hle : clkHz hclk cfg.clkSource / cfg.tickFreqHz - 1 ≤ systickLoadReloadMsk := by
    rw [reload_le_iff, BitVec.toNat_udiv]
    exact ⟨(Nat.one_le_div_iff (pos_of_ne_zero hne)).mpr hslow, hlong⟩
  have hwithin : (clkHz hclk cfg.clkSource / cfg.tickFreqHz - 1) &&& systickLoadReloadMsk =
      clkHz hclk cfg.clkSource / cfg.tickFreqHz - 1 :=
    and_eq_of_within (within_low (n := 24) (by decide) (Nat.lt_succ_of_le hle))
  unfold systickConfigure programmed
  dsimp only
  rw [if_neg hne, if_neg (BitVec.not_lt.mpr hle), hwithin]

theorem configure_refused (h : ¬Accepted hclk cfg) :
    systickConfigure hclk (some cfg) s = (s, -1) := by
  unfold systickConfigure
  dsimp only
  split
  · rfl
  · next hne =>
      split
      · rfl
      · next hle =>
          rw [BitVec.not_lt, reload_le_iff, BitVec.toNat_udiv,
            Nat.one_le_div_iff (pos_of_ne_zero hne)] at hle
          exact absurd ⟨hne, hle⟩ h

/-- The period is right exactly when the quotient is at least two. -/
theorem period_programmed (h : Accepted hclk cfg) :
    (period (programmed hclk cfg s).load =
        some ((clkHz hclk cfg.clkSource).toNat / cfg.tickFreqHz.toNat) ↔
      2 * cfg.tickFreqHz.toNat ≤ (clkHz hclk cfg.clkSource).toNat) ∧
      (programmed hclk cfg s).load.toNat < 2 ^ 24 := by
  obtain ⟨hne, hslow, hlong⟩ := h
  have hpos := pos_of_ne_zero hne
  have hquotient : (clkHz hclk cfg.clkSource / cfg.tickFreqHz).toNat = _ := BitVec.toNat_udiv
  have hone : 1 ≤ (clkHz hclk cfg.clkSource).toNat / cfg.tickFreqHz.toNat :=
    (Nat.one_le_div_iff hpos).mpr hslow
  rw [programmed, ← Nat.le_div_iff_mul_le hpos]
  rw [← hquotient] at hone hlong ⊢
  generalize clkHz hclk cfg.clkSource / cfg.tickFreqHz = quotient at hone hlong ⊢
  have hload : (quotient - 1).toNat = quotient.toNat - 1 :=
    BitVec.toNat_sub_of_le (BitVec.le_def.mpr hone)
  have hzero : quotient - 1 = 0 ↔ quotient.toNat = 1 := by
    rw [← BitVec.toNat_inj, hload]
    change quotient.toNat - 1 = 0 ↔ _
    omega
  dsimp only
  rw [period]
  constructor
  · split
    · next h =>
        rw [hzero] at h
        simp only [reduceCtorEq, false_iff]
        omega
    · next h =>
        rw [hzero] at h
        simp only [hload, Option.some.injEq]
        omega
  · omega

end Helper

section Entries

variable {hclk : Word} {s s' : SysTickState} {call : SysTickCall} {cfg : SysTickConfig} {on : Prop}

/-- The timer counts to the given configuration; `on` says whether it runs. -/
structure Programmed (hclk : Word) (cfg : SysTickConfig) (on : Prop) (s : SysTickState) :
    Prop where
  load : s.load = (programmed hclk cfg s).load
  clock : CountsAhb s ↔ cfg.clkSource = .ahb
  running : Running s ↔ on
  interrupts : Interrupts s ↔ on

theorem ctrl_programmed : (programmed hclk cfg s).ctrl =
    if cfg.clkSource = .ahb then systickCtrlClksource else 0 := rfl

theorem ctrl_started : (systickStartInternal (programmed hclk cfg s)).ctrl =
    (if cfg.clkSource = .ahb then systickCtrlClksource else 0) |||
      (systickCtrlTickint ||| systickCtrlEnable) := rfl

theorem programmed_stopped : Programmed hclk cfg False (programmed hclk cfg s) := by
  refine ⟨rfl, ?_, iff_false_intro ?_, iff_false_intro ?_⟩
  · rw [CountsAhb, ctrl_programmed]
    cases cfg.clkSource <;> decide
  · rw [Running, ctrl_programmed]
    cases cfg.clkSource <;> decide
  · rw [Interrupts, ctrl_programmed]
    cases cfg.clkSource <;> decide

theorem programmed_started :
    Programmed hclk cfg True (systickStartInternal (programmed hclk cfg s)) := by
  refine ⟨rfl, ?_, iff_true_intro ?_, iff_true_intro ?_⟩
  · rw [CountsAhb, ctrl_started]
    cases cfg.clkSource <;> decide
  · rw [Running, ctrl_started]
    cases cfg.clkSource <;> decide
  · rw [Interrupts, ctrl_started]
    cases cfg.clkSource <;> decide

theorem wasRunning_iff : s.ctrl &&& (systickCtrlEnable ||| systickCtrlTickint) ≠ 0 ↔
    Running s ∨ Interrupts s := by
  have hsplit : s.ctrl &&& (systickCtrlEnable ||| systickCtrlTickint) = 0 ↔
      s.ctrl &&& systickCtrlEnable = 0 ∧ s.ctrl &&& systickCtrlTickint = 0 := by
    rw [BitVec.and_comm, or_and, BitVec.and_comm, BitVec.and_comm systickCtrlTickint]
    exact BitVec.or_eq_zero_iff
  rw [Running, Interrupts, ne_eq, hsplit, not_and_or]

theorem setUpRight_refused {rc : Int} (hrc : rc ≠ 0) : SetUpRight hclk s call (s, rc) :=
  ⟨fun h => absurd h hrc, fun h => absurd h hrc, fun _ => rfl, fun _ => ⟨rfl, Iff.rfl⟩⟩

theorem setUpRight_accepted (hcfg : call.config s = some cfg) (h : Accepted hclk cfg)
    (hset : Programmed hclk cfg on s') (hticks : call = .updateFreq → s'.ticks = s.ticks) :
    SetUpRight hclk s call (s', 0) ↔
      2 * cfg.tickFreqHz.toNat ≤ (clkHz hclk cfg.clkSource).toNat ∧ (on ↔ call.Starts s) := by
  have hperiod := period_programmed (s := s') h
  rw [← hset.load] at hperiod
  constructor
  · intro hright
    obtain ⟨cfg', hcfg', hsame, -⟩ := hright.period rfl
    obtain rfl : cfg = cfg' := Option.some.inj (hcfg.symm.trans hcfg')
    exact ⟨hperiod.1.mp hsame, hset.running.symm.trans (hright.running rfl).1⟩
  · rintro ⟨hlong, hon⟩
    refine ⟨fun _ => ⟨cfg, hcfg, hperiod.1.mpr hlong, hperiod.2, hset.clock⟩,
      fun _ => ⟨hset.running.trans hon, hset.interrupts.trans hon⟩,
      fun hrc => absurd rfl hrc, fun hupdate => ⟨hticks hupdate, ?_⟩⟩
    rw [hset.running, hon, hupdate]
    rfl

/-- The variables of the driver after a configuration. -/
def configured (cfg : SysTickConfig) (s : SysTickState) : SysTickState :=
  { s with savedCfg := cfg, initialized := true, ticks := 0 }

theorem configureStopped_accepted (h : Accepted hclk cfg) :
    systickConfigureStopped hclk (some cfg) s = (programmed hclk cfg (configured cfg s), 0) := by
  unfold systickConfigureStopped
  rw [configure_accepted h]
  rfl

theorem configureStopped_refused (h : ¬Accepted hclk cfg) :
    systickConfigureStopped hclk (some cfg) s = (s, -1) := by
  unfold systickConfigureStopped
  rw [configure_refused h]
  rfl

theorem sensible_accepted (hcfg : call.config s = some cfg) (h : Accepted hclk cfg) :
    Sensible hclk s call ↔ 2 * cfg.tickFreqHz.toNat ≤ (clkHz hclk cfg.clkSource).toNat ∧
      (call = .updateFreq → Interrupts s → Running s) := by
  constructor
  · exact fun hsensible => (hsensible cfg hcfg).1 h
  · intro hcond cfg' hcfg'
    obtain rfl : cfg = cfg' := Option.some.inj (hcfg.symm.trans hcfg')
    exact ⟨fun _ => hcond, fun hrefused => absurd h hrefused⟩

theorem sensible_refused (hcfg : call.config s = some cfg) (h : ¬Accepted hclk cfg) :
    Sensible hclk s call ↔ (call = .updateFreq → s.countFlag = false) := by
  constructor
  · exact fun hsensible => (hsensible cfg hcfg).2 h
  · intro hcond cfg' hcfg'
    obtain rfl : cfg = cfg' := Option.some.inj (hcfg.symm.trans hcfg')
    exact ⟨fun haccepted => absurd haccepted h, fun _ => hcond⟩

theorem sensible_none (h : call.config s = none) : Sensible hclk s call := by
  intro cfg hcfg
  rw [h] at hcfg
  cases hcfg

/-- A call other than an update has only the period to get right. -/
theorem given_iff (hconfig : call.config s = some cfg) (hcall : call ≠ .updateFreq)
    (haccepted : Accepted hclk cfg → systickCall hclk s call = (s', 0) ∧
      Programmed hclk cfg (call.Starts s) s')
    (hrefused : ¬Accepted hclk cfg → systickCall hclk s call = (s, -1)) :
    SetUpRight hclk s call (systickCall hclk s call) ↔ Sensible hclk s call := by
  by_cases h : Accepted hclk cfg
  · obtain ⟨hresult, hset⟩ := haccepted h
    rw [hresult, sensible_accepted hconfig h,
      setUpRight_accepted hconfig h hset fun hupdate => absurd hupdate hcall]
    exact and_congr_right fun _ =>
      iff_of_true Iff.rfl fun hupdate => absurd hupdate hcall
  · rw [hrefused h, sensible_refused hconfig h]
    exact iff_of_true (setUpRight_refused (by decide)) fun hupdate => absurd hupdate hcall

theorem updateFreq_accepted (hon : s.initialized = true) (h : Accepted hclk s.savedCfg) :
    systickUpdateFreq hclk s =
      (if s.ctrl &&& (systickCtrlEnable ||| systickCtrlTickint) ≠ 0 then
        systickStartInternal (programmed hclk s.savedCfg s)
      else programmed hclk s.savedCfg s, 0) := by
  unfold systickUpdateFreq
  rw [if_neg (by simp [hon]), configure_accepted h]
  dsimp only
  by_cases hwas : s.ctrl &&& (systickCtrlEnable ||| systickCtrlTickint) ≠ 0
  · rw [if_pos ⟨rfl, hwas⟩, if_pos hwas]
    rfl
  · rw [if_neg fun hboth => hwas hboth.2, if_neg hwas]
    rfl

theorem updateFreq_refused (hon : s.initialized = true) (h : ¬Accepted hclk s.savedCfg) :
    systickUpdateFreq hclk s = (s.readCtrl, -1) := by
  unfold systickUpdateFreq
  rw [if_neg (by simp [hon]), configure_refused h]
  exact if_neg fun hzero => absurd hzero.1 (show (-1 : Int) ≠ 0 by decide)

/-- The timer is started again if its enable bit or its interrupt bit was set. -/
theorem updateFreq_programmed (s : SysTickState) :
    Programmed hclk cfg (Running s ∨ Interrupts s)
      (if s.ctrl &&& (systickCtrlEnable ||| systickCtrlTickint) ≠ 0 then
        systickStartInternal (programmed hclk cfg s) else programmed hclk cfg s) := by
  rw [← wasRunning_iff]
  split
  · next hwas =>
      rw [eq_true hwas]
      exact programmed_started
  · next hwas =>
      rw [eq_false hwas]
      exact programmed_stopped

theorem readCtrl_eq_iff : s.readCtrl = s ↔ s.countFlag = false := by
  constructor
  · intro h
    rw [← h]
    rfl
  · intro h
    rw [SysTickState.readCtrl, ← h]

theorem update_iff : SetUpRight hclk s .updateFreq (systickUpdateFreq hclk s) ↔
    Sensible hclk s .updateFreq := by
  cases hon : s.initialized with
  | false =>
      rw [systickUpdateFreq, if_pos hon]
      exact iff_of_true (setUpRight_refused (by decide))
        (sensible_none (if_neg (by simp [hon])))
  | true =>
      have hconfig : SysTickCall.updateFreq.config s = some s.savedCfg := if_pos hon
      by_cases h : Accepted hclk s.savedCfg
      · have hticks : (if s.ctrl &&& (systickCtrlEnable ||| systickCtrlTickint) ≠ 0 then
            systickStartInternal (programmed hclk s.savedCfg s)
            else programmed hclk s.savedCfg s).ticks = s.ticks := by
          split <;> rfl
        rw [updateFreq_accepted hon h, sensible_accepted hconfig h,
          setUpRight_accepted hconfig h (updateFreq_programmed s) fun _ => hticks]
        refine and_congr_right fun _ => ?_
        change (Running s ∨ Interrupts s ↔ Running s) ↔ _
        rw [or_iff_left_iff_imp]
        exact ⟨fun h _ => h, fun h => h rfl⟩
      · rw [updateFreq_refused hon h, sensible_refused hconfig h, ← readCtrl_eq_iff]
        constructor
        · exact fun hright _ => hright.refused (show (-1 : Int) ≠ 0 by decide)
        · intro hclear
          rw [hclear rfl]
          exact setUpRight_refused (by decide)

/-- For every clock, state and call the timer is set up right exactly when the configuration
is sensible. -/
theorem set_up_right_iff (hclk : Word) (s : SysTickState) (call : SysTickCall) :
    SetUpRight hclk s call (systickCall hclk s call) ↔ Sensible hclk s call := by
  cases call with
  | init given =>
      cases given with
      | none =>
          exact iff_of_true (setUpRight_refused (by decide)) (sensible_none rfl)
      | some cfg =>
          have haccepted (h : Accepted hclk cfg) : systickCall hclk s (.init (some cfg)) =
              (systickStartInternal (programmed hclk cfg (configured cfg s)), 0) := by
            unfold systickCall systickInit
            dsimp only
            rw [configureStopped_accepted h]
            exact if_neg fun hrc => hrc rfl
          refine given_iff rfl SysTickCall.noConfusion
            (fun h => ⟨haccepted h, programmed_started (s := configured cfg s)⟩) fun h => ?_
          unfold systickCall systickInit
          dsimp only
          rw [configureStopped_refused h]
          exact if_pos (show (-1 : Int) ≠ 0 by decide)
  | configureStopped given =>
      cases given with
      | none =>
          exact iff_of_true (setUpRight_refused (by decide)) (sensible_none rfl)
      | some cfg =>
          exact given_iff rfl SysTickCall.noConfusion
            (fun h => ⟨configureStopped_accepted h, programmed_stopped (s := configured cfg s)⟩)
            configureStopped_refused
  | updateFreq => exact update_iff

/-- The state after reset. -/
def demoReset : SysTickState := ⟨0, false, 0, 0, 0, ⟨.ahbDiv8, 0⟩, false⟩

/-- At 16 MHz a tick of 16 MHz is accepted, but the timer never ticks. -/
theorem tick_never_generated :
    (systickCall 16000000 demoReset (.init (some ⟨.ahb, 16000000⟩))).2 = 0 ∧
      period (systickCall 16000000 demoReset (.init (some ⟨.ahb, 16000000⟩))).1.load = none ∧
      ¬SetUpRight 16000000 demoReset (.init (some ⟨.ahb, 16000000⟩))
        (systickCall 16000000 demoReset (.init (some ⟨.ahb, 16000000⟩))) := by
  have hnone : period (systickCall 16000000 demoReset
      (.init (some ⟨.ahb, 16000000⟩))).1.load = none := by decide
  refine ⟨by decide, hnone, fun h => ?_⟩
  obtain ⟨cfg, -, hperiod, -⟩ := h.period (by decide)
  rw [hnone] at hperiod
  cases hperiod

end Entries

end Stm32f411.SysTickSetup
