import Mathlib.Data.Rat.Defs
import Stm32f411.RegisterPrograms
import Stm32f411.RtosTypes

/-!
`rcc_sys_clk_config` of `stm32f411_rcc.c`, and the clock tree it programs: ready flags rise
whenever they like, and the system clock follows the last selection once its source is ready.
-/

namespace Stm32f411.RccClock

open Stm32f411.LabelledRuns
open Stm32f411.RegisterPrograms
open Stm32f411.RtosTypes

inductive Location
  | cr | cfgr | pllcfgr | apb1enr | acr | pwrCr
  deriving DecidableEq

abbrev RccProgram := Program Location Word
abbrev RccAccess := Access Location Word

section Constants

def hsiValue : Nat := 16000000
def hseValue : Nat := 8000000
def rccTimeout : Nat := 0x5000

def rccCrHsion : Word := 0x1
def rccCrHsirdy : Word := 0x2
def rccCrHseon : Word := 0x10000
def rccCrHserdy : Word := 0x20000
def rccCrPllon : Word := 0x1000000
def rccCrPllrdy : Word := 0x2000000

def rccCfgrSwMsk : Word := 0x3
def rccCfgrSwHsi : Word := 0x0
def rccCfgrSwHse : Word := 0x1
def rccCfgrSwPll : Word := 0x2
def rccCfgrSwsMsk : Word := 0xC
def rccCfgrSwsPll : Word := 0x8
def rccCfgrHpreMsk : Word := 0xF0
def rccCfgrPpre1Msk : Word := 0x1C00
def rccCfgrPpre2Msk : Word := 0xE000

def rccPllcfgrPllmMsk : Word := 0x3F
def rccPllcfgrPllnMsk : Word := 0x7FC0
def rccPllcfgrPllpMsk : Word := 0x30000
def rccPllcfgrPllsrc : Word := 0x400000

def rccApb1enrPwren : Word := 0x10000000
def pwrCrVosMsk : Word := 0xC000
def pwrCrVosScale1 : Word := 0xC000
def flashAcrLatencyMsk : Word := 0xF
def flashAcrPrften : Word := 0x100
def flashAcrIcen : Word := 0x200
def flashAcrDcen : Word := 0x400

/-- Indexed by the HPRE field. -/
def ahbPrescalerTable : List Nat :=
  [1, 1, 1, 1, 1, 1, 1, 1, 2, 4, 8, 16, 64, 128, 256, 512]

/-- Indexed by a PPRE field. -/
def apbPrescalerTable : List Nat :=
  [1, 1, 1, 1, 2, 4, 8, 16]

end Constants

section Settings

/-- A source of the system clock. -/
inductive Source
  | hsi | hse | pll
  deriving DecidableEq

/-- The value of the SW field. -/
def Source.value : Source → Word
  | .hsi => rccCfgrSwHsi
  | .hse => rccCfgrSwHse
  | .pll => rccCfgrSwPll

inductive PllSource
  | hsi | hse
  deriving DecidableEq

def PllSource.value : PllSource → Word
  | .hsi => 0
  | .hse => 1

inductive PllP
  | div2 | div4 | div6 | div8
  deriving DecidableEq

def PllP.value : PllP → Word
  | .div2 => 0
  | .div4 => 1
  | .div6 => 2
  | .div8 => 3

inductive AhbPrescaler
  | div1 | div2 | div4 | div8 | div16 | div64 | div128 | div256 | div512
  deriving DecidableEq

def AhbPrescaler.value : AhbPrescaler → Word
  | .div1 => 0x0
  | .div2 => 0x8
  | .div4 => 0x9
  | .div8 => 0xA
  | .div16 => 0xB
  | .div64 => 0xC
  | .div128 => 0xD
  | .div256 => 0xE
  | .div512 => 0xF

inductive ApbPrescaler
  | div1 | div2 | div4 | div8 | div16
  deriving DecidableEq

def ApbPrescaler.value : ApbPrescaler → Word
  | .div1 => 0x0
  | .div2 => 0x4
  | .div4 => 0x5
  | .div8 => 0x6
  | .div16 => 0x7

inductive FlashLatency
  | ws0 | ws1 | ws2 | ws3
  deriving DecidableEq

def FlashLatency.value : FlashLatency → Word
  | .ws0 => 0
  | .ws1 => 1
  | .ws2 => 2
  | .ws3 => 3

structure PllConfig where
  pllSource : PllSource
  pllm : Word
  plln : Word
  pllp : PllP
  pllq : Word

structure ClkInit where
  sysclkSrc : Source
  ahbPrescaler : AhbPrescaler
  apb1Prescaler : ApbPrescaler
  apb2Prescaler : ApbPrescaler
  flashLatency : FlashLatency
  pll : PllConfig

end Settings

section Driver

/-- `while (!done(reg)) if (--timeout == 0U) ...`, with whether the loop saw `done`. The
callers pass a timeout that is not 0. -/
def rccAwait (r : Location) (done : Word → Bool) : Nat → RccProgram Bool
  | 0 => pure false
  | timeout + 1 => do
      let v ← readReg r
      if done v = true then pure true
      else if timeout = 0 then pure false
      else rccAwait r done timeout

def rccSetFlashLatency (latency : Word) : RccProgram Int := do
  let acr ← readReg .acr
  assignReg .acr (acr &&& ~~~flashAcrLatencyMsk |||
    (latency ||| flashAcrPrften ||| flashAcrIcen ||| flashAcrDcen))
  let acr ← readReg .acr
  if acr &&& flashAcrLatencyMsk ≠ latency then pure (-7) else pure 0

/-- The three prescaler fields of CFGR. -/
def prescalersMsk : Word :=
  rccCfgrHpreMsk ||| rccCfgrPpre1Msk ||| rccCfgrPpre2Msk

def ClkInit.prescalers (cfg : ClkInit) : Word :=
  cfg.ahbPrescaler.value <<< 4 ||| cfg.apb1Prescaler.value <<< 10 |||
    cfg.apb2Prescaler.value <<< 13

def rccSetPrescalers (cfg : ClkInit) : RccProgram Unit := do
  let cfgr ← readReg .cfgr
  assignReg .cfgr (cfgr &&& ~~~prescalersMsk ||| cfg.prescalers)

def rccSwitchSysclk (swValue : Word) : RccProgram Int := do
  let cfgr ← readReg .cfgr
  assignReg .cfgr (cfgr &&& ~~~rccCfgrSwMsk ||| swValue)
  if ← rccAwait .cfgr (fun cfgr => cfgr &&& rccCfgrSwsMsk = swValue <<< 2) rccTimeout then
    pure 0
  else pure (-8)

/-- The HSE and the HSI branch: start the oscillator, then latency, prescalers and switch. -/
def rccRunFrom (cfg : ClkInit) (on rdy swValue : Word) (notReady : Int) : RccProgram Int := do
  setBits .cr on
  if ← rccAwait .cr (fun cr => cr &&& rdy ≠ 0) rccTimeout then
    let rc ← rccSetFlashLatency cfg.flashLatency.value
    if rc ≠ 0 then pure rc
    else
      rccSetPrescalers cfg
      rccSwitchSysclk swValue
  else pure notReady

/-- Step 1 of the PLL branch: leave the PLL when it runs the system. -/
def rccLeavePll : RccProgram Int := do
  let cfgr ← readReg .cfgr
  if cfgr &&& rccCfgrSwsMsk = rccCfgrSwsPll then
    setBits .cr rccCrHsion
    if ← rccAwait .cr (fun cr => cr &&& rccCrHsirdy ≠ 0) rccTimeout then
      let rc ← rccSwitchSysclk rccCfgrSwHsi
      if rc ≠ 0 then pure (-2) else pure 0
    else pure (-1)
  else pure 0

/-- Step 3: the oscillator that feeds the PLL. -/
def rccStartPllSource (source : PllSource) : RccProgram Int :=
  match source with
  | .hse => do
      setBits .cr rccCrHseon
      if ← rccAwait .cr (fun cr => cr &&& rccCrHserdy ≠ 0) rccTimeout then pure 0
      else pure (-4)
  | .hsi => do
      setBits .cr rccCrHsion
      if ← rccAwait .cr (fun cr => cr &&& rccCrHsirdy ≠ 0) rccTimeout then pure 0
      else pure (-5)

/-- The value that step 5 gives PLLCFGR. -/
def PllConfig.pllcfgr (pll : PllConfig) : Word :=
  pll.pllm ||| pll.plln <<< 6 ||| pll.pllp.value <<< 16 ||| pll.pllSource.value <<< 22 |||
    pll.pllq <<< 24

/-- Steps 7 to 9. -/
def rccEnterPll (cfg : ClkInit) : RccProgram Int := do
  let rc ← rccSetFlashLatency cfg.flashLatency.value
  if rc ≠ 0 then pure rc
  else
    rccSetPrescalers cfg
    rccSwitchSysclk rccCfgrSwPll

/-- Steps 4 to 6, and the rest. -/
def rccStartPll (cfg : ClkInit) : RccProgram Int := do
  setBits .apb1enr rccApb1enrPwren
  let _ ← readReg .apb1enr
  let pwr ← readReg .pwrCr
  assignReg .pwrCr (pwr &&& ~~~pwrCrVosMsk ||| pwrCrVosScale1)
  assignReg .pllcfgr cfg.pll.pllcfgr
  setBits .cr rccCrPllon
  if ← rccAwait .cr (fun cr => cr &&& rccCrPllrdy ≠ 0) rccTimeout then rccEnterPll cfg
  else pure (-6)

def rccSysClkConfig (cfg : ClkInit) : RccProgram Int :=
  match cfg.sysclkSrc with
  | .pll => do
      let rc ← rccLeavePll
      if rc ≠ 0 then pure rc
      else
        clearBits .cr rccCrPllon
        if ← rccAwait .cr (fun cr => cr &&& rccCrPllrdy = 0) rccTimeout then
          let rc ← rccStartPllSource cfg.pll.pllSource
          if rc ≠ 0 then pure rc else rccStartPll cfg
        else pure (-3)
  | .hse => rccRunFrom cfg rccCrHseon rccCrHserdy rccCfgrSwHse (-4)
  | .hsi => rccRunFrom cfg rccCrHsion rccCrHsirdy rccCfgrSwHsi (-1)

end Driver

section ClockTree

/-- The registers, without the flags of CR and the SWS field, which are the hardware's. -/
structure ClockState where
  cr : Word
  cfgr : Word
  pllcfgr : Word
  apb1enr : Word
  acr : Word
  pwrCr : Word
  ready : Source → Bool
  /-- The clock that the system runs from. -/
  sws : Source

def Source.onBit : Source → Word
  | .hsi => rccCrHsion
  | .hse => rccCrHseon
  | .pll => rccCrPllon

def Source.rdyBit : Source → Word
  | .hsi => rccCrHsirdy
  | .hse => rccCrHserdy
  | .pll => rccCrPllrdy

namespace ClockState

def On (s : ClockState) (source : Source) : Prop :=
  s.cr &&& source.onBit ≠ 0

/-- The last clock selected. -/
def Selects (s : ClockState) (source : Source) : Prop :=
  s.cfgr &&& rccCfgrSwMsk = source.value

def setReady (s : ClockState) (source : Source) (b : Bool) : ClockState :=
  { s with ready := Function.update s.ready source b }

/-- The moves of the hardware: a ready flag rises or falls, or SWS follows SW. -/
inductive Hardware (s : ClockState) : ClockState → Prop
  | rise (source : Source) : s.On source → Hardware s (s.setReady source true)
  | fall (source : Source) : ¬s.On source → Hardware s (s.setReady source false)
  | follow (source : Source) : s.Selects source → s.ready source = true →
      Hardware s { s with sws := source }

def value (s : ClockState) : Location → Word → Prop
  | .cr, v => ∀ source : Source, v &&& source.rdyBit ≠ 0 ↔ s.ready source = true
  | .cfgr, v => v = s.cfgr &&& ~~~rccCfgrSwsMsk ||| s.sws.value <<< 2
  | .pllcfgr, v => v = s.pllcfgr
  | .apb1enr, v => v = s.apb1enr
  | .acr, v => v = s.acr
  | .pwrCr, v => v = s.pwrCr

def assigned : Assignment → Word → Word → Word
  | .assign, _, v => v
  | .set, old, v => old ||| v
  | .clear, old, v => old &&& ~~~v

def store (s : ClockState) (how : Assignment) : Location → Word → ClockState
  | .cr, v => { s with cr := assigned how s.cr v }
  | .cfgr, v => { s with cfgr := assigned how s.cfgr v }
  | .pllcfgr, v => { s with pllcfgr := assigned how s.pllcfgr v }
  | .apb1enr, v => { s with apb1enr := assigned how s.apb1enr v }
  | .acr, v => { s with acr := assigned how s.acr v }
  | .pwrCr, v => { s with pwrCr := assigned how s.pwrCr v }

end ClockState

def rccEffect (s : ClockState) : RccAccess → ClockState → Prop
  | .read r v, s' => s.value r v ∧ s' = s
  | .store how r v, s' => s' = s.store how r v

def rcc : Device Location Word ClockState where
  hardware := ClockState.Hardware
  effect := rccEffect

end ClockTree

section Limits

/-- A field of a register. -/
def field (v mask : Word) (pos : Nat) : Nat :=
  ((v &&& mask) >>> pos).toNat

/-- `rcc_get_sysclk_freq` for the PLL, without the rounding of its divisions. -/
def pllFreq (pllcfgr : Word) : ℚ :=
  (if pllcfgr &&& rccPllcfgrPllsrc ≠ 0 then hseValue else hsiValue : Nat) /
      field pllcfgr rccPllcfgrPllmMsk 0 * field pllcfgr rccPllcfgrPllnMsk 6 /
    ((field pllcfgr rccPllcfgrPllpMsk 16 + 1) * 2)

def sysclkFreq (pllcfgr : Word) : Source → ℚ
  | .hsi => hsiValue
  | .hse => hseValue
  | .pll => pllFreq pllcfgr

def hclkFreq (prescalers : Word) (sysclk : ℚ) : ℚ :=
  sysclk / ahbPrescalerTable.getD (field prescalers rccCfgrHpreMsk 4) 1

def pclk1Freq (prescalers : Word) (sysclk : ℚ) : ℚ :=
  hclkFreq prescalers sysclk / apbPrescalerTable.getD (field prescalers rccCfgrPpre1Msk 10) 1

def pclk2Freq (prescalers : Word) (sysclk : ℚ) : ℚ :=
  hclkFreq prescalers sysclk / apbPrescalerTable.getD (field prescalers rccCfgrPpre2Msk 13) 1

/-- The highest HCLK for a number of wait states. -/
def maxHclk (latency : Nat) : ℚ :=
  match latency with
  | 0 => 30000000
  | 1 => 64000000
  | 2 => 90000000
  | _ => 100000000

/-- The latency and the prescalers suit a system clock. -/
structure Suits (latency : Word) (prescalers : Word) (sysclk : ℚ) : Prop where
  hclk : hclkFreq prescalers sysclk ≤ maxHclk latency.toNat
  pclk1 : pclk1Freq prescalers sysclk ≤ 50000000
  pclk2 : pclk2Freq prescalers sysclk ≤ 100000000

namespace ClockState

def latency (s : ClockState) : Word :=
  s.acr &&& flashAcrLatencyMsk

def prescalers (s : ClockState) : Word :=
  s.cfgr &&& prescalersMsk

/-- The state is within limits. -/
def WithinLimits (s : ClockState) : Prop :=
  Suits s.latency s.prescalers (sysclkFreq s.pllcfgr s.sws)

end ClockState

/-- The documented ranges of the fields that are not enumerations. -/
structure PllConfig.InRange (pll : PllConfig) : Prop where
  pllm : 2 ≤ pll.pllm.toNat ∧ pll.pllm.toNat ≤ 63
  plln : 50 ≤ pll.plln.toNat ∧ pll.plln.toNat ≤ 432
  pllq : 2 ≤ pll.pllq.toNat ∧ pll.pllq.toNat ≤ 15

def PllConfig.sourceHz (pll : PllConfig) : Nat :=
  match pll.pllSource with
  | .hsi => hsiValue
  | .hse => hseValue

def PllP.divisor : PllP → Nat
  | .div2 => 2
  | .div4 => 4
  | .div6 => 6
  | .div8 => 8

/-- The documented formula: `PLL_source / PLLM * PLLN / PLLP`. -/
def PllConfig.freq (pll : PllConfig) : ℚ :=
  pll.sourceHz / pll.pllm.toNat * pll.plln.toNat / pll.pllp.divisor

def AhbPrescaler.divisor : AhbPrescaler → Nat
  | .div1 => 1
  | .div2 => 2
  | .div4 => 4
  | .div8 => 8
  | .div16 => 16
  | .div64 => 64
  | .div128 => 128
  | .div256 => 256
  | .div512 => 512

def ApbPrescaler.divisor : ApbPrescaler → Nat
  | .div1 => 1
  | .div2 => 2
  | .div4 => 4
  | .div8 => 8
  | .div16 => 16

def ClkInit.freq (cfg : ClkInit) : ℚ :=
  match cfg.sysclkSrc with
  | .hsi => hsiValue
  | .hse => hseValue
  | .pll => cfg.pll.freq

/-- A target whose own latency and prescalers are within limits. -/
structure ClkInit.Valid (cfg : ClkInit) : Prop where
  inRange : cfg.sysclkSrc = .pll → cfg.pll.InRange
  suits : Suits cfg.flashLatency.value cfg.prescalers cfg.freq

/-- After its first register write the call never leaves the limits. -/
def NeverOverclocks (cfg : ClkInit) (s₀ : ClockState) : Prop :=
  ∀ events p s, Run (Moves rcc) (rccSysClkConfig cfg, s₀) events (p, s) →
    (∃ how r v, some (.store how r v) ∈ events) → s.WithinLimits

end Limits

end Stm32f411.RccClock
