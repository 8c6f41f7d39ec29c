import Stm32f411.BitMasks
import Stm32f411.GpioPins
import Stm32f411.I2cTransfer
import Stm32f411.TruncatedQuotient

/-!
`i2c_init` of `stm32f411_i2c.c`. The half period of the bus clock is a quotient rounded down,
so that the clock comes out at the requested speed or above it.
-/

namespace Stm32f411.I2cInit

open Stm32f411.BitMasks
open Stm32f411.GpioPins
open Stm32f411.I2cTransfer
open Stm32f411.RtosTypes
open Stm32f411.TruncatedQuotient

section Driver

structure I2cConfig where
  clockSpeedHz : Word
  ownAddress : BitVec 16
  dutyCycle : Word

/-- The registers of an instance that `i2c_init` writes. -/
structure I2cRegs where
  cr1 : Word
  cr2 : Word
  oar1 : Word
  oar2 : Word
  ccr : Word
  trise : Word

structure I2cBoard where
  i2c : Instance → I2cRegs
  ports : Ports
  ahb1enr : Word
  apb1enr : Word
  apb1rstr : Word

def i2cPclk1MinHz : Word := 2000000
def i2cPclk1MaxHz : Word := 50000000
def i2cStandardMaxHz : Word := 100000
def i2cFastMaxHz : Word := 400000
def i2cDutyCycle169 : Word := 1
def i2cErrorUnsupported : Int := -3
def i2cCr2FreqMsk : Word := 0x3F
def i2cOar1Bit14 : Word := 0x4000
def i2cCcrCcrMsk : Word := 0xFFF
def i2cCcrDuty : Word := 0x4000
def i2cCcrFs : Word := 0x8000
def i2cTriseTriseMsk : Word := 0x3F
def rccAhb1enrGpioaen : Word := 0x1
def rccAhb1enrGpioben : Word := 0x2
def rccAhb1enrGpiocen : Word := 0x4

def i2cEnableMask : Instance → Word
  | .i2c1 => 0x200000
  | .i2c2 => 0x400000
  | .i2c3 | .other => 0x800000

def i2cResetMask : Instance → Word
  | .i2c1 => 0x200000
  | .i2c2 => 0x400000
  | .i2c3 | .other => 0x800000

def rccAhb1ClkEnable (periph : Word) (board : I2cBoard) : I2cBoard :=
  { board with ahb1enr := board.ahb1enr ||| periph }

def rccApb1ClkEnable (periph : Word) (board : I2cBoard) : I2cBoard :=
  { board with apb1enr := board.apb1enr ||| periph }

def i2cResetValues : I2cRegs := ⟨0, 0, 0, 0, 0, 2⟩

/-- A write to APB1RSTR; the hardware resets the instances whose bits are set. -/
def writeApb1rstr (value : Word) (board : I2cBoard) : I2cBoard :=
  { board with
    apb1rstr := value
    i2c := fun p =>
      if i2cIsSupported p ∧ value &&& i2cResetMask p ≠ 0 then i2cResetValues else board.i2c p }

def rccApb1PeriphReset (periph : Word) (board : I2cBoard) : I2cBoard :=
  let board := writeApb1rstr (board.apb1rstr ||| periph) board
  writeApb1rstr (board.apb1rstr &&& ~~~periph) board

/-- The pins of an instance, and the clock gates of their ports. -/
structure PinPair where
  sclPort : PortName
  sclPin : Word
  sdaPort : PortName
  sdaPin : Word
  gates : Word

def pinPair : Instance → Option PinPair
  | .i2c1 => some ⟨.gpiob, 6, .gpiob, 7, rccAhb1enrGpioben⟩
  | .i2c2 => some ⟨.gpiob, 10, .gpiob, 11, rccAhb1enrGpioben⟩
  | .i2c3 => some ⟨.gpioa, 8, .gpioc, 9, rccAhb1enrGpioaen ||| rccAhb1enrGpiocen⟩
  | .other => none

/-- Alternate function 4, open drain, fast, pulled up. -/
def i2cPinConfig (pin : Word) : GpioPinConfig :=
  { pin
    mode := gpioModeAltfunc
    otype := gpioOtypeOpendrain
    ospeed := 2
    pupd := 1
    altFunc := 4 }

def i2cConfigurePins (instancePtr : Instance) (board : I2cBoard) : I2cBoard × Int :=
  match pinPair instancePtr with
  | none => (board, i2cErrorInvalidParam)
  | some pair =>
      let board := rccAhb1ClkEnable pair.gates board
      let scl := gpioInit board.ports (some pair.sclPort) (some (i2cPinConfig pair.sclPin))
      if scl.2 ≠ 0 then ({ board with ports := scl.1 }, i2cErrorInvalidParam)
      else
        let sda := gpioInit scl.1 (some pair.sdaPort) (some (i2cPinConfig pair.sdaPin))
        ({ board with ports := sda.1 }, if sda.2 = 0 then 0 else i2cErrorInvalidParam)

/-- The local variables `ccr`, `ccr_bits` and `trise`. -/
structure Timing where
  ccr : Word
  ccrBits : Word
  trise : Word

def i2cTiming (pclk1Hz : Word) (config : I2cConfig) : Option Timing :=
  let pclk1Mhz := pclk1Hz / 1000000
  if config.clockSpeedHz ≤ i2cStandardMaxHz then
    let ccr := pclk1Hz / (2 * config.clockSpeedHz)
    some ⟨if ccr < 4 then 4 else ccr, 0, pclk1Mhz + 1⟩
  else
    let sixteenNine := config.dutyCycle = i2cDutyCycle169
    let ccr :=
      if sixteenNine then pclk1Hz / (25 * config.clockSpeedHz)
      else pclk1Hz / (3 * config.clockSpeedHz)
    let ccrBits := if sixteenNine then i2cCcrFs ||| i2cCcrDuty else i2cCcrFs
    if ccr = 0 then none else some ⟨ccr, ccrBits, pclk1Mhz * 3 / 10 + 1⟩

/-- The register writes at the end, with the peripheral disabled in between. -/
def programRegs (pclk1Hz : Word) (config : I2cConfig) (timing : Timing) (regs : I2cRegs) :
    I2cRegs :=
  let regs := { regs with cr1 := regs.cr1 &&& ~~~i2cCr1Pe }
  let regs := { regs with cr2 := pclk1Hz / 1000000 &&& i2cCr2FreqMsk }
  let regs := { regs with oar1 := i2cOar1Bit14 ||| config.ownAddress.zeroExtend 32 <<< 1 }
  let regs := { regs with oar2 := 0 }
  let regs := { regs with ccr := timing.ccrBits ||| (timing.ccr &&& i2cCcrCcrMsk) }
  let regs := { regs with trise := timing.trise &&& i2cTriseTriseMsk }
  { regs with cr1 := i2cCr1Pe ||| i2cCr1Ack }

/-- `pclk1Hz` is what `rcc_get_pclk1_freq` returns. -/
def i2cInit (pclk1Hz : Word) (instancePtr : Instance) (config : Option I2cConfig)
    (board : I2cBoard) : I2cBoard × Int :=
  match config with
  | none => (board, i2cErrorInvalidParam)
  | some config =>
      if i2cIsSupported instancePtr = false ∨ config.clockSpeedHz = 0 ∨
          i2cFastMaxHz < config.clockSpeedHz ∨ 0x7F < config.ownAddress ∨
          i2cDutyCycle169 < config.dutyCycle then
        (board, i2cErrorInvalidParam)
      else if pclk1Hz < i2cPclk1MinHz ∨ i2cPclk1MaxHz < pclk1Hz ∨ pclk1Hz % 1000000 ≠ 0 then
        (board, i2cErrorUnsupported)
      else
        match i2cTiming pclk1Hz config with
        | none => (board, i2cErrorUnsupported)
        | some timing =>
            if i2cCcrCcrMsk < timing.ccr ∨ i2cTriseTriseMsk < timing.trise then
              (board, i2cErrorUnsupported)
            else
              let board := rccApb1ClkEnable (i2cEnableMask instancePtr) board
              let board := rccApb1PeriphReset (i2cResetMask instancePtr) board
              let pins := i2cConfigurePins instancePtr board
              if pins.2 ≠ 0 then pins
              else
                ({ pins.1 with
                   i2c := Function.update pins.1.i2c instancePtr
                     (programRegs pclk1Hz config timing (pins.1.i2c instancePtr)) }, 0)

end Driver

section Speed

/-- The bus modes, as the controller tells them apart. -/
inductive Mode
  | standard | fast | fast169
  deriving DecidableEq

/-- The PCLK1 cycles in an SCL period, for each unit of CCR. -/
def Mode.factor : Mode → Word
  | .standard => 2
  | .fast => 3
  | .fast169 => 25

def Mode.ccrBits : Mode → Word
  | .standard => 0
  | .fast => i2cCcrFs
  | .fast169 => i2cCcrFs ||| i2cCcrDuty

def Mode.maxHz : Mode → Nat
  | .standard => 100000
  | .fast | .fast169 => 400000

/-- The longest rise time in PCLK1 cycles, plus one. -/
def Mode.trise (pclk1Mhz : Word) : Mode → Word
  | .standard => pclk1Mhz + 1
  | .fast | .fast169 => pclk1Mhz * 3 / 10 + 1

def I2cRegs.mode (regs : I2cRegs) : Mode :=
  if regs.ccr &&& i2cCcrFs = 0 then .standard
  else if regs.ccr &&& i2cCcrDuty = 0 then .fast
  else .fast169

def I2cRegs.ccrField (regs : I2cRegs) : Nat :=
  (regs.ccr &&& i2cCcrCcrMsk).toNat

/-- The SCL period in cycles of PCLK1, as the controller generates it. -/
def I2cRegs.sclPeriod (regs : I2cRegs) : Nat :=
  regs.mode.factor.toNat * regs.ccrField

def I2cConfig.mode (config : I2cConfig) : Mode :=
  if config.clockSpeedHz ≤ i2cStandardMaxHz then .standard
  else if config.dutyCycle = i2cDutyCycle169 then .fast169
  else .fast

/-- What the caller may rely on after a success. -/
structure WithinLimits (pclk1Hz : Word) (config : I2cConfig) (regs : I2cRegs) : Prop where
  speed : (pclk1Hz.toNat : ℚ) / regs.sclPeriod ≤ config.clockSpeedHz.toNat
  modeSpeed : (pclk1Hz.toNat : ℚ) / regs.sclPeriod ≤ regs.mode.maxHz
  ccr : 1 ≤ regs.ccrField ∧ regs.ccrField ≤ 0xFFF
  ccrStandard : regs.mode = .standard → 4 ≤ regs.ccrField
  trise : 1 ≤ regs.trise.toNat ∧ regs.trise.toNat ≤ 63
  freq : (regs.cr2 &&& i2cCr2FreqMsk).toNat * 1000000 = pclk1Hz.toNat

/-- The bus is within its limits, or the call has changed nothing. -/
def SpeedKept (pclk1Hz : Word) (instancePtr : Instance) (config : Option I2cConfig)
    (board : I2cBoard) (result : I2cBoard × Int) : Prop :=
  (result.2 = 0 → ∃ c, config = some c ∧ WithinLimits pclk1Hz c (result.1.i2c instancePtr)) ∧
    (result.2 ≠ 0 → result.1 = board)

/-- The inputs that are accepted. -/
structure Accepted (pclk1Hz : Word) (instancePtr : Instance) (config : I2cConfig) : Prop where
  supported : instancePtr ≠ .other
  speed : 0 < config.clockSpeedHz.toNat ∧ config.clockSpeedHz.toNat ≤ 400000
  ownAddress : config.ownAddress.toNat ≤ 0x7F
  dutyCycle : config.dutyCycle.toNat ≤ 1
  pclk1 : 2000000 ≤ pclk1Hz.toNat ∧ pclk1Hz.toNat ≤ 50000000
  wholeMhz : pclk1Hz.toNat % 1000000 = 0
  ccrPos : 0 < pclk1Hz.toNat / (config.mode.factor.toNat * config.clockSpeedHz.toNat)
  ccrFits : pclk1Hz.toNat / (config.mode.factor.toNat * config.clockSpeedHz.toNat) ≤ 0xFFF

end Speed

section Timing

variable {pclk1Hz ccr : Word} {config : I2cConfig} {m : Mode}

theorem toNat_period {factor speed : Word} (hfactor : factor.toNat ≤ 25)
    (hspeed : speed.toNat ≤ 400000) :
    (pclk1Hz / (factor * speed)).toNat = pclk1Hz.toNat / (factor.toNat * speed.toNat) := by
  have hle : factor.toNat * speed.toNat ≤ 25 * 400000 := Nat.mul_le_mul hfactor hspeed
  rw [BitVec.toNat_udiv, BitVec.toNat_mul, Nat.mod_eq_of_lt (by omega)]

theorem factor_le (m : Mode) : m.factor.toNat ≤ 25 := by
  cases m <;> decide

/-- In standard mode the quotient is at least ten: neither clamp nor refusal is reached. -/
theorem standard_ccr_ge (config : I2cConfig) (hpclk : 2000000 ≤ pclk1Hz.toNat)
    (hspeed : 0 < config.clockSpeedHz.toNat ∧ config.clockSpeedHz.toNat ≤ 400000)
    (h : config.mode = .standard) :
    10 ≤ (pclk1Hz / (config.mode.factor * config.clockSpeedHz)).toNat := by
  have hslow : config.clockSpeedHz.toNat ≤ 100000 := by
    unfold I2cConfig.mode at h
    split at h
    · next hle => exact hle
    · split at h <;> cases h
  have htwo : (Mode.factor .standard).toNat = 2 := rfl
  rw [toNat_period (factor_le _) hspeed.2, h, htwo, Nat.le_div_iff_mul_le (by omega)]
  omega

theorem i2cTiming_eq (hpclk : 2000000 ≤ pclk1Hz.toNat)
    (hspeed : 0 < config.clockSpeedHz.toNat ∧ config.clockSpeedHz.toNat ≤ 400000) :
    i2cTiming pclk1Hz config =
      if pclk1Hz / (config.mode.factor * config.clockSpeedHz) = 0 then none
      else some ⟨pclk1Hz / (config.mode.factor * config.clockSpeedHz), config.mode.ccrBits,
        config.mode.trise (pclk1Hz / 1000000)⟩ := by
  have hstandard := standard_ccr_ge config hpclk hspeed
  unfold i2cTiming
  unfold I2cConfig.mode at hstandard ⊢
  dsimp only
  split
  · next hslow =>
      have hge := hstandard (if_pos hslow)
      rw [if_pos hslow] at hge
      have hclamp : ¬pclk1Hz / (Mode.factor .standard * config.clockSpeedHz) < 4 := by
        rw [BitVec.lt_def]
        exact Nat.not_lt.mpr (Nat.le_trans (by decide) hge)
      have hne : pclk1Hz / (Mode.factor .standard * config.clockSpeedHz) ≠ 0 := by
        intro hzero
        rw [hzero] at hge
        exact absurd hge (by decide)
      rw [if_neg hne]
      exact congrArg (fun ccr => some (Timing.mk ccr _ _)) (if_neg hclamp)
  · split
    · rfl
    · rfl

theorem trise_bounds (hpclk : pclk1Hz.toNat ≤ 50000000) :
    1 ≤ (m.trise (pclk1Hz / 1000000)).toNat ∧ (m.trise (pclk1Hz / 1000000)).toNat ≤ 51 := by
  have hmhz : (pclk1Hz / 1000000).toNat = pclk1Hz.toNat / 1000000 := BitVec.toNat_udiv
  have hone : (1 : Word).toNat = 1 := rfl
  have hstandard : (pclk1Hz / 1000000 + 1).toNat = pclk1Hz.toNat / 1000000 + 1 := by
    rw [BitVec.toNat_add, hmhz, hone, Nat.mod_eq_of_lt (by omega)]
  have hfast : (pclk1Hz / 1000000 * 3 / 10 + 1).toNat =
      pclk1Hz.toNat / 1000000 * 3 / 10 + 1 := by
    have hthree : (3 : Word).toNat = 3 := rfl
    have hten : (10 : Word).toNat = 10 := rfl
    rw [BitVec.toNat_add, BitVec.toNat_udiv, BitVec.toNat_mul, hmhz, hone, hthree, hten,
      Nat.mod_eq_of_lt (show pclk1Hz.toNat / 1000000 * 3 < 2 ^ 32 by omega),
      Nat.mod_eq_of_lt (by omega)]
  cases m with
  | standard =>
      rw [Mode.trise, hstandard]
      omega
  | fast =>
      rw [Mode.trise, hfast]
      omega
  | fast169 =>
      rw [Mode.trise, hfast]
      omega

end Timing

section Calls

variable {pclk1Hz : Word} {instancePtr : Instance} {config : I2cConfig} {board : I2cBoard}

theorem pinConfig_valid {pin : Word} (h : pin ≤ gpioPin15) : (i2cPinConfig pin).Valid := by
  have hspeed : (2 : Word) ≤ gpioOspeedHigh := by decide
  have hpull : (1 : Word) ≤ gpioPupdPulldown := by decide
  have halt : (4 : Word) ≤ gpioAf15 := by decide
  exact ⟨h, show gpioModeAltfunc ≤ gpioModeAnalog by decide, BitVec.le_refl _, hspeed, hpull, halt⟩

theorem pinPair_supported (h : instancePtr ≠ .other) :
    ∃ pair, pinPair instancePtr = some pair ∧ pair.sclPin ≤ gpioPin15 ∧
      pair.sdaPin ≤ gpioPin15 := by
  cases instancePtr with
  | i2c1 => exact ⟨_, rfl, by decide, by decide⟩
  | i2c2 => exact ⟨_, rfl, by decide, by decide⟩
  | i2c3 => exact ⟨_, rfl, by decide, by decide⟩
  | other => exact absurd rfl h

/-- The pins of a supported instance can always be configured. -/
theorem configurePins_supported (h : instancePtr ≠ .other) :
    (i2cConfigurePins instancePtr board).2 = 0 := by
  obtain ⟨pair, hpair, hscl, hsda⟩ := pinPair_supported h
  simp only [i2cConfigurePins, hpair, gpioInit_valid (pinConfig_valid hscl),
    gpioInit_valid (pinConfig_valid hsda), ne_eq, not_true_eq_false, ↓reduceIte]

/-- The quotient that becomes CCR. -/
def period (pclk1Hz : Word) (config : I2cConfig) : Word :=
  pclk1Hz / (config.mode.factor * config.clockSpeedHz)

def timing (pclk1Hz : Word) (config : I2cConfig) : Timing :=
  ⟨period pclk1Hz config, config.mode.ccrBits, config.mode.trise (pclk1Hz / 1000000)⟩

theorem i2cInit_accepted (board : I2cBoard) (h : Accepted pclk1Hz instancePtr config) :
    (i2cInit pclk1Hz instancePtr (some config) board).2 = 0 ∧
      ∃ regs, (i2cInit pclk1Hz instancePtr (some config) board).1.i2c instancePtr =
        programRegs pclk1Hz config (timing pclk1Hz config) regs := by
  have hperiod : (period pclk1Hz config).toNat = _ := toNat_period (factor_le _) h.speed.2
  have hparams : ¬(i2cIsSupported instancePtr = false ∨ config.clockSpeedHz = 0 ∨
      i2cFastMaxHz < config.clockSpeedHz ∨ 0x7F < config.ownAddress ∨
      i2cDutyCycle169 < config.dutyCycle) := by
    simp only [not_or, BitVec.not_lt]
    refine ⟨by simp [i2cIsSupported, h.supported], fun hzero => ?_, h.speed.2, h.ownAddress,
      h.dutyCycle⟩
    have hpos := h.speed.1
    rw [hzero] at hpos
    exact absurd hpos (by decide)
  have hclock : ¬(pclk1Hz < i2cPclk1MinHz ∨ i2cPclk1MaxHz < pclk1Hz ∨ pclk1Hz % 1000000 ≠ 0) := by
    simp only [not_or, BitVec.not_lt, not_not]
    exact ⟨h.pclk1.1, h.pclk1.2, BitVec.eq_of_toNat_eq (BitVec.toNat_umod.trans h.wholeMhz)⟩
  have htiming : i2cTiming pclk1Hz config = some (timing pclk1Hz config) := by
    rw [i2cTiming_eq h.pclk1.1 h.speed, if_neg]
    · rfl
    · intro hzero
      have hpos := h.ccrPos
      rw [← hperiod, period, hzero] at hpos
      exact absurd hpos (by decide)
  have hfits : ¬(i2cCcrCcrMsk < (timing pclk1Hz config).ccr ∨
      i2cTriseTriseMsk < (timing pclk1Hz config).trise) := by
    rw [not_or, BitVec.not_lt, BitVec.not_lt]
    refine ⟨?_, Nat.le_trans (trise_bounds h.pclk1.2).2 (by decide)⟩
    change (period pclk1Hz config).toNat ≤ 0xFFF
    rw [hperiod]
    exact h.ccrFits
  have hpins {board : I2cBoard} : (i2cConfigurePins instancePtr board).2 = 0 :=
    configurePins_supported h.supported
  unfold i2cInit
  dsimp only
  rw [if_neg hparams, if_neg hclock, htiming]
  dsimp only
  rw [if_neg hfits, if_neg (not_not.mpr hpins)]
  exact ⟨rfl, _, Function.update_self ..⟩

/-- The checks of the driver leave only accepted inputs. -/
theorem accepted_of_checks
    (hparams : ¬(i2cIsSupported instancePtr = false ∨ config.clockSpeedHz = 0 ∨
      i2cFastMaxHz < config.clockSpeedHz ∨ 0x7F < config.ownAddress ∨
      i2cDutyCycle169 < config.dutyCycle))
    (hclock : ¬(pclk1Hz < i2cPclk1MinHz ∨ i2cPclk1MaxHz < pclk1Hz ∨ pclk1Hz % 1000000 ≠ 0))
    {t : Timing} (htiming : i2cTiming pclk1Hz config = some t)
    (hfits : ¬(i2cCcrCcrMsk < t.ccr ∨ i2cTriseTriseMsk < t.trise)) :
    Accepted pclk1Hz instancePtr config := by
  simp only [not_or, BitVec.not_lt, not_not] at hparams hclock hfits
  obtain ⟨hsupported, hzero, hspeed, haddress, hduty⟩ := hparams
  obtain ⟨hmin, hmax, hmhz⟩ := hclock
  have hpos : 0 < config.clockSpeedHz.toNat :=
    Nat.pos_of_ne_zero fun heq => hzero (BitVec.eq_of_toNat_eq heq)
  have hperiod : (period pclk1Hz config).toNat = _ := toNat_period (factor_le _) hspeed
  rw [i2cTiming_eq hmin ⟨hpos, hspeed⟩] at htiming
  split at htiming
  · cases htiming
  · next hccr =>
      obtain rfl := Option.some.inj htiming
      refine ⟨?_, ⟨hpos, hspeed⟩, haddress, hduty, ⟨hmin, hmax⟩, ?_, ?_, ?_⟩
      · rintro rfl
        exact hsupported rfl
      · rw [← BitVec.toNat_inj, BitVec.toNat_umod] at hmhz
        exact hmhz
      · rw [← hperiod]
        exact Nat.pos_of_ne_zero fun heq => hccr (BitVec.eq_of_toNat_eq heq)
      · rw [← hperiod]
        exact hfits.1

theorem i2cInit_refused (board : I2cBoard) (h : ¬Accepted pclk1Hz instancePtr config) :
    (i2cInit pclk1Hz instancePtr (some config) board).1 = board ∧
      (i2cInit pclk1Hz instancePtr (some config) board).2 ≠ 0 := by
  have hinvalid : i2cErrorInvalidParam ≠ 0 := by decide
  have hunsupported : i2cErrorUnsupported ≠ 0 := by decide
  unfold i2cInit
  dsimp only
  split
  · exact ⟨rfl, hinvalid⟩
  · next hparams =>
      split
      · exact ⟨rfl, hunsupported⟩
      · next hclock =>
          split
          · exact ⟨rfl, hunsupported⟩
          · next htiming =>
              split
              · exact ⟨rfl, hunsupported⟩
              · next hfits =>
                  exact absurd (accepted_of_checks hparams hclock htiming hfits) h

end Calls

section Registers

variable {pclk1Hz v : Word} {config : I2cConfig} {m : Mode} {regs : I2cRegs}

/-- The mode bits and the quotient do not meet in CCR. -/
theorem mode_of_ccr (hccr : regs.ccr = m.ccrBits ||| (v &&& i2cCcrCcrMsk)) : regs.mode = m := by
  have hwithin : v &&& i2cCcrCcrMsk &&& ~~~i2cCcrCcrMsk = 0 := by
    rw [BitVec.and_assoc, BitVec.and_not_self]
    exact BitVec.and_zero
  have hfs : v &&& i2cCcrCcrMsk &&& i2cCcrFs = 0 := and_of_within hwithin (by decide)
  have hduty : v &&& i2cCcrCcrMsk &&& i2cCcrDuty = 0 := and_of_within hwithin (by decide)
  unfold I2cRegs.mode
  rw [hccr, or_and, or_and, hfs, hduty]
  cases m <;> rfl

theorem ccrField_of_ccr (hccr : regs.ccr = m.ccrBits ||| (v &&& i2cCcrCcrMsk))
    (hv : v.toNat ≤ 0xFFF) : regs.ccrField = v.toNat := by
  have hfield : v &&& i2cCcrCcrMsk &&& i2cCcrCcrMsk = v := by
    rw [BitVec.and_assoc, BitVec.and_self]
    exact and_eq_of_within (within_low (n := 12) (by decide) (Nat.lt_succ_of_le hv))
  have hbits : m.ccrBits &&& i2cCcrCcrMsk = 0 := by
    cases m <;> rfl
  rw [I2cRegs.ccrField, hccr, or_and, hbits, hfield]
  exact congrArg BitVec.toNat BitVec.zero_or

theorem toNat_low6 (h : v.toNat ≤ 63) : (v &&& 0x3F).toNat = v.toNat := by
  have hlow : (v &&& 0x3F).toNat = v.toNat % 2 ^ 6 := toNat_and_low (n := 6) (by decide)
  rw [hlow, Nat.mod_eq_of_lt (by omega)]

theorem speed_le_maxHz {instancePtr : Instance} (h : Accepted pclk1Hz instancePtr config) :
    config.clockSpeedHz.toNat ≤ config.mode.maxHz := by
  unfold I2cConfig.mode
  split
  · next hslow => exact hslow
  · split
    · exact h.speed.2
    · exact h.speed.2

theorem trise_programmed (config : I2cConfig) (regs : I2cRegs)
    (hpclk : pclk1Hz.toNat ≤ 50000000) :
    1 ≤ (programRegs pclk1Hz config (timing pclk1Hz config) regs).trise.toNat ∧
      (programRegs pclk1Hz config (timing pclk1Hz config) regs).trise.toNat ≤ 63 := by
  obtain ⟨hlow, hhigh⟩ := trise_bounds (m := config.mode) hpclk
  change 1 ≤ (config.mode.trise (pclk1Hz / 1000000) &&& 0x3F).toNat ∧
    (config.mode.trise (pclk1Hz / 1000000) &&& 0x3F).toNat ≤ 63
  rw [toNat_low6 (by omega)]
  exact ⟨hlow, by omega⟩

theorem freq_programmed (config : I2cConfig) (timing : Timing) (regs : I2cRegs)
    (hpclk : pclk1Hz.toNat ≤ 50000000) (hwhole : pclk1Hz.toNat % 1000000 = 0) :
    ((programRegs pclk1Hz config timing regs).cr2 &&& i2cCr2FreqMsk).toNat * 1000000 =
      pclk1Hz.toNat := by
  have hmhz : (pclk1Hz / 1000000).toNat = pclk1Hz.toNat / 1000000 := BitVec.toNat_udiv
  change (pclk1Hz / 1000000 &&& 0x3F &&& 0x3F).toNat * 1000000 = _
  rw [BitVec.and_assoc, BitVec.and_self, toNat_low6 (by omega), hmhz]
  omega

/-- An accepted input meets every limit exactly when the quotient is exact. -/
theorem withinLimits_iff {instancePtr : Instance} (h : Accepted pclk1Hz instancePtr config) :
    WithinLimits pclk1Hz config (programRegs pclk1Hz config (timing pclk1Hz config) regs) ↔
      config.mode.factor.toNat * config.clockSpeedHz.toNat ∣ pclk1Hz.toNat := by
  have hperiod : (period pclk1Hz config).toNat = _ := toNat_period (factor_le _) h.speed.2
  have htrise := trise_programmed config regs h.pclk1.2
  have hfreq := freq_programmed config (timing pclk1Hz config) regs h.pclk1.2 h.wholeMhz
  have hccr : (programRegs pclk1Hz config (timing pclk1Hz config) regs).ccr =
      config.mode.ccrBits ||| (period pclk1Hz config &&& i2cCcrCcrMsk) := rfl
  generalize programRegs pclk1Hz config (timing pclk1Hz config) regs = regs'
    at hccr htrise hfreq ⊢
  have hmode := mode_of_ccr hccr
  have hfield : regs'.ccrField = _ :=
    (ccrField_of_ccr hccr (hperiod.trans_le h.ccrFits)).trans hperiod
  have hrate : (pclk1Hz.toNat : ℚ) / regs'.sclPeriod ≤ config.clockSpeedHz.toNat ↔
      config.mode.factor.toNat * config.clockSpeedHz.toNat ∣ pclk1Hz.toNat := by
    rw [I2cRegs.sclPeriod, hmode, hfield]
    exact rate_le_iff h.ccrPos
  constructor
  · intro hlimits
    exact hrate.mp hlimits.speed
  · intro hexact
    have hspeed := hrate.mpr hexact
    refine ⟨hspeed, hspeed.trans ?_, ?_, fun hstandard => ?_, htrise, hfreq⟩
    · rw [hmode]
      exact_mod_cast speed_le_maxHz h
    · rw [hfield]
      exact ⟨h.ccrPos, h.ccrFits⟩
    · have hge := standard_ccr_ge config h.pclk1.1 h.speed (hmode.symm.trans hstandard)
      rw [toNat_period (factor_le _) h.speed.2, ← hfield] at hge
      omega

theorem speedKept_accepted {instancePtr : Instance} {board : I2cBoard}
    (h : Accepted pclk1Hz instancePtr config) :
    SpeedKept pclk1Hz instancePtr (some config) board
        (i2cInit pclk1Hz instancePtr (some config) board) ↔
      config.mode.factor.toNat * config.clockSpeedHz.toNat ∣ pclk1Hz.toNat := by
  obtain ⟨hrc, regs, hregs⟩ := i2cInit_accepted board h
  rw [← withinLimits_iff h, ← hregs]
  constructor
  · rintro ⟨hright, -⟩
    obtain ⟨c, hc, hlimits⟩ := hright hrc
    obtain rfl := Option.some.inj hc
    exact hlimits
  · intro hlimits
    exact ⟨fun _ => ⟨config, rfl, hlimits⟩, fun hne => absurd hrc hne⟩

/-- The bus keeps to the requested speed exactly for the accepted inputs whose quotient is
exact. -/
theorem speed_kept_iff (pclk1Hz : Word) (instancePtr : Instance) (config : Option I2cConfig)
    (board : I2cBoard) :
    SpeedKept pclk1Hz instancePtr config board (i2cInit pclk1Hz instancePtr config board) ↔
      ∀ c, config = some c → Accepted pclk1Hz instancePtr c →
        c.mode.factor.toNat * c.clockSpeedHz.toNat ∣ pclk1Hz.toNat := by
  cases config with
  | none =>
      refine iff_of_true ⟨fun hrc => ?_, fun _ => rfl⟩ (fun _ h => nomatch h)
      exact absurd hrc (by decide : i2cErrorInvalidParam ≠ 0)
  | some config =>
      simp only [Option.some.injEq, forall_eq']
      by_cases haccepted : Accepted pclk1Hz instancePtr config
      · rw [speedKept_accepted haccepted]
        exact (imp_iff_right haccepted).symm
      · obtain ⟨hsame, hrc⟩ := i2cInit_refused board haccepted
        refine iff_of_true ⟨fun hzero => absurd hzero hrc, fun _ => hsame⟩ ?_
        exact fun h => absurd h haccepted

def demoBoard : I2cBoard :=
  ⟨fun _ => i2cResetValues, fun _ => ⟨0, 0, 0, 0, fun _ => 0⟩, 0, 0, 0⟩

def demoConfig : I2cConfig := ⟨400000, 0, 0⟩

/-- At 50 MHz a request for 400 kHz sets CCR to 41 in fast mode, which makes 406.5 kHz. -/
theorem fast_bus_above_limit :
    (i2cInit 50000000 .i2c1 (some demoConfig) demoBoard).2 = 0 ∧
      ((i2cInit 50000000 .i2c1 (some demoConfig) demoBoard).1.i2c .i2c1).ccr = 0x8029 ∧
      ((i2cInit 50000000 .i2c1 (some demoConfig) demoBoard).1.i2c .i2c1).sclPeriod = 3 * 41 ∧
      400000 * (3 * 41) < 50000000 ∧
      ¬SpeedKept 50000000 .i2c1 (some demoConfig) demoBoard
        (i2cInit 50000000 .i2c1 (some demoConfig) demoBoard) := by
  have haccepted : Accepted 50000000 .i2c1 demoConfig :=
    ⟨by decide, by decide, by decide, by decide, by decide, by decide, by decide, by decide⟩
  refine ⟨by decide, by decide, by decide, by decide, ?_⟩
  rw [speedKept_accepted haccepted]
  decide

end Registers

end Stm32f411.I2cInit
