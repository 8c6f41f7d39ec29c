import Mathlib.Data.List.Nodup
import Stm32f411.BitFields
import Stm32f411.BitMasks
import Stm32f411.RtosTypes

/-!
`gpio_init` and `gpio_deinit` of `stm32f411_gpio.c`. A port is sixteen pins, each with its
fields; the register writes of the driver are updates of one pin.
-/

namespace Stm32f411.GpioPins

open Stm32f411.BitFields
open Stm32f411.BitMasks
open Stm32f411.RtosTypes

section Driver

inductive PortName
  | gpioa | gpiob | gpioc | gpiod | gpioe | gpioh
  deriving DecidableEq

/-- The configuration registers of a port. -/
@[ext]
structure GpioPort where
  moder : Word
  otyper : Word
  ospeedr : Word
  pupdr : Word
  afr : Fin 2 → Word

abbrev Ports := PortName → GpioPort

/-- The enumerations of C do not keep a caller from passing other values. -/
structure GpioPinConfig where
  pin : Word
  mode : Word
  otype : Word
  ospeed : Word
  pupd : Word
  altFunc : Word

def gpioPin15 : Word := 15
def gpioModeAltfunc : Word := 2
def gpioModeAnalog : Word := 3
def gpioOtypeOpendrain : Word := 1
def gpioOspeedHigh : Word := 3
def gpioPupdPulldown : Word := 2
def gpioAf15 : Word := 15

/-- `reg &= ~(mask << pos); reg |= value << pos`. -/
def modifyField (reg mask value pos : Word) : Word :=
  reg &&& ~~~(mask <<< pos) ||| value <<< pos

def afrIdx (pin : Word) : Fin 2 := Fin.ofNat 2 (pin >>> 3).toNat

def afrShift (pin : Word) : Word := (pin &&& 7) * 4

/-- Step 1 of `gpio_init`, before the mode is set. -/
def configureAltFunc (port : GpioPort) (config : GpioPinConfig) : GpioPort :=
  if config.mode = gpioModeAltfunc then
    { port with
      afr := Function.update port.afr (afrIdx config.pin)
        (modifyField (port.afr (afrIdx config.pin)) 0xF config.altFunc (afrShift config.pin)) }
  else port

/-- The register writes of `gpio_init`. -/
def configurePin (port : GpioPort) (config : GpioPinConfig) : GpioPort :=
  let bitPos2 := config.pin * 2
  let port := configureAltFunc port config
  let port := { port with otyper := modifyField port.otyper 1 config.otype config.pin }
  let port := { port with ospeedr := modifyField port.ospeedr 3 config.ospeed bitPos2 }
  let port := { port with pupdr := modifyField port.pupdr 3 config.pupd bitPos2 }
  { port with moder := modifyField port.moder 3 config.mode bitPos2 }

def gpioInit (ports : Ports) (port : Option PortName) (config : Option GpioPinConfig) :
    Ports × Int :=
  match port, config with
  | some port, some config =>
      if gpioPin15 < config.pin then (ports, -1)
      else if gpioModeAnalog < config.mode ∨ gpioOtypeOpendrain < config.otype ∨
          gpioOspeedHigh < config.ospeed ∨ gpioPupdPulldown < config.pupd ∨
          gpioAf15 < config.altFunc then
        (ports, -1)
      else (Function.update ports port (configurePin (ports port) config), 0)
  | _, _ => (ports, -1)

/-- The register writes of `gpio_deinit`. -/
def resetPin (port : GpioPort) (pin : Word) : GpioPort :=
  let bitPos2 := pin * 2
  { moder := port.moder &&& ~~~((3 : Word) <<< bitPos2)
    otyper := port.otyper &&& ~~~((1 : Word) <<< pin)
    ospeedr := port.ospeedr &&& ~~~((3 : Word) <<< bitPos2)
    pupdr := port.pupdr &&& ~~~((3 : Word) <<< bitPos2)
    afr := Function.update port.afr (afrIdx pin)
      (port.afr (afrIdx pin) &&& ~~~((0xF : Word) <<< afrShift pin)) }

def gpioDeinit (ports : Ports) (port : Option PortName) (pin : Word) : Ports × Int :=
  match port with
  | none => (ports, -1)
  | some port =>
      if gpioPin15 < pin then (ports, -1)
      else (Function.update ports port (resetPin (ports port) pin), 0)

end Driver

section Pins

/-- The fields of one pin. -/
structure PinFields where
  mode : Word
  otype : Word
  ospeed : Word
  pupd : Word
  altFunc : Word

/-- What the registers say about pin `i`. -/
def GpioPort.fields (port : GpioPort) (i : Nat) : PinFields where
  mode := lane port.moder 2 i
  otype := lane port.otyper 1 i
  ospeed := lane port.ospeedr 2 i
  pupd := lane port.pupdr 2 i
  altFunc := lane (port.afr (Fin.ofNat 2 (i / 8))) 4 (i % 8)

/-- The bits of OTYPER that belong to no pin. -/
def GpioPort.reserved (port : GpioPort) : Word :=
  port.otyper >>> 16

/-- What a configuration makes of the fields of its pin. -/
def PinFields.apply (fields : PinFields) (config : GpioPinConfig) : PinFields where
  mode := config.mode
  otype := config.otype
  ospeed := config.ospeed
  pupd := config.pupd
  altFunc := if config.mode = gpioModeAltfunc then config.altFunc else fields.altFunc

def PinFields.reset : PinFields := ⟨0, 0, 0, 0, 0⟩

/-- Every field is in its documented range. -/
structure GpioPinConfig.Valid (config : GpioPinConfig) : Prop where
  pin : config.pin ≤ gpioPin15
  mode : config.mode ≤ gpioModeAnalog
  otype : config.otype ≤ gpioOtypeOpendrain
  ospeed : config.ospeed ≤ gpioOspeedHigh
  pupd : config.pupd ≤ gpioPupdPulldown
  altFunc : config.altFunc ≤ gpioAf15

end Pins

section Registers

variable {pin v reg : Word} {port port' : GpioPort} {i j : Nat}

theorem toNat_double (h : pin ≤ gpioPin15) : (pin * 2).toNat = 2 * pin.toNat := by
  have hle : pin.toNat ≤ 15 := h
  have htwo : (2 : Word).toNat = 2 := rfl
  rw [BitVec.toNat_mul, htwo, Nat.mod_eq_of_lt (by omega), Nat.mul_comm]

theorem toNat_afrShift : (afrShift pin).toNat = 4 * (pin.toNat % 8) := by
  have hlow : (pin &&& 7).toNat = pin.toNat % 8 := toNat_and_low (n := 3) (by decide)
  have hfour : (4 : Word).toNat = 4 := rfl
  rw [afrShift, BitVec.toNat_mul, hlow, hfour, Nat.mod_eq_of_lt (by omega), Nat.mul_comm]

theorem afrIdx_eq : afrIdx pin = Fin.ofNat 2 (pin.toNat / 8) := by
  rw [afrIdx, BitVec.toNat_ushiftRight, Nat.shiftRight_eq_div_pow]

theorem modifyField_eq_setLane {mask pos : Word} {n : Nat} (hmask : mask = lowMask 32 n)
    (hpos : pos.toNat = n * i) : modifyField reg mask v pos = setLane reg n i v := by
  rw [modifyField, BitVec.shiftLeft_eq', BitVec.shiftLeft_eq', hpos, hmask]
  rfl

/-- A port is determined by its pins and the reserved bits. -/
theorem port_ext (h : ∀ i < 16, port.fields i = port'.fields i)
    (hreserved : port.reserved = port'.reserved) : port = port' := by
  have hwhole (x y : Word) : x >>> 32 = y >>> 32 := by
    rw [BitVec.ushiftRight_eq_zero (Nat.le_refl 32), BitVec.ushiftRight_eq_zero (Nat.le_refl 32)]
  apply GpioPort.ext
  · exact eq_of_lanes (n := 2) (k := 16) (by decide) (by decide)
      (fun i hi => congrArg PinFields.mode (h i hi)) (hwhole _ _)
  · exact eq_of_lanes (n := 1) (k := 16) (by decide) (by decide)
      (fun i hi => congrArg PinFields.otype (h i hi)) hreserved
  · exact eq_of_lanes (n := 2) (k := 16) (by decide) (by decide)
      (fun i hi => congrArg PinFields.ospeed (h i hi)) (hwhole _ _)
  · exact eq_of_lanes (n := 2) (k := 16) (by decide) (by decide)
      (fun i hi => congrArg PinFields.pupd (h i hi)) (hwhole _ _)
  · funext half
    refine eq_of_lanes (n := 4) (k := 8) (by decide) (by decide) (fun i hi => ?_) (hwhole _ _)
    have hfield := congrArg PinFields.altFunc (h (8 * half.val + i) (by omega))
    have hdiv : (8 * half.val + i) / 8 = half.val := by omega
    have hmod : (8 * half.val + i) % 8 = i := by omega
    simpa only [GpioPort.fields, hdiv, hmod, Fin.ofNat_val_eq_self] using hfield

/-- Writing the alternate function of one pin. -/
theorem altFunc_update (afr : Fin 2 → Word) (hv : v ≤ gpioAf15) (hpin : pin ≤ gpioPin15)
    (hi : i < 16) :
    lane (Function.update afr (afrIdx pin)
      (modifyField (afr (afrIdx pin)) 0xF v (afrShift pin)) (Fin.ofNat 2 (i / 8))) 4 (i % 8) =
      if i = pin.toNat then v else lane (afr (Fin.ofNat 2 (i / 8))) 4 (i % 8) := by
  have hle : pin.toNat ≤ 15 := hpin
  have hlt : v.toNat < 2 ^ 4 := Nat.lt_of_le_of_lt hv (by decide)
  have hlane (reg : Word) :
      modifyField reg 0xF v (afrShift pin) = setLane reg 4 (pin.toNat % 8) v :=
    modifyField_eq_setLane (by decide) toNat_afrShift
  rw [hlane, afrIdx_eq]
  by_cases hhalf : i / 8 = pin.toNat / 8
  · rw [hhalf, Function.update_self, lane_setLane hlt (by omega)]
    refine if_congr ?_ rfl rfl
    omega
  · have hne : Fin.ofNat 2 (i / 8) ≠ Fin.ofNat 2 (pin.toNat / 8) := by
      intro heq
      have hval := congrArg Fin.val heq
      simp only [Fin.ofNat] at hval
      omega
    rw [Function.update_of_ne hne, if_neg]
    rintro rfl
    exact hhalf rfl

/-- Writing a field of two bits of one pin. -/
theorem pair_update (reg : Word) (i : Nat) (hv : v ≤ 3) (hpin : pin ≤ gpioPin15) :
    lane (modifyField reg 3 v (pin * 2)) 2 i = if i = pin.toNat then v else lane reg 2 i := by
  have hle : pin.toNat ≤ 15 := hpin
  have hlt : v.toNat < 2 ^ 2 := Nat.lt_of_le_of_lt hv (by decide)
  have hlane : modifyField reg 3 v (pin * 2) = setLane reg 2 pin.toNat v :=
    modifyField_eq_setLane (by decide) (toNat_double hpin)
  rw [hlane, lane_setLane hlt (by omega)]

/-- Writing the bit of one pin. -/
theorem bit_update (reg : Word) (i : Nat) (hv : v ≤ 1) (hpin : pin ≤ gpioPin15) :
    lane (modifyField reg 1 v pin) 1 i = (if i = pin.toNat then v else lane reg 1 i) ∧
      modifyField reg 1 v pin >>> 16 = reg >>> 16 := by
  have hle : pin.toNat ≤ 15 := hpin
  have hlt : v.toNat < 2 ^ 1 := Nat.lt_of_le_of_lt hv (by decide)
  have hlane : modifyField reg 1 v pin = setLane reg 1 pin.toNat v :=
    modifyField_eq_setLane (by decide) (Nat.one_mul _).symm
  rw [hlane]
  exact ⟨lane_setLane hlt (by omega), ushiftRight_setField hlt (by omega)⟩

theorem configurePin_eq (port : GpioPort) (config : GpioPinConfig) :
    configurePin port config =
      { moder := modifyField port.moder 3 config.mode (config.pin * 2)
        otyper := modifyField port.otyper 1 config.otype config.pin
        ospeedr := modifyField port.ospeedr 3 config.ospeed (config.pin * 2)
        pupdr := modifyField port.pupdr 3 config.pupd (config.pin * 2)
        afr := (configureAltFunc port config).afr } := by
  unfold configurePin configureAltFunc
  split <;> rfl

/-- The writes of `gpio_init` update one pin. -/
theorem fields_configurePin {config : GpioPinConfig} (h : config.Valid) (hi : i < 16) :
    (configurePin port config).fields i =
      if i = config.pin.toNat then (port.fields i).apply config else port.fields i := by
  have hmode := pair_update port.moder i h.mode h.pin
  have hotype := (bit_update port.otyper i h.otype h.pin).1
  have hospeed := pair_update port.ospeedr i h.ospeed h.pin
  have hpupd := pair_update port.pupdr i (BitVec.le_trans h.pupd (by decide)) h.pin
  have haltFunc := altFunc_update port.afr h.altFunc h.pin hi
  rw [configurePin_eq, configureAltFunc, GpioPort.fields, hmode, hotype, hospeed, hpupd]
  by_cases hsame : i = config.pin.toNat
  · simp only [if_pos hsame, PinFields.apply] at haltFunc ⊢
    split
    · rw [haltFunc]
    · rfl
  · simp only [if_neg hsame] at haltFunc ⊢
    split
    · rw [haltFunc]
      rfl
    · rfl

theorem reserved_configurePin {config : GpioPinConfig} (h : config.Valid) :
    (configurePin port config).reserved = port.reserved := by
  rw [configurePin_eq]
  exact (bit_update port.otyper 0 h.otype h.pin).2

theorem clear_eq_modifyField (reg mask pos : Word) :
    reg &&& ~~~(mask <<< pos) = modifyField reg mask 0 pos := by
  have hzero : (0 : Word) <<< pos = 0 := BitVec.zero_shiftLeft pos.toNat
  rw [modifyField, hzero]
  exact BitVec.or_zero.symm

/-- The writes of `gpio_deinit` reset one pin. -/
theorem fields_resetPin (hpin : pin ≤ gpioPin15) (hi : i < 16) :
    (resetPin port pin).fields i = if i = pin.toNat then .reset else port.fields i := by
  have hmode := pair_update (v := 0) port.moder i (by decide) hpin
  have hotype := (bit_update (v := 0) port.otyper i (by decide) hpin).1
  have hospeed := pair_update (v := 0) port.ospeedr i (by decide) hpin
  have hpupd := pair_update (v := 0) port.pupdr i (by decide) hpin
  have haltFunc := altFunc_update (v := 0) port.afr (by decide) hpin hi
  simp only [resetPin, clear_eq_modifyField, GpioPort.fields, hmode, hotype, hospeed, hpupd,
    haltFunc]
  split <;> rfl

theorem reserved_resetPin (hpin : pin ≤ gpioPin15) :
    (resetPin port pin).reserved = port.reserved := by
  simp only [resetPin, clear_eq_modifyField, GpioPort.reserved]
  exact (bit_update port.otyper 0 (by decide) hpin).2

end Registers

section Calls

variable {ports : Ports} {p : PortName} {config : GpioPinConfig} {configs : List GpioPinConfig}

theorem gpioInit_valid (h : config.Valid) : gpioInit ports (some p) (some config) =
    (Function.update ports p (configurePin (ports p) config), 0) := by
  have hrest : ¬(gpioModeAnalog < config.mode ∨ gpioOtypeOpendrain < config.otype ∨
      gpioOspeedHigh < config.ospeed ∨ gpioPupdPulldown < config.pupd ∨
      gpioAf15 < config.altFunc) := by
    simp only [not_or, BitVec.not_lt]
    exact ⟨h.mode, h.otype, h.ospeed, h.pupd, h.altFunc⟩
  unfold gpioInit
  dsimp only
  rw [if_neg (BitVec.not_lt.mpr h.pin), if_neg hrest]

theorem gpioInit_invalid (h : ¬config.Valid) :
    gpioInit ports (some p) (some config) = (ports, -1) := by
  unfold gpioInit
  dsimp only
  split
  · rfl
  · next hpin =>
      split
      · rfl
      · next hrest =>
          simp only [not_or, BitVec.not_lt] at hpin hrest
          obtain ⟨hmode, hotype, hospeed, hpupd, haltFunc⟩ := hrest
          exact absurd ⟨hpin, hmode, hotype, hospeed, hpupd, haltFunc⟩ h

theorem gpioDeinit_valid {pin : Word} (hpin : pin ≤ gpioPin15) :
    gpioDeinit ports (some p) pin = (Function.update ports p (resetPin (ports p) pin), 0) := by
  unfold gpioDeinit
  dsimp only
  rw [if_neg (BitVec.not_lt.mpr hpin)]

/-- Calls of `gpio_init` for one port, one after the other. -/
def gpioInitAll (ports : Ports) (p : PortName) (configs : List GpioPinConfig) : Ports :=
  configs.foldl (fun ports config => (gpioInit ports (some p) (some config)).1) ports

/-- The listed pins are configured, and nothing else has changed. -/
structure ConfiguredBy (configs : List GpioPinConfig) (port port' : GpioPort) : Prop where
  listed : ∀ c ∈ configs, port'.fields c.pin.toNat = (port.fields c.pin.toNat).apply c
  unlisted : ∀ i < 16, (∀ c ∈ configs, c.pin.toNat ≠ i) → port'.fields i = port.fields i
  reserved : port'.reserved = port.reserved

/-- One pin is reset, and nothing else has changed. -/
structure PinReset (pin : Word) (port port' : GpioPort) : Prop where
  same : port'.fields pin.toNat = .reset
  others : ∀ i < 16, i ≠ pin.toNat → port'.fields i = port.fields i
  reserved : port'.reserved = port.reserved

theorem gpioInitAll_cons (h : config.Valid) :
    gpioInitAll ports p (config :: configs) =
      gpioInitAll (Function.update ports p (configurePin (ports p) config)) p configs := by
  rw [gpioInitAll, List.foldl_cons, gpioInit_valid h]
  rfl

/-- Configurations of two pins commute. -/
theorem configurePin_comm {port : GpioPort} {c d : GpioPinConfig} (hc : c.Valid) (hd : d.Valid)
    (hne : c.pin ≠ d.pin) :
    configurePin (configurePin port c) d = configurePin (configurePin port d) c := by
  have hpins : c.pin.toNat ≠ d.pin.toNat := fun h => hne (BitVec.eq_of_toNat_eq h)
  apply port_ext
  · intro i hi
    rw [fields_configurePin hd hi, fields_configurePin hc hi, fields_configurePin hc hi,
      fields_configurePin hd hi]
    by_cases hic : i = c.pin.toNat
    · have hid : i ≠ d.pin.toNat := fun h => hpins (hic.symm.trans h)
      rw [if_pos hic, if_neg hid, if_neg hid, if_pos hic]
    · rw [if_neg hic, if_neg hic]
  · rw [reserved_configurePin hd, reserved_configurePin hc, reserved_configurePin hc,
      reserved_configurePin hd]

theorem gpioInitAll_perm {order : List GpioPinConfig} (hvalid : ∀ c ∈ configs, c.Valid)
    (hdistinct : (configs.map (·.pin)).Nodup) (h : order.Perm configs) :
    gpioInitAll ports p order = gpioInitAll ports p configs := by
  refine h.foldl_eq' (fun c hc d hd ports => ?_) ports
  have hc' := hvalid c (h.subset hc)
  have hd' := hvalid d (h.subset hd)
  rw [gpioInit_valid hc', gpioInit_valid hd', gpioInit_valid hc', gpioInit_valid hd']
  by_cases hpin : c.pin = d.pin
  · have hsame : c = d :=
      List.inj_on_of_nodup_map hdistinct (h.subset hc) (h.subset hd) hpin
    rw [hsame]
  · simp only [Function.update_self, Function.update_idem]
    rw [configurePin_comm hc' hd' hpin]

theorem gpioInitAll_other {q : PortName} (hq : q ≠ p) (hvalid : ∀ c ∈ configs, c.Valid) :
    gpioInitAll ports p configs q = ports q := by
  induction configs generalizing ports with
  | nil => rfl
  | cons c configs ih =>
      rw [gpioInitAll_cons (hvalid c (by simp)), ih fun d hd => hvalid d (by simp [hd])]
      exact Function.update_of_ne hq ..

theorem gpioInitAll_configured (ports : Ports) (hvalid : ∀ c ∈ configs, c.Valid)
    (hdistinct : (configs.map (·.pin)).Nodup) :
    ConfiguredBy configs (ports p) (gpioInitAll ports p configs p) := by
  induction configs generalizing ports with
  | nil => exact ⟨by simp, fun _ _ _ => rfl, rfl⟩
  | cons c configs ih =>
      obtain ⟨hfresh, hrest⟩ := List.nodup_cons.mp hdistinct
      have hc : c.Valid := hvalid c (by simp)
      have hpin : c.pin.toNat < 16 := Nat.lt_succ_of_le hc.pin
      have hne : ∀ d ∈ configs, d.pin.toNat ≠ c.pin.toNat := fun d hd heq =>
        hfresh (List.mem_map.mpr ⟨d, hd, BitVec.eq_of_toNat_eq heq⟩)
      have hlater := ih (Function.update ports p (configurePin (ports p) c))
        (fun d hd => hvalid d (by simp [hd])) hrest
      rw [Function.update_self] at hlater
      rw [gpioInitAll_cons hc]
      refine ⟨fun d hd => ?_, fun i hi hi' => ?_, ?_⟩
      · rcases List.mem_cons.mp hd with rfl | hd
        · rw [hlater.unlisted _ hpin hne, fields_configurePin hc hpin, if_pos rfl]
        · have hd' : d.pin.toNat < 16 := Nat.lt_succ_of_le (hvalid d (by simp [hd])).pin
          rw [hlater.listed d hd, fields_configurePin hc hd', if_neg (hne d hd)]
      · rw [hlater.unlisted i hi fun d hd => hi' d (by simp [hd]), fields_configurePin hc hi,
          if_neg (Ne.symm (hi' c (by simp)))]
      · rw [hlater.reserved, reserved_configurePin hc]

/-- Configurations of distinct pins act on their own pins only, in any order; a reset acts on
one pin, and a call with a field out of range does nothing. -/
theorem pins_configured_locally (ports : Ports) (p : PortName) :
    (∀ configs : List GpioPinConfig, (∀ c ∈ configs, c.Valid) →
      (configs.map (·.pin)).Nodup →
        ConfiguredBy configs (ports p) (gpioInitAll ports p configs p) ∧
        (∀ q, q ≠ p → gpioInitAll ports p configs q = ports q) ∧
        ∀ order : List GpioPinConfig, order.Perm configs →
          gpioInitAll ports p order = gpioInitAll ports p configs) ∧
    (∀ pin ≤ gpioPin15, PinReset pin (ports p) ((gpioDeinit ports (some p) pin).1 p) ∧
      ∀ q, q ≠ p → (gpioDeinit ports (some p) pin).1 q = ports q) ∧
    ∀ config : GpioPinConfig, ¬config.Valid →
      gpioInit ports (some p) (some config) = (ports, -1) := by
  refine ⟨fun configs hvalid hdistinct => ?_, fun pin hpin => ?_, fun _ => gpioInit_invalid⟩
  · exact ⟨gpioInitAll_configured ports hvalid hdistinct, fun q hq => gpioInitAll_other hq hvalid,
      fun order => gpioInitAll_perm hvalid hdistinct⟩
  · rw [gpioDeinit_valid hpin]
    refine ⟨?_, fun q hq => Function.update_of_ne hq ..⟩
    dsimp only
    rw [Function.update_self]
    refine ⟨?_, fun i hi hne => ?_, reserved_resetPin hpin⟩
    · rw [fields_resetPin hpin (Nat.lt_succ_of_le hpin), if_pos rfl]
    · rw [fields_resetPin hpin hi, if_neg hne]

/-- PA9 and PA10 as the pins of USART1. -/
def demoPins : List GpioPinConfig :=
  [⟨9, 2, 0, 3, 1, 7⟩, ⟨10, 2, 0, 3, 1, 7⟩]

def demoPort : GpioPort := ⟨0xA8000000, 0, 0xC000000, 0x64000000, fun _ => 0⟩

theorem pins_configured_locally_demo :
    ConfiguredBy demoPins demoPort (gpioInitAll (fun _ => demoPort) .gpioa demoPins .gpioa) ∧
      gpioInitAll (fun _ => demoPort) .gpioa demoPins.reverse =
        gpioInitAll (fun _ => demoPort) .gpioa demoPins := by
  have hvalid : ∀ c ∈ demoPins, c.Valid := by
    intro c hc
    simp only [demoPins, List.mem_cons, List.not_mem_nil, or_false] at hc
    rcases hc with rfl | rfl
    · exact ⟨by decide, by decide, by decide, by decide, by decide, by decide⟩
    · exact ⟨by decide, by decide, by decide, by decide, by decide, by decide⟩
  obtain ⟨hconfigured, -, hperm⟩ :=
    (pins_configured_locally (fun _ => demoPort) .gpioa).1 demoPins hvalid (by decide)
  exact ⟨hconfigured, hperm _ (List.reverse_perm demoPins)⟩

end Calls

end Stm32f411.GpioPins
