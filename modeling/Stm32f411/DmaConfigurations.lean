import Stm32f411.BitMasks
import Stm32f411.DmaStreams

/-!
Legal configurations of a stream: what the reference manual asks of its registers, and that the
values of `dma_init` and the checks of `dma_start` give it.
-/

namespace Stm32f411.DmaConfigurations

open Stm32f411.BitMasks
open Stm32f411.RtosTypes
open Stm32f411.DmaStreams

section Configurations

def psize (r : DmaStream) : Word :=
  (r.cr &&& dmaSxCrPsizeMsk) >>> 11

def msize (r : DmaStream) : Word :=
  (r.cr &&& dmaSxCrMsizeMsk) >>> 13

def Direct (r : DmaStream) : Prop :=
  r.fcr &&& dmaSxFcrDmdis = 0

def MemoryToMemory (r : DmaStream) : Prop :=
  r.cr &&& dmaSxCrDirMsk = 0x80

def Circular (r : DmaStream) : Prop :=
  r.cr &&& dmaSxCrCirc ≠ 0

/-- The mode fields of a stream are a legal combination. -/
structure Configured (controller : Controller) (r : DmaStream) : Prop where
  psize_le : psize r ≤ 2
  msize_le : msize r ≤ 2
  direct : Direct r → psize r = msize r
  memoryToMemory : MemoryToMemory r → controller = .dma2 ∧ ¬Direct r ∧ ¬Circular r

/-- The stream may be enabled; a width of `n` stands for `2 ^ n` bytes. -/
structure Startable (controller : Controller) (r : DmaStream) : Prop
    extends Configured controller r where
  count : 1 ≤ r.ndtr.toNat ∧ r.ndtr.toNat ≤ 65535
  par_aligned : r.par.toNat % 2 ^ (psize r).toNat = 0
  m0ar_aligned : r.m0ar.toNat % 2 ^ (msize r).toNat = 0
  multiple : r.ndtr.toNat * 2 ^ (psize r).toNat % 2 ^ (msize r).toNat = 0

variable {controller : Controller} {r r' : DmaStream}

/-- A field that does not contain EN. -/
theorem modes_and {m : Word} (h : dmaSxCrEn &&& m = 0) : r.modes &&& m = r.cr &&& m :=
  clear_and h

@[simp] theorem modes_modes : { r with cr := r.modes }.modes = r.modes :=
  clear_clear

theorem fields_of_modes (h : r'.modes = r.modes) {m : Word} (hm : dmaSxCrEn &&& m = 0) :
    r'.cr &&& m = r.cr &&& m := by
  rw [← modes_and hm, h, modes_and hm]

/-- The configuration does not depend on EN. -/
theorem Configured.of_modes (h : Configured controller r) (hmodes : r'.modes = r.modes)
    (hfcr : r'.fcr = r.fcr) : Configured controller r' := by
  have hpsize : psize r' = psize r := by
    rw [psize, fields_of_modes hmodes (by decide), psize]
  have hmsize : msize r' = msize r := by
    rw [msize, fields_of_modes hmodes (by decide), msize]
  have hdirect : Direct r' ↔ Direct r := by rw [Direct, hfcr, Direct]
  have hmem : MemoryToMemory r' ↔ MemoryToMemory r := by
    rw [MemoryToMemory, fields_of_modes hmodes (by decide), MemoryToMemory]
  have hcirc : Circular r' ↔ Circular r := by
    rw [Circular, fields_of_modes hmodes (by decide), Circular]
  refine ⟨hpsize ▸ h.psize_le, hmsize ▸ h.msize_le, fun hd => ?_, fun hm => ?_⟩
  · rw [hpsize, hmsize]
    exact h.direct (hdirect.mp hd)
  · rw [hdirect, hcirc]
    exact h.memoryToMemory (hmem.mp hm)

theorem configured_reset (controller : Controller) :
    Configured controller ⟨0, 0, 0, 0, 0x21⟩ :=
  ⟨by decide, by decide, fun _ => by decide, fun h => absurd h (by unfold MemoryToMemory; decide)⟩

theorem not_enabled_iff : ¬r.Enabled ↔ r.cr &&& dmaSxCrEn = 0 :=
  not_not

theorem modes_of_disabled (h : ¬r.Enabled) : r.modes = r.cr :=
  clear_of_disjoint (not_enabled_iff.mp h)

theorem modes_disabled : ¬{ r with cr := r.modes }.Enabled :=
  not_enabled_iff.mpr clear_and_self

theorem Hardware.modes (h : r.Hardware r') : r'.modes = r.modes := by
  obtain ⟨hcr | hcr, -⟩ := h
  · rw [DmaStream.modes, hcr, DmaStream.modes]
  · rw [DmaStream.modes, hcr, DmaStream.modes, clear_clear]

/-- The hardware leaves a disabled stream alone. -/
theorem Hardware.eq_of_disabled (h : r.Hardware r') (hdisabled : ¬r.Enabled) : r' = r := by
  obtain ⟨hcr, hndtr, hpar, hm0ar, hfcr⟩ := h
  rw [modes_of_disabled hdisabled, or_self] at hcr
  have hcount := hndtr.resolve_left hdisabled
  cases r
  cases r'
  simp_all

end Configurations

section Settings

variable {config : DmaConfig}

/-- What `dma_validate_config` accepts. -/
structure Accepted (controller : Controller) (config : DmaConfig) : Prop where
  direction : config.direction ≤ 2
  periphWidth : config.periphWidth ≤ 2
  memoryWidth : config.memoryWidth ≤ 2
  memoryToMemory : config.direction = 2 →
    controller = .dma2 ∧ config.mode ≠ 1 ∧ config.fifoMode = 1
  direct : config.fifoMode = 0 → config.periphWidth = config.memoryWidth
  fifoMode : config.fifoMode = 0 ∨ config.fifoMode = 1

theorem accepted_of_validate {controller : Controller}
    (h : dmaValidateConfig controller (some config) = 0) : Accepted controller config := by
  unfold dmaValidateConfig at h
  simp only at h
  split at h
  · cases h
  split at h
  · cases h
  next hfields =>
  split at h
  · cases h
  next hcontroller =>
  split at h
  · cases h
  next hmode =>
  split at h
  · cases h
  next hdirect =>
  simp only [not_or, not_and, BitVec.not_lt] at hfields hcontroller hmode hdirect
  obtain ⟨-, hdirection, hperiph, hmemory, -, -, -, -, hfifo, -⟩ := hfields
  refine ⟨hdirection, hperiph, hmemory, fun hm => ?_, fun hd => not_not.mp (hdirect hd), ?_⟩
  · exact ⟨not_not.mp (hcontroller hm), (hmode hm).1, not_not.mp (hmode hm).2⟩
  · have hle : config.fifoMode.toNat ≤ 1 := hfifo
    rcases Nat.le_one_iff_eq_zero_or_eq_one.mp hle with hzero | hone
    · exact Or.inl (BitVec.eq_of_toNat_eq hzero)
    · exact Or.inr (BitVec.eq_of_toNat_eq hone)

theorem ite_and {c : Prop} [Decidable c] (x m : Word) :
    (if c then x else 0#32) &&& m = if c then x &&& m else 0#32 := by
  split
  · rfl
  · exact BitVec.zero_and

theorem word_le_two {v : Word} (h : v ≤ 2) : v = 0 ∨ v = 1 ∨ v = 2 := by
  have hle : v.toNat ≤ 2 := h
  have hcases : v.toNat = 0 ∨ v.toNat = 1 ∨ v.toNat = 2 := by omega
  rcases hcases with h | h | h
  · exact Or.inl (BitVec.eq_of_toNat_eq h)
  · exact Or.inr (Or.inl (BitVec.eq_of_toNat_eq h))
  · exact Or.inr (Or.inr (BitVec.eq_of_toNat_eq h))

/-- Each field of CR is the one of the configuration. -/
theorem configCr_fields (config : DmaConfig) :
    configCr config &&& dmaSxCrPsizeMsk = config.periphWidth <<< 11 &&& dmaSxCrPsizeMsk ∧
    configCr config &&& dmaSxCrMsizeMsk = config.memoryWidth <<< 13 &&& dmaSxCrMsizeMsk ∧
    configCr config &&& dmaSxCrDirMsk = config.direction <<< 6 &&& dmaSxCrDirMsk ∧
    configCr config &&& dmaSxCrCirc = (if config.mode = 1 then dmaSxCrCirc else 0) ∧
    configCr config &&& dmaSxCrEn = 0 := by
  refine ⟨?_, ?_, ?_, ?_, ?_⟩ <;>
    simp [configCr, or_and, BitVec.and_assoc, ite_and, dmaSxCrChselMsk, dmaSxCrDirMsk,
      dmaSxCrMsizeMsk, dmaSxCrPsizeMsk, dmaSxCrPlMsk, dmaSxCrMinc, dmaSxCrPinc, dmaSxCrCirc,
      dmaSxCrEn]

theorem configFcr_dmdis (config : DmaConfig) :
    configFcr config &&& dmaSxFcrDmdis = if config.fifoMode = 1 then dmaSxFcrDmdis else 0 := by
  simp [configFcr, or_and, BitVec.and_assoc, ite_and, dmaSxFcrFthMsk, dmaSxFcrDmdis]

/-- What `dma_init` writes is a legal configuration. -/
theorem configured_of_accepted {controller : Controller} (h : Accepted controller config)
    (r : DmaStream) :
    Configured controller { r with cr := configCr config, fcr := configFcr config } := by
  obtain ⟨hcrPsize, hcrMsize, hcrDir, hcrCirc, -⟩ := configCr_fields config
  have hpsize : psize { r with cr := configCr config, fcr := configFcr config } =
      config.periphWidth := by
    rw [psize, hcrPsize]
    rcases word_le_two h.periphWidth with h | h | h <;> rw [h] <;> decide
  have hmsize : msize { r with cr := configCr config, fcr := configFcr config } =
      config.memoryWidth := by
    rw [msize, hcrMsize]
    rcases word_le_two h.memoryWidth with h | h | h <;> rw [h] <;> decide
  have hdirect : Direct { r with cr := configCr config, fcr := configFcr config } →
      config.fifoMode ≠ 1 := by
    intro hdirect hfifo
    rw [Direct, configFcr_dmdis, if_pos hfifo] at hdirect
    exact absurd hdirect (by decide)
  refine ⟨hpsize ▸ h.periphWidth, hmsize ▸ h.memoryWidth, fun hd => ?_, fun hm => ?_⟩
  · rw [hpsize, hmsize]
    exact h.direct (h.fifoMode.resolve_right (hdirect hd))
  · have hdirection : config.direction = 2 := by
      rw [MemoryToMemory, hcrDir] at hm
      rcases word_le_two h.direction with hd | hd | hd
      · rw [hd] at hm
        exact absurd hm (by decide)
      · rw [hd] at hm
        exact absurd hm (by decide)
      · exact hd
    obtain ⟨hcontroller, hmode, hfifo⟩ := h.memoryToMemory hdirection
    refine ⟨hcontroller, fun hd => hdirect hd hfifo, ?_⟩
    rw [Circular, hcrCirc, if_neg hmode]
    exact not_not.mpr rfl

end Settings

section Checks

variable {controller : Controller} {r : DmaStream} {transfer : DmaTransfer}

/-- The count is in units of the peripheral width, `2 ^ p` bytes. -/
theorem multiple_of_check {p m count : Word} (hm : m.toNat < 32)
    (h : p < m → count % ((1 : Word) <<< (m - p)) = 0) :
    count.toNat * 2 ^ p.toNat % 2 ^ m.toNat = 0 := by
  by_cases hlt : p < m
  · have hle : p.toNat ≤ m.toNat := Nat.le_of_lt hlt
    have hsub : (m - p).toNat = m.toNat - p.toNat := BitVec.toNat_sub_of_le hle
    have hmod : (count % ((1 : Word) <<< (m - p).toNat)).toNat = 0 := by
      rw [← BitVec.shiftLeft_eq', h hlt]
      rfl
    rw [BitVec.toNat_umod, toNat_one_shiftLeft (by omega), hsub] at hmod
    obtain ⟨k, hk⟩ := Nat.dvd_of_mod_eq_zero hmod
    have hpow : 2 ^ m.toNat = 2 ^ (m.toNat - p.toNat) * 2 ^ p.toNat := by
      rw [← Nat.pow_add, Nat.sub_add_cancel hle]
    rw [hk, hpow, Nat.mul_right_comm, Nat.mul_mod_right]
  · have hle : m.toNat ≤ p.toNat := Nat.le_of_not_lt hlt
    exact Nat.mod_eq_zero_of_dvd (Nat.dvd_mul_left_of_dvd (Nat.pow_dvd_pow 2 hle) _)

/-- What `dma_start` has checked when it loads the stream. -/
theorem startable_of_checks (hr : Configured controller r) (hcount : transfer.itemCount ≠ 0)
    (hbound : transfer.itemCount ≤ dmaSxNdtrNdtMsk)
    (hpar : transfer.periphAddress &&& ((1 : Word) <<< psize r - 1) = 0)
    (hm0ar : transfer.memoryAddress &&& ((1 : Word) <<< msize r - 1) = 0)
    (hmultiple : psize r < msize r →
      transfer.itemCount % ((1 : Word) <<< (msize r - psize r)) = 0) :
    Startable controller { r with
      cr := r.cr ||| dmaSxCrEn
      par := transfer.periphAddress
      m0ar := transfer.memoryAddress
      ndtr := transfer.itemCount } := by
  have hconfigured : Configured controller { r with
      cr := r.cr ||| dmaSxCrEn
      par := transfer.periphAddress
      m0ar := transfer.memoryAddress
      ndtr := transfer.itemCount } := hr.of_modes set_clear rfl
  have hpsize : psize { r with
      cr := r.cr ||| dmaSxCrEn
      par := transfer.periphAddress
      m0ar := transfer.memoryAddress
      ndtr := transfer.itemCount } = psize r := by
    rw [psize, psize, set_and (by decide)]
  have hmsize : msize { r with
      cr := r.cr ||| dmaSxCrEn
      par := transfer.periphAddress
      m0ar := transfer.memoryAddress
      ndtr := transfer.itemCount } = msize r := by
    rw [msize, msize, set_and (by decide)]
  refine ⟨hconfigured, ⟨?_, hbound⟩, ?_, ?_, ?_⟩
  · exact Nat.pos_of_ne_zero fun h => hcount (BitVec.eq_of_toNat_eq h)
  · rw [hpsize]
    exact (aligned_iff (Nat.lt_of_le_of_lt hr.psize_le (by decide))).mp hpar
  · rw [hmsize]
    exact (aligned_iff (Nat.lt_of_le_of_lt hr.msize_le (by decide))).mp hm0ar
  · rw [hpsize, hmsize]
    exact multiple_of_check (Nat.lt_of_le_of_lt hr.msize_le (by decide)) hmultiple

end Checks

end Stm32f411.DmaConfigurations
