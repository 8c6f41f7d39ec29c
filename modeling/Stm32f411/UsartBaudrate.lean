import Mathlib.Data.Nat.Bitwise
import Stm32f411.BitMasks
import Stm32f411.NearestInteger
import Stm32f411.RtosTypes

/-!
`usart_set_baudrate` of `stm32f411_usart.c`. The divisor is rounded at the scale of the
16-fold oversampling; the 8-fold one then drops its lowest bit, and neither looks whether the
quotient fits the sixteen bits of BRR.
-/

namespace Stm32f411.UsartBaudrate

open Stm32f411.BitMasks
open Stm32f411.NearestInteger
open Stm32f411.RtosTypes

section Driver

inductive OverSampling
  | over16 | over8
  deriving DecidableEq

/-- The BRR register afterwards, and the result. -/
def usartSetBaudrate (brr pclk baudrate : Word) : OverSampling → Word × Int
  | .over8 =>
      let usartdiv := (2 * pclk + baudrate / 2) / baudrate
      let mantissa := usartdiv >>> 4
      let fraction := (usartdiv &&& 0xF) >>> 1
      let packed := mantissa <<< 4 ||| fraction <<< 0
      if packed = 0 then (brr, -3) else (packed, 0)
  | .over16 =>
      let usartdiv := (pclk + baudrate / 2) / baudrate
      if usartdiv = 0 then (brr, -3) else (usartdiv, 0)

/-- What the hardware divides by, from the sixteen bits of BRR. -/
def divisor (brr : Word) : OverSampling → Nat
  | .over8 => 8 * ((brr &&& 0xFFFF) >>> 4).toNat + ((brr &&& 0xFFFF) &&& 7).toNat
  | .over16 => (brr &&& 0xFFFF).toNat

/-- The clock, in the unit in which the quotient is computed. -/
def scaledClock (pclk : Word) : OverSampling → Nat
  | .over8 => 2 * pclk.toNat
  | .over16 => pclk.toNat

/-- What the caller may rely on: the best divisor, or an error that leaves BRR alone. -/
structure BestDivisor (brr pclk baudrate : Word) (oversampling : OverSampling)
    (result : Word × Int) : Prop where
  nearest : result.2 = 0 →
    IsNearest (pclk.toNat / baudrate.toNat) (divisor result.1 oversampling)
  bit3 : result.2 = 0 → oversampling = .over8 → result.1 &&& 8 = 0
  refused : result.2 ≠ 0 → result.2 = -3 ∧ result.1 = brr
  noOverflow : scaledClock pclk oversampling + baudrate.toNat / 2 < 2 ^ 32

/-- The quotient fits BRR, and with 8-fold oversampling its fraction does not lie between a
half and three quarters, unless the rate is refused as too high. -/
def Representable (pclk baudrate : Nat) : OverSampling → Prop
  | .over8 => 2 * pclk + baudrate / 2 < 2 * baudrate ∨
      2 * pclk + baudrate / 2 < 0x10000 * baudrate ∧
        (2 * (pclk % baudrate) ≤ baudrate ∨
          2 * baudrate ≤ 2 * (pclk % baudrate) + baudrate / 2)
  | .over16 => pclk + baudrate / 2 < 0x10000 * baudrate

end Driver

section Registers

variable {usartdiv brr : Word}

/-- BRR as the 8-fold branch packs it. -/
theorem toNat_packed : (usartdiv >>> 4 <<< 4 ||| ((usartdiv &&& 0xF) >>> 1) <<< 0).toNat =
    16 * (usartdiv.toNat / 16) + usartdiv.toNat % 16 / 2 := by
  have hfraction : (usartdiv &&& 0xF).toNat = usartdiv.toNat % 16 :=
    toNat_and_low (n := 4) (by decide)
  have hlt := usartdiv.isLt
  have hbound : usartdiv.toNat % 16 / 2 ^ 1 < 2 ^ 4 := by omega
  have hshift : (usartdiv >>> 4 <<< 4).toNat = (usartdiv.toNat / 16) <<< 4 := by
    rw [BitVec.toNat_shiftLeft, BitVec.toNat_ushiftRight, Nat.shiftRight_eq_div_pow,
      Nat.shiftLeft_eq, Nat.mod_eq_of_lt (by omega)]
  rw [BitVec.shiftLeft_zero, BitVec.toNat_or, hshift, BitVec.toNat_ushiftRight, hfraction,
    Nat.shiftRight_eq_div_pow, ← Nat.shiftLeft_add_eq_or_of_lt hbound, Nat.shiftLeft_eq]
  omega

theorem toNat_low : (brr &&& 0xFFFF).toNat = brr.toNat % 0x10000 :=
  toNat_and_low (n := 16) (by decide)

theorem divisor_over16 : divisor brr .over16 = brr.toNat % 0x10000 := toNat_low

theorem divisor_over8 :
    divisor brr .over8 = 8 * (brr.toNat % 0x10000 / 16) + brr.toNat % 0x10000 % 8 := by
  have hfraction : ((brr &&& 0xFFFF) &&& 7).toNat = (brr &&& 0xFFFF).toNat % 8 :=
    toNat_and_low (n := 3) (by decide)
  rw [divisor, hfraction, BitVec.toNat_ushiftRight, toNat_low, Nat.shiftRight_eq_div_pow]

theorem divisor_packed :
    divisor (usartdiv >>> 4 <<< 4 ||| ((usartdiv &&& 0xF) >>> 1) <<< 0) .over8 =
      usartdiv.toNat / 2 % 0x8000 := by
  rw [divisor_over8, toNat_packed]
  omega

theorem packed_eq_zero_iff :
    usartdiv >>> 4 <<< 4 ||| ((usartdiv &&& 0xF) >>> 1) <<< 0 = 0 ↔ usartdiv.toNat < 2 := by
  have hzero : (0 : Word).toNat = 0 := rfl
  rw [← BitVec.toNat_inj, toNat_packed, hzero]
  omega

theorem bit3_of_toNat (h : brr.toNat / 8 % 2 = 0) : brr &&& 8 = 0 := by
  apply BitVec.eq_of_toNat_eq
  have hbit : brr.toNat.testBit 3 = false := by
    rw [Nat.testBit_eq_decide_div_mod_eq]
    exact decide_eq_false (by omega)
  change brr.toNat &&& 2 ^ 3 = 0
  rw [Nat.and_two_pow, hbit]
  rfl

end Registers

section Rates

variable {brr pclk baudrate : Word}

theorem toNat_quotient {scaled : Word} (h : scaled.toNat + baudrate.toNat / 2 < 2 ^ 32) :
    ((scaled + baudrate / 2) / baudrate).toNat =
      (scaled.toNat + baudrate.toNat / 2) / baudrate.toNat := by
  have hhalf : (baudrate / 2).toNat = baudrate.toNat / 2 := BitVec.toNat_udiv
  rw [BitVec.toNat_udiv, BitVec.toNat_add, hhalf, Nat.mod_eq_of_lt h]

theorem toNat_double (hpclk : pclk.toNat ≤ 100000000) : (2 * pclk).toNat = 2 * pclk.toNat := by
  have htwo : (2 : Word).toNat = 2 := rfl
  rw [BitVec.toNat_mul, htwo]
  exact Nat.mod_eq_of_lt (by omega)

theorem no_overflow (baudrate : Word) (hpclk : pclk.toNat ≤ 100000000)
    (oversampling : OverSampling) :
    scaledClock pclk oversampling + baudrate.toNat / 2 < 2 ^ 32 := by
  have hlt := baudrate.isLt
  cases oversampling with
  | over8 =>
      rw [scaledClock]
      omega
  | over16 =>
      rw [scaledClock]
      omega

/-- A divisor that has lost a multiple of `m` is not the nearest. -/
theorem lost_not_nearest {a b n m : Nat} (hb : 0 < b) (hm : 2 ≤ m) (hn : n = a / b ∨ n = a / b + 1)
    (hbig : m ≤ n) : ¬IsNearest (a / b) (n % m : ℕ) := by
  intro h
  have haround := h.around hb
  have hlt := Nat.mod_lt n (show 0 < m by omega)
  have hdiv := Nat.div_add_mod n m
  have hpos : 1 ≤ n / m := (Nat.one_le_div_iff (by omega)).mpr hbig
  have hmul := Nat.mul_le_mul_left m hpos
  omega

theorem over16_iff (hb : 0 < baudrate.toNat) (hpclk : pclk.toNat ≤ 100000000) :
    BestDivisor brr pclk baudrate .over16 (usartSetBaudrate brr pclk baudrate .over16) ↔
      Representable pclk.toNat baudrate.toNat .over16 := by
  have hfits := no_overflow baudrate hpclk .over16
  have hquotient := toNat_quotient hfits
  have hnearest := isNearest_rounded (a := pclk.toNat) hb
  rw [Representable, ← Nat.div_lt_iff_lt_mul hb, ← hquotient]
  rw [← hquotient] at hnearest
  rw [usartSetBaudrate]
  generalize (pclk + baudrate / 2) / baudrate = usartdiv at hnearest ⊢
  split
  · next hzero =>
      refine iff_of_true ⟨fun h => ?_, fun h => ?_, fun _ => ⟨rfl, rfl⟩, hfits⟩ ?_
      · cases h
      · cases h
      · rw [hzero]
        decide
  · constructor
    · intro h
      by_contra hbig
      have hlow := h.nearest rfl
      rw [divisor_over16] at hlow
      refine lost_not_nearest hb (by decide) ?_ (Nat.not_lt.mp hbig) hlow
      have haround := hnearest.around hb
      omega
    · intro hsmall
      refine ⟨fun _ => ?_, fun _ h => ?_, fun h => absurd rfl h, hfits⟩
      · rw [divisor_over16, Nat.mod_eq_of_lt hsmall]
        exact hnearest
      · cases h

theorem over8_iff (hb : 0 < baudrate.toNat) (hpclk : pclk.toNat ≤ 100000000) :
    BestDivisor brr pclk baudrate .over8 (usartSetBaudrate brr pclk baudrate .over8) ↔
      Representable pclk.toNat baudrate.toNat .over8 := by
  have hfits := no_overflow baudrate hpclk .over8
  have hdouble := toNat_double hpclk
  have hquotient : ((2 * pclk + baudrate / 2) / baudrate).toNat = _ :=
    toNat_quotient (by rwa [hdouble])
  rw [hdouble] at hquotient
  have hhalved := isNearest_halved (a := pclk.toNat) hb
  have hhalf := halved_eq (a := pclk.toNat) hb
  rw [Representable, ← Nat.div_lt_iff_lt_mul hb, ← Nat.div_lt_iff_lt_mul hb, ← hquotient,
    ← hhalved, ← hquotient]
  rw [← hquotient] at hhalf
  rw [usartSetBaudrate]
  generalize (2 * pclk + baudrate / 2) / baudrate = usartdiv at hhalf ⊢
  split
  · next hzero =>
      refine iff_of_true ⟨fun h => ?_, fun h => ?_, fun _ => ⟨rfl, rfl⟩, hfits⟩ (Or.inl ?_)
      · cases h
      · cases h
      · exact packed_eq_zero_iff.mp hzero
  · next hne =>
      have hlarge : ¬usartdiv.toNat < 2 := fun hsmall => hne (packed_eq_zero_iff.mpr hsmall)
      constructor
      · intro h
        have hlow := h.nearest rfl
        rw [divisor_packed] at hlow
        refine Or.inr ?_
        by_cases hbig : usartdiv.toNat / 2 < 0x8000
        · rw [Nat.mod_eq_of_lt hbig] at hlow
          exact ⟨by omega, hlow⟩
        · refine absurd hlow (lost_not_nearest hb (by decide) ?_ (Nat.not_lt.mp hbig))
          rw [hhalf]
          split
          · exact Or.inr rfl
          · exact Or.inl rfl
      · rintro (hsmall | ⟨hsmall, hnear⟩)
        · exact absurd hsmall hlarge
        · refine ⟨fun _ => ?_, fun _ _ => ?_, fun h => absurd rfl h, hfits⟩
          · rw [divisor_packed, Nat.mod_eq_of_lt (by omega)]
            exact hnear
          · apply bit3_of_toNat
            rw [toNat_packed]
            have hlt := usartdiv.isLt
            omega

/-- For every clock and rate the driver's setting is the best one exactly when the divisor can
be represented. -/
theorem best_divisor_iff (brr pclk baudrate : Word) (oversampling : OverSampling)
    (hpclk : 1 ≤ pclk.toNat ∧ pclk.toNat ≤ 100000000) (hbaudrate : baudrate ≠ 0) :
    BestDivisor brr pclk baudrate oversampling
        (usartSetBaudrate brr pclk baudrate oversampling) ↔
      Representable pclk.toNat baudrate.toNat oversampling := by
  have hpos : 0 < baudrate.toNat := by
    refine Nat.pos_of_ne_zero fun hzero => hbaudrate ?_
    exact BitVec.eq_of_toNat_eq hzero
  cases oversampling with
  | over8 => exact over8_iff hpos hpclk.2
  | over16 => exact over16_iff hpos hpclk.2

/-- At 50 MHz and 9600 Bd the exact divisor 5208.33 is rounded to 5208, and at 16 MHz and
115200 Bd with 8-fold oversampling 138.89 is rounded to 139. -/
theorem best_divisor_iff_demo :
    BestDivisor 0 50000000 9600 .over16 (usartSetBaudrate 0 50000000 9600 .over16) ∧
      divisor (usartSetBaudrate 0 16000000 115200 .over8).1 .over8 = 139 ∧
      BestDivisor 0 16000000 115200 .over8 (usartSetBaudrate 0 16000000 115200 .over8) := by
  refine ⟨(best_divisor_iff 0 50000000 9600 .over16 (by decide) (by decide)).mpr ?_, by decide,
    (best_divisor_iff 0 16000000 115200 .over8 (by decide) (by decide)).mpr ?_⟩
  · unfold Representable
    decide
  · unfold Representable
    decide

/-- At 100 MHz and 1200 Bd the quotient 83333 loses its seventeenth bit, and at 16 MHz and
9600 Bd the 8-fold oversampling divides by 1666 where 1667 is nearest. -/
theorem wrong_divisors :
    usartSetBaudrate 0 100000000 1200 .over16 = (83333, 0) ∧ divisor 83333 .over16 = 17797 ∧
      ¬BestDivisor 0 100000000 1200 .over16 (usartSetBaudrate 0 100000000 1200 .over16) ∧
      usartSetBaudrate 0 16000000 9600 .over8 = (0xD02, 0) ∧ divisor 0xD02 .over8 = 1666 ∧
      ¬BestDivisor 0 16000000 9600 .over8 (usartSetBaudrate 0 16000000 9600 .over8) := by
  refine ⟨by decide, by decide, ?_, by decide, by decide, ?_⟩
  · rw [over16_iff (by decide) (by decide), Representable]
    decide
  · rw [over8_iff (by decide) (by decide), Representable]
    decide

end Rates

end Stm32f411.UsartBaudrate
