import Stm32f411.GpioPins
import Stm32f411.SharedDevices

/-!
The pins as inputs and outputs: `gpio_read_pin`, `gpio_write_pin`, `gpio_toggle_pin`,
`gpio_read_port` and `gpio_write_port` of `stm32f411_gpio.c`, called by tasks and interrupt
handlers at the same time.
-/

namespace Stm32f411.GpioOutputs

open Stm32f411.LabelledRuns
open Stm32f411.RegisterPrograms
open Stm32f411.SharedDevices
open Stm32f411.RtosTypes
open Stm32f411.BitMasks
open Stm32f411.GpioPins

section Driver

inductive OutputReg
  | idr | odr | bsrr
  deriving DecidableEq

abbrev OutputProgram := Program (PortName × OutputReg) Word

def gpioPinReset : Word := 0
def gpioPinSet : Word := 1

def gpioReadPin (port : Option PortName) (pin : Word) : OutputProgram Word :=
  match port with
  | none => pure gpioPinReset
  | some port =>
      if gpioPin15 < pin then pure gpioPinReset
      else do
        let idr ← readReg (port, .idr)
        return if idr &&& (1 : Word) <<< pin ≠ 0 then gpioPinSet else gpioPinReset

def gpioWritePin (port : Option PortName) (pin state : Word) : OutputProgram Int :=
  match port with
  | none => pure (-1)
  | some port =>
      if gpioPin15 < pin then pure (-1)
      else if state = gpioPinSet then do
        assignReg (port, .bsrr) ((1 : Word) <<< pin)
        return 0
      else do
        assignReg (port, .bsrr) ((1 : Word) <<< (pin + 16))
        return 0

def gpioTogglePin (port : Option PortName) (pin : Word) : OutputProgram Int :=
  match port with
  | none => pure (-1)
  | some port =>
      if gpioPin15 < pin then pure (-1)
      else do
        let pinMask := (1 : Word) <<< pin
        let odr ← readReg (port, .odr)
        if odr &&& pinMask ≠ 0 then
          assignReg (port, .bsrr) ((1 : Word) <<< (pin + 16))
        else assignReg (port, .bsrr) pinMask
        return 0

def gpioReadPort (port : Option PortName) : OutputProgram (BitVec 16) :=
  match port with
  | none => pure 0
  | some port => do
      let idr ← readReg (port, .idr)
      return (idr &&& 0xFFFF).setWidth 16

def gpioWritePort (port : Option PortName) (value : BitVec 16) : OutputProgram Int :=
  match port with
  | none => pure (-1)
  | some port => do
      assignReg (port, .odr) (value.setWidth 32)
      return 0

/-- The calls, with their arguments. -/
inductive GpioCall
  | readPin (port : Option PortName) (pin : Word)
  | writePin (port : Option PortName) (pin state : Word)
  | togglePin (port : Option PortName) (pin : Word)
  | readPort (port : Option PortName)
  | writePort (port : Option PortName) (value : BitVec 16)

inductive GpioReturn
  | status (result : Int)
  | level (state : Word)
  | levels (value : BitVec 16)

def GpioCall.program : GpioCall → OutputProgram GpioReturn
  | .readPin port pin => return .level (← gpioReadPin port pin)
  | .writePin port pin state => return .status (← gpioWritePin port pin state)
  | .togglePin port pin => return .status (← gpioTogglePin port pin)
  | .readPort port => return .levels (← gpioReadPort port)
  | .writePort port value => return .status (← gpioWritePort port value)

end Driver

section Outputs

/-- The output latches and what the pins read. -/
structure OutputState where
  odr : PortName → BitVec 16
  idr : PortName → BitVec 16

/-- A bit of BSRR sets a pin and the one sixteen places above it resets the pin; setting goes
first. -/
def bsrrWrite (odr : BitVec 16) (v : Word) : BitVec 16 :=
  odr &&& ~~~(v >>> 16).setWidth 16 ||| v.setWidth 16

inductive OutputEffect (s : OutputState) :
    Access (PortName × OutputReg) Word → OutputState → Prop
  | readIdr {port : PortName} :
      OutputEffect s (.read (port, .idr) ((s.idr port).setWidth 32)) s
  | readOdr {port : PortName} :
      OutputEffect s (.read (port, .odr) ((s.odr port).setWidth 32)) s
  | writeOdr {port : PortName} {v : Word} :
      OutputEffect s (.store .assign (port, .odr) v)
        { s with odr := Function.update s.odr port (v.setWidth 16) }
  | writeBsrr {port : PortName} {v : Word} :
      OutputEffect s (.store .assign (port, .bsrr) v)
        { s with odr := Function.update s.odr port (bsrrWrite (s.odr port) v) }

/-- The inputs change as they like. -/
def outputs : Device (PortName × OutputReg) Word OutputState where
  hardware := fun s s' => s'.odr = s.odr
  effect := OutputEffect

/-- The level each pin is driven to. -/
abbrev Levels := PortName → Nat → Bool

def Shows (L : Levels) (s : OutputState) : Prop :=
  ∀ port i, i < 16 → (s.odr port).getLsbD i = L port i

def Levels.drive (L : Levels) (port : PortName) (i : Nat) (level : Bool) : Levels :=
  Function.update L port (Function.update (L port) i level)

/-- What a call is for. -/
def GpioCall.next (L : Levels) : GpioCall → Levels
  | .writePin (some port) pin state =>
      if gpioPin15 < pin then L else L.drive port pin.toNat (state = gpioPinSet)
  | .togglePin (some port) pin =>
      if gpioPin15 < pin then L else L.drive port pin.toNat !L port pin.toNat
  | .writePort (some port) value => Function.update L port value.getLsbD
  | _ => L

def GpioCall.status : GpioCall → Option Int
  | .readPin _ _ => none
  | .writePin port pin _ => if port.isNone ∨ gpioPin15 < pin then some (-1) else some 0
  | .togglePin port pin => if port.isNone ∨ gpioPin15 < pin then some (-1) else some 0
  | .readPort _ => none
  | .writePort port _ => if port.isNone then some (-1) else some 0

/-- The pins a call drives. One that reads or is turned down drives none. -/
def GpioCall.pins : GpioCall → PortName → Nat → Prop
  | .writePin port pin _, p, i => port = some p ∧ pin.toNat = i ∧ i < 16
  | .togglePin port pin, p, i => port = some p ∧ pin.toNat = i ∧ i < 16
  | .writePort port _, p, i => port = some p ∧ i < 16
  | _, _, _ => False

theorem toNat_le_of_pin {pin : Word} (h : ¬gpioPin15 < pin) : pin.toNat < 16 := by
  simp only [gpioPin15, BitVec.lt_def] at h
  exact Nat.lt_succ_of_le (Nat.le_of_not_lt h)

theorem getLsbD_pin {pin : Word} {i : Nat} (hi : i < 32) :
    ((1 : Word) <<< pin).getLsbD i = decide (i = pin.toNat) := by
  have hone : ∀ j, (1 : Word).getLsbD j = decide (j = 0) := fun j => by simp
  rw [BitVec.shiftLeft_eq', BitVec.getLsbD_shiftLeft, hone]
  rcases Nat.lt_trichotomy i pin.toNat with hlt | heq | hgt
  · simp [hlt, hlt.ne]
  · simp [← heq, hi]
  · have hshift : i - pin.toNat ≠ 0 := by omega
    simp [hshift, hgt.ne']

theorem toNat_reset {pin : Word} (h : pin.toNat < 16) : (pin + 16).toNat = pin.toNat + 16 := by
  rw [BitVec.toNat_add]
  exact Nat.mod_eq_of_lt (by simp; omega)

theorem getLsbD_bsrrWrite {odr : BitVec 16} {v : Word} {i : Nat} (hi : i < 16) :
    (bsrrWrite odr v).getLsbD i = (v.getLsbD i || odr.getLsbD i && !v.getLsbD (i + 16)) := by
  simp only [bsrrWrite, BitVec.getLsbD_or, BitVec.getLsbD_and, BitVec.getLsbD_not,
    BitVec.getLsbD_setWidth, BitVec.getLsbD_ushiftRight, hi, decide_true, Bool.true_and]
  rw [Nat.add_comm 16 i, Bool.or_comm]

theorem bsrr_set {odr : BitVec 16} {pin : Word} {i : Nat} (h : pin.toNat < 16) (hi : i < 16) :
    (bsrrWrite odr ((1 : Word) <<< pin)).getLsbD i =
      Function.update odr.getLsbD pin.toNat true i := by
  rw [getLsbD_bsrrWrite hi, getLsbD_pin (by omega), getLsbD_pin (by omega)]
  have hother : i + 16 ≠ pin.toNat := by omega
  rcases eq_or_ne i pin.toNat with rfl | hne
  · simp
  · simp [hne, hother]

theorem bsrr_reset {odr : BitVec 16} {pin : Word} {i : Nat} (h : pin.toNat < 16) (hi : i < 16) :
    (bsrrWrite odr ((1 : Word) <<< (pin + 16))).getLsbD i =
      Function.update odr.getLsbD pin.toNat false i := by
  rw [getLsbD_bsrrWrite hi, getLsbD_pin (by omega), getLsbD_pin (by omega), toNat_reset h]
  have hother : i ≠ pin.toNat + 16 := by omega
  rcases eq_or_ne i pin.toNat with rfl | hne
  · simp
  · simp [hne, hother]

/-- The bit that `gpio_toggle_pin` tests. -/
theorem pin_test {v : Word} {pin : Word} (h : pin.toNat < 16) :
    v &&& (1 : Word) <<< pin ≠ 0 ↔ v.getLsbD pin.toNat = true := by
  constructor
  · intro hne
    by_contra hclear
    refine hne (and_eq_zero_iff.mpr fun i hi hv => ?_)
    rw [← BitVec.getLsbD_eq_getElem] at hv ⊢
    rw [getLsbD_pin hi, decide_eq_false_iff_not]
    rintro rfl
    exact hclear hv
  · intro hset hzero
    have hbit := and_eq_zero_iff.mp hzero pin.toNat (by omega)
      (by rw [← BitVec.getLsbD_eq_getElem]; exact hset)
    rw [← BitVec.getLsbD_eq_getElem, getLsbD_pin (by omega)] at hbit
    simp at hbit

end Outputs

section Calls

variable {L : Levels} {s : OutputState} {port : PortName} {v : Word} {level : Nat → Bool}

/-- What a call returns; what it reads is up to the inputs. -/
def GpioCall.Returns (_ : Levels) (call : GpioCall) (r : GpioReturn) : Prop :=
  ∀ result, call.status = some result → r = .status result

theorem shows_stable (L : Levels) : Stable outputs (Shows L) := by
  intro s s' hs hmove port i hi
  rw [show s'.odr = s.odr from hmove]
  exact hs port i hi

/-- A store to one port. -/
theorem always_port {r : OutputReg} (write : BitVec 16 → BitVec 16) (hs : Shows L s)
    (heffect : ∀ s s', OutputEffect s (.store .assign (port, r) v) s' →
      s' = { s with odr := Function.update s.odr port (write (s.odr port)) })
    (hwrite : ∀ odr : BitVec 16, (∀ i < 16, odr.getLsbD i = L port i) →
      ∀ i < 16, (write odr).getLsbD i = level i) :
    Always outputs
      (fun _ _ s' => Shows L s' ∨ Shows (Function.update L port level) s')
      (fun _ s' => Shows (Function.update L port level) s') (assignReg (port, r) v) s := by
  refine always_store (shows_stable L) hs fun t t' ht hstore => ?_
  have hshows : Shows (Function.update L port level) t' := by
    intro q i hi
    rw [heffect t t' hstore]
    rcases eq_or_ne q port with rfl | hne
    · simpa using hwrite (t.odr q) (ht q) i hi
    · simpa [hne] using ht q i hi
  exact ⟨.inr hshows, always_done (shows_stable _) hshows fun _ ht => ht⟩

/-- One pin set or reset through BSRR. -/
theorem always_drive {pin : Word} {target : Bool} (hs : Shows L s)
    (hv : ∀ odr : BitVec 16, ∀ i < 16, (bsrrWrite odr v).getLsbD i =
      Function.update odr.getLsbD pin.toNat target i) :
    Always outputs (fun _ _ s' => Shows L s' ∨ Shows (L.drive port pin.toNat target) s')
      (fun _ s' => Shows (L.drive port pin.toNat target) s') (assignReg (port, .bsrr) v) s := by
  refine always_port (fun odr => bsrrWrite odr v) hs (fun t t' h => ?_) fun odr hodr i hi => ?_
  · cases h
    rfl
  · rw [hv odr i hi]
    rcases eq_or_ne i pin.toNat with rfl | hne
    · simp
    · simpa [hne] using hodr i hi

/-- The driver function of a call with a status. -/
def Drives (call : GpioCall) (p : OutputProgram Int) : Prop :=
  ∀ L s, Shows L s → Always outputs (fun _ _ s' => Shows L s' ∨ Shows (call.next L) s')
    (fun result s' => Shows (call.next L) s' ∧ call.status = some result) p s

theorem Drives.performs {call : GpioCall} {p : OutputProgram Int} (h : Drives call p) :
    Performs outputs Shows GpioCall.next GpioCall.Returns call
      (do return .status (← p)) := by
  intro L s hs
  refine always_bind.mpr ((h L s hs).mono (fun _ _ _ hg => hg) fun result s' ⟨hs', hresult⟩ => ?_)
  refine always_done (shows_stable _) hs' fun t ht => ⟨ht, fun result' hresult' => ?_⟩
  rw [Option.some.inj (hresult.symm.trans hresult')]

/-- A call that is turned down. -/
theorem drives_refused {call : GpioCall} (hnext : ∀ L : Levels, call.next L = L)
    (hstatus : call.status = some (-1)) : Drives call (pure (-1)) := by
  intro L s hs
  refine always_done (shows_stable L) hs fun t ht => ⟨?_, hstatus⟩
  rw [hnext]
  exact ht

theorem writePin_drives (port : Option PortName) (pin state : Word) :
    Drives (.writePin port pin state) (gpioWritePin port pin state) := by
  cases port with
  | none => exact drives_refused (fun _ => rfl) rfl
  | some port =>
      rw [gpioWritePin]
      split
      · next hpin =>
          exact drives_refused (by simp [GpioCall.next, hpin]) (by simp [GpioCall.status, hpin])
      · next hpin =>
          have hstatus : (GpioCall.writePin (some port) pin state).status = some 0 := by
            simp [GpioCall.status, hpin]
          intro L s hs
          have hnext : (GpioCall.writePin (some port) pin state).next L =
              L.drive port pin.toNat (state = gpioPinSet) := by simp [GpioCall.next, hpin]
          have hlt := toNat_le_of_pin hpin
          rw [hnext]
          split
          · next hset =>
              rw [decide_eq_true hset]
              refine always_bind.mpr ((always_drive hs fun odr i hi => bsrr_set hlt hi).mono
                (fun _ _ _ hg => hg) fun _ t ht => ?_)
              exact always_done (shows_stable _) ht fun _ ht => ⟨ht, hstatus⟩
          · next hset =>
              rw [decide_eq_false hset]
              refine always_bind.mpr ((always_drive hs fun odr i hi => bsrr_reset hlt hi).mono
                (fun _ _ _ hg => hg) fun _ t ht => ?_)
              exact always_done (shows_stable _) ht fun _ ht => ⟨ht, hstatus⟩

theorem togglePin_drives (port : Option PortName) (pin : Word) :
    Drives (.togglePin port pin) (gpioTogglePin port pin) := by
  cases port with
  | none => exact drives_refused (fun _ => rfl) rfl
  | some port =>
      rw [gpioTogglePin]
      split
      · next hpin =>
          exact drives_refused (by simp [GpioCall.next, hpin]) (by simp [GpioCall.status, hpin])
      · next hpin =>
          have hstatus : (GpioCall.togglePin (some port) pin).status = some 0 := by
            simp [GpioCall.status, hpin]
          intro L s hs
          have hnext : (GpioCall.togglePin (some port) pin).next L =
              L.drive port pin.toNat !L port pin.toNat := by simp [GpioCall.next, hpin]
          have hlt := toNat_le_of_pin hpin
          rw [hnext]
          refine always_readReg_bind (shows_stable L) hs fun t odr t' ht hread => ?_
          obtain ⟨rfl, rfl⟩ : odr = (t.odr port).setWidth 32 ∧ t' = t := by
            cases hread
            exact ⟨rfl, rfl⟩
          refine ⟨.inl ht, ?_⟩
          have hlevel : ((t'.odr port).setWidth 32 &&& (1 : Word) <<< pin ≠ 0) ↔
              L port pin.toNat = true := by
            rw [pin_test hlt, ← ht port _ hlt, BitVec.getLsbD_setWidth]
            simp
            omega
          split
          · next hset =>
              rw [hlevel.mp hset]
              refine always_bind.mpr ((always_drive ht fun odr i hi => bsrr_reset hlt hi).mono
                (fun _ _ _ hg => hg) fun _ t ht => ?_)
              exact always_done (shows_stable _) ht fun _ ht => ⟨ht, hstatus⟩
          · next hset =>
              rw [Bool.eq_false_iff.mpr fun h => hset (hlevel.mpr h)]
              refine always_bind.mpr ((always_drive ht fun odr i hi => bsrr_set hlt hi).mono
                (fun _ _ _ hg => hg) fun _ t ht => ?_)
              exact always_done (shows_stable _) ht fun _ ht => ⟨ht, hstatus⟩

theorem writePort_drives (port : Option PortName) (value : BitVec 16) :
    Drives (.writePort port value) (gpioWritePort port value) := by
  cases port with
  | none => exact drives_refused (fun _ => rfl) rfl
  | some port =>
      intro L s hs
      have hwrite : Always outputs
          (fun _ _ s' => Shows L s' ∨ Shows (Function.update L port value.getLsbD) s')
          (fun _ s' => Shows (Function.update L port value.getLsbD) s')
          (assignReg (port, .odr) (value.setWidth 32)) s := by
        refine always_port (fun _ => (value.setWidth 32).setWidth 16) hs (fun t t' h => ?_)
          fun odr _ i hi => by simp
        cases h
        rfl
      refine always_bind.mpr (hwrite.mono (fun _ _ _ hg => hg) fun _ t ht => ?_)
      exact always_done (shows_stable _) ht fun _ ht => ⟨ht, rfl⟩

theorem reads_perform {α : Type} {call : GpioCall} {f : α → GpioReturn} {port : PortName}
    {g : Word → α} (hnext : ∀ L : Levels, call.next L = L) (hstatus : call.status = none) :
    Performs outputs Shows GpioCall.next GpioCall.Returns call
      (do return f (g (← readReg (port, .idr)))) := by
  intro L s hs
  refine always_readReg_bind (shows_stable L) hs fun t v t' ht hread => ?_
  obtain rfl : t' = t := by
    cases hread
    rfl
  refine ⟨.inl ht, always_done (shows_stable L) ht fun u hu => ⟨?_, fun result hresult => ?_⟩⟩
  · rw [hnext]
    exact hu
  · simp [hstatus] at hresult

theorem call_performs (call : GpioCall) :
    Performs outputs Shows GpioCall.next GpioCall.Returns call call.program := by
  have hsilent : ∀ {call : GpioCall} {r : GpioReturn}, (∀ L : Levels, call.next L = L) →
      call.status = none →
      Performs outputs Shows GpioCall.next GpioCall.Returns call (.done r) := by
    intro call r hnext hstatus L s hs
    refine always_done (shows_stable L) hs fun u hu => ⟨?_, fun result hresult => ?_⟩
    · rw [hnext]
      exact hu
    · simp [hstatus] at hresult
  cases call with
  | readPin port pin =>
      cases port with
      | none => exact hsilent (fun _ => rfl) rfl
      | some port =>
          rw [GpioCall.program, gpioReadPin]
          split
          · exact hsilent (fun _ => rfl) rfl
          · exact reads_perform (fun _ => rfl) rfl
  | writePin port pin state => exact (writePin_drives port pin state).performs
  | togglePin port pin => exact (togglePin_drives port pin).performs
  | readPort port =>
      cases port with
      | none => exact hsilent (fun _ => rfl) rfl
      | some port => exact reads_perform (fun _ => rfl) rfl
  | writePort port value => exact (writePort_drives port value).performs

end Calls

section Sharing

variable {κ : Type} {owner : PortName → Nat → κ} {c : κ}

/-- Every pin belongs to one context. -/
def pinDivision (owner : PortName → Nat → κ) :
    Division κ (PortName × OutputReg) Word OutputState where
  same := fun c s t => ∀ port i, i < 16 → owner port i = c →
    (s.odr port).getLsbD i = (t.odr port).getLsbD i ∧
      (s.idr port).getLsbD i = (t.idr port).getLsbD i
  alike := fun c r v v' => ∀ i, i < 16 → owner r.1 i = c → v.getLsbD i = v'.getLsbD i
  owns := fun c _ r v => ∀ i, i < 16 → owner r.1 i ≠ c →
    r.2 = .bsrr ∧ v.getLsbD i = false ∧ v.getLsbD (i + 16) = false

theorem pins_apart (owner : PortName → Nat → κ) : Apart outputs (pinDivision owner) where
  refl := fun _ _ _ _ _ _ => ⟨rfl, rfl⟩
  alike := fun _ _ _ _ _ _ => rfl
  read := by
    intro c s t r v s' hsame h
    cases h with
    | @readIdr port =>
        refine ⟨(t.idr port).setWidth 32, t, .readIdr, fun i hi hown => ?_, hsame⟩
        simp only [BitVec.getLsbD_setWidth, (hsame port i hi hown).2]
    | @readOdr port =>
        refine ⟨(t.odr port).setWidth 32, t, .readOdr, fun i hi hown => ?_, hsame⟩
        simp only [BitVec.getLsbD_setWidth, (hsame port i hi hown).1]
  store := by
    intro c s t how r v s' howns hsame h
    cases h with
    | @writeOdr port _ =>
        refine ⟨_, .writeOdr, fun q i hi hown => ?_⟩
        rcases eq_or_ne q port with rfl | hne
        · simpa using (hsame q i hi hown).2
        · simpa [hne] using hsame q i hi hown
    | @writeBsrr port _ =>
        refine ⟨_, .writeBsrr, fun q i hi hown => ?_⟩
        rcases eq_or_ne q port with rfl | hne
        · simpa [getLsbD_bsrrWrite hi, (hsame q i hi hown).1] using (hsame q i hi hown).2
        · simpa [hne] using hsame q i hi hown
  readElse := by
    intro c s t r v s' hsame h
    cases h <;> exact hsame
  storeElse := by
    intro c d s t how r v s' hne howns hsame h
    cases h with
    | @writeOdr port _ =>
        intro q i hi hown
        rcases eq_or_ne q port with rfl | hq
        · have hother := (howns i hi (by rw [hown]; exact hne.symm)).1
          simp at hother
        · simpa [hq] using hsame q i hi hown
    | @writeBsrr port _ =>
        intro q i hi hown
        rcases eq_or_ne q port with rfl | hq
        · obtain ⟨_, hset, hreset⟩ := howns i hi (by rw [hown]; exact hne.symm)
          simpa [getLsbD_bsrrWrite hi, hset, hreset] using hsame q i hi hown
        · simpa [hq] using hsame q i hi hown
  hardware := by
    intro c s t s' hsame hmove
    refine ⟨⟨t.odr, s'.idr⟩, .single rfl, fun port i hi hown => ⟨?_, rfl⟩⟩
    rw [show s'.odr = s.odr from hmove]
    exact (hsame port i hi hown).1

/-- The words that `gpio_write_pin` and `gpio_toggle_pin` store speak of one pin. -/
theorem pin_words {port : PortName} {pin : Word} (hpin : ¬gpioPin15 < pin)
    (hown : owner port pin.toNat = c) {v : Word}
    (hv : v = (1 : Word) <<< pin ∨ v = (1 : Word) <<< (pin + 16)) :
    ∀ i, i < 16 → owner port i ≠ c →
      (OutputReg.bsrr = .bsrr) ∧ v.getLsbD i = false ∧ v.getLsbD (i + 16) = false := by
  intro i hi hother
  have hlt := toNat_le_of_pin hpin
  have hne : i ≠ pin.toNat := by
    rintro rfl
    exact hother hown
  rcases hv with rfl | rfl
  · rw [getLsbD_pin (by omega), getLsbD_pin (by omega)]
    simp [hne]
    omega
  · rw [getLsbD_pin (by omega), getLsbD_pin (by omega), toNat_reset hlt]
    simp [hne]
    omega

theorem alike_test {port : PortName} {pin : Word} {r : OutputReg} (hpin : ¬gpioPin15 < pin)
    (hown : owner port pin.toNat = c) {v v' : Word}
    (h : (pinDivision owner).alike c (port, r) v v') :
    v &&& (1 : Word) <<< pin ≠ 0 ↔ v' &&& (1 : Word) <<< pin ≠ 0 := by
  have hlt := toNat_le_of_pin hpin
  rw [pin_test hlt, pin_test hlt, h pin.toNat hlt hown]

/-- What a reading function returns is nobody's business. -/
theorem read_confined {α : Type} (port : PortName) (f : Word → α) :
    Confined (pinDivision owner) c (fun _ _ => True) (do return f (← readReg (port, .idr))) :=
  .read fun _ _ _ => .done trivial

theorem readPin_confined (port : Option PortName) (pin : Word) :
    Confined (pinDivision owner) c (fun _ _ => True) (gpioReadPin port pin) := by
  cases port with
  | none => exact .done trivial
  | some port =>
      rw [gpioReadPin]
      split
      · exact .done trivial
      · exact read_confined port _

theorem writePin_confined {port : Option PortName} {pin state : Word}
    (h : ∀ p, port = some p → pin.toNat < 16 → owner p pin.toNat = c) :
    Confined (pinDivision owner) c Eq (gpioWritePin port pin state) := by
  cases port with
  | none => exact .done rfl
  | some port =>
      rw [gpioWritePin]
      split
      · exact .done rfl
      · next hpin =>
          have hown := h port rfl (toNat_le_of_pin hpin)
          split
          · exact .store (pin_words hpin hown (.inl rfl)) (.done rfl)
          · exact .store (pin_words hpin hown (.inr rfl)) (.done rfl)

theorem togglePin_confined {port : Option PortName} {pin : Word}
    (h : ∀ p, port = some p → pin.toNat < 16 → owner p pin.toNat = c) :
    Confined (pinDivision owner) c Eq (gpioTogglePin port pin) := by
  cases port with
  | none => exact .done rfl
  | some port =>
      rw [gpioTogglePin]
      split
      · exact .done rfl
      · next hpin =>
          have hown := h port rfl (toNat_le_of_pin hpin)
          refine .read fun v v' halike => ?_
          change Alike (pinDivision owner) c Eq
            (if v &&& (1 : Word) <<< pin ≠ 0 then _ else _)
            (if v' &&& (1 : Word) <<< pin ≠ 0 then _ else _)
          rw [if_congr (alike_test hpin hown halike) rfl rfl]
          split
          · exact .store (pin_words hpin hown (.inr rfl)) (.done rfl)
          · exact .store (pin_words hpin hown (.inl rfl)) (.done rfl)

theorem readPort_confined (port : Option PortName) :
    Confined (pinDivision owner) c (fun _ _ => True) (gpioReadPort port) := by
  cases port with
  | none => exact .done trivial
  | some port => exact read_confined port _

theorem writePort_confined {port : Option PortName} {value : BitVec 16}
    (h : ∀ p i, port = some p → i < 16 → owner p i = c) :
    Confined (pinDivision owner) c Eq (gpioWritePort port value) := by
  cases port with
  | none => exact .done rfl
  | some port => exact .store (fun i hi hother => absurd (h port i rfl hi) hother) (.done rfl)

/-- The rest of the port may change what a call reads, but not its status. -/
def SameStatus (r r' : GpioReturn) : Prop :=
  ∀ result, r' = .status result → r = .status result

theorem call_confined {call : GpioCall} (h : ∀ port i, call.pins port i → owner port i = c) :
    Confined (pinDivision owner) c SameStatus call.program := by
  have hstatus : ∀ result result' : Int, result = result' →
      Alike (pinDivision owner) c SameStatus (.done (.status result)) (.done (.status result')) :=
    fun _ _ hresult => .done fun _ hsame => hresult ▸ hsame
  cases call with
  | readPin port pin =>
      exact (readPin_confined port pin).bind fun _ _ _ => .done fun _ hstatus => nomatch hstatus
  | writePin port pin state =>
      exact (writePin_confined fun p hp hlt => h p _ ⟨hp, rfl, hlt⟩).bind hstatus
  | togglePin port pin =>
      exact (togglePin_confined fun p hp hlt => h p _ ⟨hp, rfl, hlt⟩).bind hstatus
  | readPort port =>
      exact (readPort_confined port).bind fun _ _ _ => .done fun _ hstatus => nomatch hstatus
  | writePort port value =>
      exact (writePort_confined fun p i hp hi => h p i ⟨hp, hi⟩).bind hstatus

/-- Outputs can be shared pin by pin without any lock. Tasks and handlers that interrupt each
other between any two register accesses leave every pin as the calls of the pin's owner, in
their own order, make it, whatever the others do with the rest of the port; and the calls
return what they should. -/
theorem pins_shared [DecidableEq κ] {calls : κ → List GpioCall} {s s' : OutputState}
    {programs : κ → OutputProgram (List GpioReturn)} {labels : List (Option κ)}
    (hown : ∀ c, ∀ call ∈ calls c, ∀ port i, call.pins port i → owner port i = c)
    (h : Run (Interleaves outputs) ((fun c => (calls c).mapM' GpioCall.program), s) labels
      (programs, s')) (c : κ) :
    (∃ n ≤ (calls c).length, ∀ port i, i < 16 → owner port i = c →
      (s'.odr port).getLsbD i =
        ((calls c).take n).foldl GpioCall.next (fun p j => (s.odr p).getLsbD j) port i) ∧
      ∀ returns, programs c = .done returns →
        (∀ port i, i < 16 → owner port i = c → (s'.odr port).getLsbD i =
          (calls c).foldl GpioCall.next (fun p j => (s.odr p).getLsbD j) port i) ∧
          List.Forall₂ (fun call r => ∀ result, call.status = some result → r = .status result)
            (calls c) returns := by
  have hs : Shows (fun p j => (s.odr p).getLsbD j) s := fun _ _ _ => rfl
  obtain ⟨t, hsame, ⟨n, hn, ht⟩, hdone⟩ := shared_calls (pins_apart owner) shows_stable
    (fun c call hcall => call_confined (hown c call hcall))
    (fun _ _ _ _ hsame hreturns result hresult => hsame result (hreturns result hresult))
    call_performs hs h c
  refine ⟨⟨n, hn, fun port i hi hc => ?_⟩, fun returns hreturns => ?_⟩
  · exact (hsame port i hi hc).1.trans (ht port i hi)
  · obtain ⟨hall, hreturned⟩ := hdone returns hreturns
    exact ⟨fun port i hi hc => (hsame port i hi hc).1.trans (hall port i hi),
      hreturned.forall₂⟩

/-- The next access of one program. -/
def turn (state : (Bool → OutputProgram (List GpioReturn)) × OutputState) (label : Option Bool) :
    Option ((Bool → OutputProgram (List GpioReturn)) × OutputState) :=
  label.bind fun c =>
    match state.1 c with
    | .read (port, .idr) next =>
        some (Function.update state.1 c (next ((state.2.idr port).setWidth 32)), state.2)
    | .read (port, .odr) next =>
        some (Function.update state.1 c (next ((state.2.odr port).setWidth 32)), state.2)
    | .store .assign (port, .bsrr) v next =>
        some (Function.update state.1 c next, { state.2 with
          odr := Function.update state.2.odr port (bsrrWrite (state.2.odr port) v) })
    | _ => none

theorem turn_interleaves {state state' : (Bool → OutputProgram (List GpioReturn)) × OutputState}
    {label : Option Bool} (h : Steps turn state label state') :
    Interleaves outputs state label state' := by
  obtain ⟨programs, s⟩ := state
  obtain ⟨c, rfl, hc⟩ := Option.bind_eq_some_iff.mp h
  dsimp only at hc
  split at hc
  · next hprogram =>
      obtain rfl := Option.some.inj hc
      exact .access (by rw [hprogram]; exact .read .readIdr)
  · next hprogram =>
      obtain rfl := Option.some.inj hc
      exact .access (by rw [hprogram]; exact .read .readOdr)
  · next hprogram =>
      obtain rfl := Option.some.inj hc
      exact .access (by rw [hprogram]; exact .store .writeBsrr)
  · simp at hc

/-- A task that toggles the green LED twice and looks at the orange one in between, and a handler
that switches the orange one on. -/
def demoCalls : Bool → List GpioCall
  | true => [.togglePin (some .gpiod) 12, .readPin (some .gpiod) 13, .togglePin (some .gpiod) 12]
  | false => [.writePin (some .gpiod) 13 gpioPinSet]

/-- The handler comes between the read and the write of the first toggle. -/
def demoShared : (Bool → OutputProgram (List GpioReturn)) × OutputState :=
  (exec turn (fun c => (demoCalls c).mapM' GpioCall.program, ⟨fun _ => 0, fun _ => 0⟩)
    [some true, some false, some true, some true, some true, some true]).getD
      (fun _ => .done [], ⟨fun _ => 0, fun _ => 0⟩)

theorem pins_shared_demo :
    (demoShared.2.odr .gpiod).getLsbD 12 = false ∧
      (demoShared.2.odr .gpiod).getLsbD 13 = true := by
  have hrun : Run (Steps turn)
      (fun c => (demoCalls c).mapM' GpioCall.program, ⟨fun _ => 0, fun _ => 0⟩)
      [some true, some false, some true, some true, some true, some true] demoShared :=
    run_of_exec rfl
  have hown : ∀ c, ∀ call ∈ demoCalls c, ∀ port i, call.pins port i →
      (fun port i => decide (port = PortName.gpiod ∧ i = 12)) port i = c := by
    intro c call hcall port i hpins
    cases c <;> simp only [demoCalls, List.mem_cons, List.not_mem_nil, or_false] at hcall
    · subst hcall
      obtain ⟨hport, rfl, _⟩ := hpins
      simp [← Option.some.inj hport]
    · rcases hcall with rfl | rfl | rfl
      · obtain ⟨hport, rfl, _⟩ := hpins
        simp [← Option.some.inj hport]
      · exact hpins.elim
      · obtain ⟨hport, rfl, _⟩ := hpins
        simp [← Option.some.inj hport]
  have hshared := pins_shared hown (hrun.mono fun _ _ _ => turn_interleaves)
  exact ⟨((hshared true).2 _ rfl).1 .gpiod 12 (by decide) rfl,
    ((hshared false).2 _ rfl).1 .gpiod 13 (by decide) rfl⟩

end Sharing

end Stm32f411.GpioOutputs
