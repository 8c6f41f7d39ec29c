import Stm32f411.RegisterPrograms
import Stm32f411.RtosTypes

/-!
The stream calls of `stm32f411_dma.c`, and the two controllers they work on. The hardware
moves on its own: it disables streams, raises event flags and counts items down.
-/

namespace Stm32f411.DmaStreams

open Stm32f411.LabelledRuns
open Stm32f411.RegisterPrograms
open Stm32f411.RtosTypes

/-- The pointers a caller can pass as a controller. -/
inductive Controller
  | dma1 | dma2 | other
  deriving DecidableEq

inductive Location
  | cr (controller : Controller) (stream : Nat)
  | ndtr (controller : Controller) (stream : Nat)
  | par (controller : Controller) (stream : Nat)
  | m0ar (controller : Controller) (stream : Nat)
  | fcr (controller : Controller) (stream : Nat)
  | lifcr (controller : Controller)
  | hifcr (controller : Controller)
  | ahb1enr
  deriving DecidableEq

abbrev DmaProgram := Program Location Word
abbrev DmaAccess := Access Location Word

section Constants

def dmaErrorInvalidParam : Int := -1
def dmaErrorTimeout : Int := -2
def dmaErrorUnsupported : Int := -3
def dmaErrorBusy : Int := -4

def dmaSxCrEn : Word := 0x1
def dmaSxCrDirMsk : Word := 0xC0
def dmaSxCrCirc : Word := 0x100
def dmaSxCrPinc : Word := 0x200
def dmaSxCrMinc : Word := 0x400
def dmaSxCrPsizeMsk : Word := 0x1800
def dmaSxCrMsizeMsk : Word := 0x6000
def dmaSxCrPlMsk : Word := 0x30000
def dmaSxCrChselMsk : Word := 0xE000000
def dmaSxFcrFthMsk : Word := 0x3
def dmaSxFcrDmdis : Word := 0x4
def dmaSxNdtrNdtMsk : Word := 0xFFFF

/-- FEIF, DMEIF, TEIF, HTIF and TCIF. -/
def dmaEventAll : Word := 0x1 ||| 0x4 ||| 0x8 ||| 0x10 ||| 0x20

def rccAhb1enrDma1en : Word := 0x200000
def rccAhb1enrDma2en : Word := 0x400000

end Constants

section Driver

/-- The fields of an enumeration type hold any word. -/
structure DmaConfig where
  channel : Word
  direction : Word
  periphWidth : Word
  memoryWidth : Word
  periphIncrement : Word
  memoryIncrement : Word
  mode : Word
  priority : Word
  fifoMode : Word
  fifoThreshold : Word

structure DmaTransfer where
  periphAddress : Word
  memoryAddress : Word
  itemCount : Word

def dmaIsValidController (controller : Controller) : Bool :=
  decide (controller ≠ .other)

def dmaIsValidStream (stream : Word) : Bool :=
  decide (stream ≤ 7)

def dmaEnableClock (controller : Controller) : DmaProgram Unit := do
  setBits .ahb1enr (if controller = .dma1 then rccAhb1enrDma1en else rccAhb1enrDma2en)
  let _ ← readReg .ahb1enr

def dmaGetStreamOffset (stream : Word) : Nat :=
  match (stream &&& 0x3).toNat with
  | 0 => 0
  | 1 => 6
  | 2 => 16
  | _ => 22

def dmaValidateConfig (controller : Controller) (config : Option DmaConfig) : Int :=
  match config with
  | none => dmaErrorInvalidParam
  | some config =>
    if dmaIsValidController controller = false then dmaErrorInvalidParam
    else if 7 < config.channel ∨ 2 < config.direction ∨ 2 < config.periphWidth ∨
        2 < config.memoryWidth ∨ 1 < config.periphIncrement ∨ 1 < config.memoryIncrement ∨
        1 < config.mode ∨ 3 < config.priority ∨ 1 < config.fifoMode ∨
        3 < config.fifoThreshold then dmaErrorInvalidParam
    else if config.direction = 2 ∧ controller ≠ .dma2 then dmaErrorUnsupported
    else if config.direction = 2 ∧ (config.mode = 1 ∨ config.fifoMode ≠ 1) then
      dmaErrorUnsupported
    else if config.fifoMode = 0 ∧ config.periphWidth ≠ config.memoryWidth then
      dmaErrorUnsupported
    else 0

/-- The value that `dma_init` gives CR. -/
def configCr (config : DmaConfig) : Word :=
  (config.channel <<< 25 &&& dmaSxCrChselMsk) |||
  (config.direction <<< 6 &&& dmaSxCrDirMsk) |||
  (config.memoryWidth <<< 13 &&& dmaSxCrMsizeMsk) |||
  (config.periphWidth <<< 11 &&& dmaSxCrPsizeMsk) |||
  (config.priority <<< 16 &&& dmaSxCrPlMsk) |||
  (if config.memoryIncrement = 1 then dmaSxCrMinc else 0) |||
  (if config.periphIncrement = 1 then dmaSxCrPinc else 0) |||
  (if config.mode = 1 then dmaSxCrCirc else 0)

def configFcr (config : DmaConfig) : Word :=
  (config.fifoThreshold &&& dmaSxFcrFthMsk) |||
  (if config.fifoMode = 1 then dmaSxFcrDmdis else 0)

def dmaInit (controller : Controller) (stream : Word) (config : Option DmaConfig) :
    DmaProgram Int :=
  if dmaIsValidStream stream = false then pure dmaErrorInvalidParam
  else if dmaValidateConfig controller config ≠ 0 then
    pure (dmaValidateConfig controller config)
  else
    match config with
    | none => pure dmaErrorInvalidParam  -- refused above
    | some config => do
        dmaEnableClock controller
        let cr ← readReg (.cr controller stream.toNat)
        if cr &&& dmaSxCrEn ≠ 0 then pure dmaErrorBusy
        else
          assignReg (.cr controller stream.toNat) (configCr config)
          assignReg (.fcr controller stream.toNat) (configFcr config)
          pure 0

def dmaClearFlags (controller : Controller) (stream flags : Word) : DmaProgram Int :=
  if dmaIsValidController controller = false ∨ dmaIsValidStream stream = false ∨
      flags &&& ~~~dmaEventAll ≠ 0 then
    pure dmaErrorInvalidParam
  else do
    assignReg (if stream < 4 then .lifcr controller else .hifcr controller)
      (flags <<< dmaGetStreamOffset stream)
    pure 0

/-- The loop of `dma_abort`; the caller has refused a timeout of 0. -/
def dmaAbortWait (controller : Controller) (stream : Nat) : Nat → DmaProgram Int
  | 0 => pure dmaErrorTimeout
  | timeout + 1 => do
      let cr ← readReg (.cr controller stream)
      if cr &&& dmaSxCrEn ≠ 0 then
        if timeout = 0 then pure dmaErrorTimeout else dmaAbortWait controller stream timeout
      else pure 0

def dmaAbort (controller : Controller) (stream timeout : Word) : DmaProgram Int :=
  if dmaIsValidController controller = false ∨ dmaIsValidStream stream = false ∨
      timeout = 0 then
    pure dmaErrorInvalidParam
  else do
    clearBits (.cr controller stream.toNat) dmaSxCrEn
    dmaAbortWait controller stream.toNat timeout.toNat

def dmaStart (controller : Controller) (stream : Word) (transfer : Option DmaTransfer) :
    DmaProgram Int :=
  match transfer with
  | none => pure dmaErrorInvalidParam
  | some transfer =>
    if dmaIsValidController controller = false ∨ dmaIsValidStream stream = false then
      pure dmaErrorInvalidParam
    else if transfer.itemCount = 0 ∨ dmaSxNdtrNdtMsk < transfer.itemCount then
      pure dmaErrorInvalidParam
    else do
      let cr ← readReg (.cr controller stream.toNat)
      if cr &&& dmaSxCrEn ≠ 0 then pure dmaErrorBusy
      else
        let cr ← readReg (.cr controller stream.toNat)
        let psize := (cr &&& dmaSxCrPsizeMsk) >>> 11
        let cr ← readReg (.cr controller stream.toNat)
        let msize := (cr &&& dmaSxCrMsizeMsk) >>> 13
        if 2 < psize ∨ 2 < msize then pure dmaErrorInvalidParam
        else if transfer.periphAddress &&& ((1 : Word) <<< psize - 1) ≠ 0 ∨
            transfer.memoryAddress &&& ((1 : Word) <<< msize - 1) ≠ 0 then
          pure dmaErrorInvalidParam
        else if psize < msize ∧ transfer.itemCount % ((1 : Word) <<< (msize - psize)) ≠ 0 then
          pure dmaErrorInvalidParam
        else
          assignReg (.par controller stream.toNat) transfer.periphAddress
          assignReg (.m0ar controller stream.toNat) transfer.memoryAddress
          assignReg (.ndtr controller stream.toNat) transfer.itemCount
          let status ← dmaClearFlags controller stream dmaEventAll
          if status ≠ 0 then pure status
          else
            setBits (.cr controller stream.toNat) dmaSxCrEn
            pure 0

end Driver

section Controllers

structure DmaStream where
  cr : Word
  ndtr : Word
  par : Word
  m0ar : Word
  fcr : Word

/-- The controllers, with the last store of the call under way. -/
structure DmaState where
  streams : Controller → Nat → DmaStream
  lisr : Controller → Word
  hisr : Controller → Word
  ahb1enr : Word
  lastStore : Option DmaAccess

/-- The reset values: every stream disabled, in direct mode. -/
def DmaState.reset : DmaState where
  streams _ _ := ⟨0, 0, 0, 0, 0x21⟩
  lisr _ := 0
  hisr _ := 0
  ahb1enr := 0
  lastStore := none

def DmaStream.Enabled (r : DmaStream) : Prop :=
  r.cr &&& dmaSxCrEn ≠ 0

instance (r : DmaStream) : Decidable r.Enabled :=
  inferInstanceAs (Decidable (_ ≠ _))

/-- CR without EN. -/
def DmaStream.modes (r : DmaStream) : Word :=
  r.cr &&& ~~~dmaSxCrEn

/-- What the hardware may do to a stream: disable it, and count items while it is enabled. -/
def DmaStream.Hardware (r r' : DmaStream) : Prop :=
  (r'.cr = r.cr ∨ r'.cr = r.modes) ∧ (r.Enabled ∨ r'.ndtr = r.ndtr) ∧
    r'.par = r.par ∧ r'.m0ar = r.m0ar ∧ r'.fcr = r.fcr

def DmaState.Hardware (s s' : DmaState) : Prop :=
  (∀ controller stream,
    (s.streams controller stream).Hardware (s'.streams controller stream)) ∧
  (∀ controller, s'.lisr controller &&& s.lisr controller = s.lisr controller ∧
    s'.hisr controller &&& s.hisr controller = s.hisr controller) ∧
  s'.ahb1enr = s.ahb1enr ∧ s'.lastStore = s.lastStore

def DmaState.setStream (s : DmaState) (controller : Controller) (stream : Nat) (r : DmaStream) :
    DmaState :=
  { s with streams := fun c n =>
      if c = controller ∧ n = stream then r else s.streams c n }

/-- The stored value, from the old one. -/
def assigned : Assignment → Word → Word → Word
  | .assign, _, v => v
  | .set, old, v => old ||| v
  | .clear, old, v => old &&& ~~~v

/-- A store to one location. LIFCR and HIFCR clear the flags whose bits are written as 1. -/
def DmaState.store (s : DmaState) (how : Assignment) : Location → Word → DmaState
  | .cr c n, v =>
      s.setStream c n { s.streams c n with cr := assigned how (s.streams c n).cr v }
  | .ndtr c n, v =>
      s.setStream c n { s.streams c n with ndtr := assigned how (s.streams c n).ndtr v }
  | .par c n, v =>
      s.setStream c n { s.streams c n with par := assigned how (s.streams c n).par v }
  | .m0ar c n, v =>
      s.setStream c n { s.streams c n with m0ar := assigned how (s.streams c n).m0ar v }
  | .fcr c n, v =>
      s.setStream c n { s.streams c n with fcr := assigned how (s.streams c n).fcr v }
  | .lifcr c, v => { s with lisr := Function.update s.lisr c (s.lisr c &&& ~~~v) }
  | .hifcr c, v => { s with hisr := Function.update s.hisr c (s.hisr c &&& ~~~v) }
  | .ahb1enr, v => { s with ahb1enr := assigned how s.ahb1enr v }

/-- The store that leaves EN set: the stream is disabled when its transfer under way ends. -/
def DmaState.storeLate (s : DmaState) (how : Assignment) : Location → Word → DmaState
  | .cr c n, v =>
      s.setStream c n { s.streams c n with
        cr := assigned how (s.streams c n).cr v ||| ((s.streams c n).cr &&& dmaSxCrEn) }
  | r, v => s.store how r v

def DmaState.value (s : DmaState) : Location → Word → Prop
  | .cr c n, v => v = (s.streams c n).cr
  | .ndtr c n, v => v = (s.streams c n).ndtr
  | .par c n, v => v = (s.streams c n).par
  | .m0ar c n, v => v = (s.streams c n).m0ar
  | .fcr c n, v => v = (s.streams c n).fcr
  | .ahb1enr, v => v = s.ahb1enr
  | _, _ => True

def dmaEffect (s : DmaState) : DmaAccess → DmaState → Prop
  | .read r v, s' => s.value r v ∧ s' = s
  | .store how r v, s' =>
      s' = { s.store how r v with lastStore := some (.store how r v) } ∨
      s' = { s.storeLate how r v with lastStore := some (.store how r v) }

def dma : Device Location Word DmaState where
  hardware := DmaState.Hardware
  effect := dmaEffect

end Controllers

section Calls

inductive DmaCall
  | init (controller : Controller) (stream : Word) (config : Option DmaConfig)
  | start (controller : Controller) (stream : Word) (transfer : Option DmaTransfer)
  | abort (controller : Controller) (stream timeout : Word)
  | clearFlags (controller : Controller) (stream flags : Word)

def DmaCall.program : DmaCall → DmaProgram Int
  | .init controller stream config => dmaInit controller stream config
  | .start controller stream transfer => dmaStart controller stream transfer
  | .abort controller stream timeout => dmaAbort controller stream timeout
  | .clearFlags controller stream flags => dmaClearFlags controller stream flags

/-- The stream that a call is about. -/
def DmaCall.controller : DmaCall → Controller
  | .init controller _ _ => controller
  | .start controller _ _ => controller
  | .abort controller _ _ => controller
  | .clearFlags controller _ _ => controller

def DmaCall.stream : DmaCall → Nat
  | .init _ stream _ => stream.toNat
  | .start _ stream _ => stream.toNat
  | .abort _ stream _ => stream.toNat
  | .clearFlags _ stream _ => stream.toNat

/-- The state in which a call starts. -/
def DmaState.begin (s : DmaState) : DmaState :=
  { s with lastStore := none }

/-- One call with its result. -/
def CallStep (s : DmaState) (x : DmaCall × Int) (s' : DmaState) : Prop :=
  ∃ events, Run (Moves dma) (x.1.program, s.begin) events (.done x.2, s')

end Calls

end Stm32f411.DmaStreams
