import Stm32f411.RegisterPrograms
import Stm32f411.RtosTypes

/-!
`spi_transfer` of `stm32f411_spi.c`, and the peripheral it polls: every byte written to DR
is exchanged for one byte that arrives later, in order, in a receive buffer of one byte.
-/

namespace Stm32f411.SpiTransfer

open Stm32f411.LabelledRuns
open Stm32f411.RegisterPrograms
open Stm32f411.RtosTypes

/-- The registers of the instance, and the bytes of the caller's receive buffer. -/
inductive Location
  | cr1 | sr | dr
  | rx (index : Nat)
  deriving DecidableEq

abbrev SpiProgram := Program Location Word
abbrev SpiAccess := Access Location Word

/-- The pointers a caller can pass as an instance. -/
inductive Instance
  | spi1 | spi2 | other
  deriving DecidableEq

section Constants

def spiCr1Spe : Word := 0x40
def spiCr1Ssi : Word := 0x100
def spiSrRxne : Word := 0x1
def spiSrTxe : Word := 0x2
def spiSrModf : Word := 0x20
def spiSrOvr : Word := 0x40
def spiSrBsy : Word := 0x80

def spiErrorInvalidParam : Int := -1
def spiErrorTimeout : Int := -2
def spiErrorBusy : Int := -4
def spiErrorOverrun : Int := -5
def spiErrorModeFault : Int := -6

end Constants

section Driver

def spiIsSupported (instancePtr : Instance) : Bool :=
  decide (instancePtr ≠ .other)

def spiClearOverrun : SpiProgram Unit := do
  let _ ← readReg .dr
  let _ ← readReg .sr

def spiCheckError : SpiProgram Int := do
  let status ← readReg .sr
  if status &&& spiSrOvr ≠ 0 then
    spiClearOverrun
    pure spiErrorOverrun
  else if status &&& spiSrModf ≠ 0 then
    setBits .cr1 spiCr1Ssi
    pure spiErrorModeFault
  else pure 0

def spiWaitFlag (flag : Word) (timeout : Nat) : SpiProgram Int := do
  let sr ← readReg .sr
  if sr &&& flag = 0 then
    let status ← spiCheckError
    if status ≠ 0 then pure status
    else
      match timeout with
      | 0 => pure spiErrorTimeout
      | timeout + 1 => spiWaitFlag flag timeout
  else spiCheckError

def spiWaitNotBusy (timeout : Nat) : SpiProgram Int := do
  let sr ← readReg .sr
  if sr &&& spiSrBsy ≠ 0 then
    let status ← spiCheckError
    if status ≠ 0 then pure status
    else
      match timeout with
      | 0 => pure spiErrorBusy
      | timeout + 1 => spiWaitNotBusy timeout
  else spiCheckError

/-- `(tx != NULL) ? tx[index] : 0xFFU`. -/
def txByte (tx : Option (Nat → Byte)) (index : Nat) : Word :=
  match tx with
  | some bytes => (bytes index).zeroExtend 32
  | none => 0xFF

/-- `if (rx != NULL) rx[index] = received`. -/
def storeReceived (hasRx : Bool) (index : Nat) (received : Word) : SpiProgram Unit :=
  if hasRx = true then assignReg (.rx index) (received &&& 0xFF) else pure ()

/-- The loop over the bytes from `index` on, and the status with which it is left. -/
def spiTransferLoop (tx : Option (Nat → Byte)) (hasRx : Bool) (timeout : Nat) :
    Nat → Nat → SpiProgram Int
  | 0, _ => pure 0
  | remaining + 1, index => do
      let status ← spiWaitFlag spiSrTxe timeout
      if status ≠ 0 then pure status
      else
        assignReg .dr (txByte tx index)
        let status ← spiWaitFlag spiSrRxne timeout
        if status ≠ 0 then pure status
        else
          let received ← readReg .dr
          storeReceived hasRx index received
          spiTransferLoop tx hasRx timeout remaining (index + 1)

/-- What follows the loop: an error returns at once. -/
def spiFinish (timeout : Nat) (status : Int) : SpiProgram Int :=
  if status ≠ 0 then pure status else spiWaitNotBusy timeout

def spiTransfer (instancePtr : Instance) (tx : Option (Nat → Byte)) (hasRx : Bool)
    (length timeout : Word) : SpiProgram Int :=
  if spiIsSupported instancePtr = false ∨ timeout = 0 then pure spiErrorInvalidParam
  else do
    let cr1 ← readReg .cr1
    if cr1 &&& spiCr1Spe = 0 then pure spiErrorBusy
    else
      let status ← spiCheckError
      if status ≠ 0 then pure status
      else
        let status ← spiTransferLoop tx hasRx timeout.toNat length.toNat 0
        spiFinish timeout.toNat status

end Driver

section Peripheral

/-- The peripheral, and the receive buffer of the call. Bytes are known by the number of
the DR write that they are exchanged for. -/
structure SpiState where
  /-- The values written to DR, oldest first. -/
  sent : List Word
  /-- How many of the bytes exchanged for them have arrived. -/
  arrived : Nat
  /-- The received byte that has not been read. -/
  buffer : Option Nat
  ovr : Bool
  /-- DR was read since OVR was set; the next read of SR then clears OVR. -/
  drRead : Bool
  rx : Nat → Byte
  arrived_le : arrived ≤ sent.length
  buffer_lt : ∀ n ∈ buffer, n < arrived

namespace SpiState

/-- After a reset. -/
def initial : SpiState where
  sent := []
  arrived := 0
  buffer := none
  ovr := false
  drRead := false
  rx := fun _ => 0
  arrived_le := Nat.le_refl 0
  buffer_lt := by simp

/-- The next byte arrives; it is lost when the last one is still unread. -/
def arrive (s : SpiState) (h : s.arrived < s.sent.length) : SpiState :=
  { s with
    arrived := s.arrived + 1
    buffer := some (s.buffer.getD s.arrived)
    ovr := s.ovr || s.buffer.isSome
    drRead := s.drRead && s.buffer.isNone
    arrived_le := h
    buffer_lt := by
      intro n hn
      obtain rfl : s.buffer.getD s.arrived = n := by simpa using hn
      cases hbuffer : s.buffer with
      | none => simp
      | some n =>
          have hlt := s.buffer_lt n (by simp [hbuffer])
          simp
          omega }

def afterSr (s : SpiState) : SpiState :=
  { s with ovr := s.ovr && !s.drRead, drRead := false }

def afterDr (s : SpiState) : SpiState :=
  { s with buffer := none, drRead := true, buffer_lt := by simp }

def write (s : SpiState) (v : Word) : SpiState :=
  { s with
    sent := s.sent ++ [v]
    arrived_le := by
      rw [List.length_append]
      exact Nat.le_add_right_of_le s.arrived_le }

def store (s : SpiState) (index : Nat) (v : Word) : SpiState :=
  { s with rx := Function.update s.rx index (v.truncate 8) }

/-- SR reads as `v`; the flags other than RXNE and OVR are free. -/
def ShowsSr (s : SpiState) (v : Word) : Prop :=
  (v &&& spiSrRxne ≠ 0 ↔ s.buffer.isSome = true) ∧ (v &&& spiSrOvr ≠ 0 ↔ s.ovr = true)

/-- DR reads as `v`, when the `n`th write is exchanged for the byte `answers n`. -/
def ShowsDr (answers : Nat → Byte) (s : SpiState) (v : Word) : Prop :=
  ∀ n, s.buffer = some n → v = (answers n).zeroExtend 32

end SpiState

/-- What an access does. A mode fault may clear SPE at any time, so CR1 reads as anything. -/
def spiEffect (answers : Nat → Byte) (s : SpiState) : SpiAccess → SpiState → Prop
  | .read .sr v, s' => s.ShowsSr v ∧ s' = s.afterSr
  | .read .dr v, s' => s.ShowsDr answers v ∧ s' = s.afterDr
  | .store .assign .dr v, s' => s' = s.write v
  | .store .assign (.rx index) v, s' => s' = s.store index v
  | _, s' => s' = s

def spi (answers : Nat → Byte) : Device Location Word SpiState where
  hardware s s' := ∃ h, s' = s.arrive h
  effect := spiEffect answers

end Peripheral

section Calls

/-- `tx` gives the byte that each turn of the loop reads. Where it overlaps the receive buffer, that
is the byte which the turns before have left there. -/
structure SpiCall where
  tx : Option (Nat → Byte)
  hasRx : Bool
  length : Word
  timeout : Word

def SpiCall.program (call : SpiCall) (instancePtr : Instance) : SpiProgram Int :=
  spiTransfer instancePtr call.tx call.hasRx call.length call.timeout

/-- A call that has returned. -/
structure Exchange where
  call : SpiCall
  result : Int
  /-- The number of DR writes before the call. -/
  first : Nat
  /-- The DR writes of the call. -/
  wrote : List Word
  /-- The receive buffer when the call returned. -/
  rx : Nat → Byte

/-- One call, with a receive buffer of its own, while bytes arrive whenever they like. -/
def CallStep (answers : Nat → Byte) (instancePtr : Instance) (s : SpiState) (x : Exchange)
    (s' : SpiState) : Prop :=
  x.first = s.sent.length ∧ x.wrote = s'.sent.drop s.sent.length ∧ x.rx = s'.rx ∧
    ∃ rx events, Run (Moves (spi answers)) (x.call.program instancePtr, { s with rx := rx })
      events (.done x.result, s')

/-- The values that `length` bytes of `tx` are written as. -/
def txBytes (tx : Option (Nat → Byte)) (length : Nat) : List Word :=
  (List.range length).map (txByte tx)

/-- A call that returned 0 wrote its bytes, and received what they were exchanged for. -/
def Exchange.Paired (answers : Nat → Byte) (x : Exchange) : Prop :=
  x.result = 0 →
    x.wrote = txBytes x.call.tx x.call.length.toNat ∧
      (x.call.hasRx = true → ∀ i < x.call.length.toNat, x.rx i = answers (x.first + i))

/-- Nothing is unread and nothing is on its way. -/
def SpiState.Clean (s : SpiState) : Prop :=
  s.arrived = s.sent.length ∧ s.buffer = none

/-- The state in which the call is made: nothing an earlier call left behind can be taken for
one of its bytes. -/
def Ready (instancePtr : Instance) (call : SpiCall) (s : SpiState) : Prop :=
  spiIsSupported instancePtr = false ∨ call.timeout = 0 ∨ call.length = 0 ∨
    call.hasRx = false ∨ s.ovr = true ∨ s.Clean

end Calls

end Stm32f411.SpiTransfer
