import Stm32f411.RegisterPrograms
import Stm32f411.RtosTypes

/-!
The polling transfers of `stm32f411_i2c.c`. Status values are whatever the hardware
returns; a summary of the accesses so far keeps what the bus protocol asks about.
-/

namespace Stm32f411.I2cTransfer

open Stm32f411.RegisterPrograms
open Stm32f411.RtosTypes

/-- The registers of the instance, and the bytes of the caller's receive buffer. -/
inductive Location
  | cr1 | sr1 | sr2 | dr
  | data (index : Nat)
  deriving DecidableEq

abbrev I2cProgram := Program Location Word
abbrev I2cAccess := Access Location Word

/-- The pointers a caller can pass as an instance. -/
inductive Instance
  | i2c1 | i2c2 | i2c3 | other
  deriving DecidableEq

section Constants

def i2cCr1Pe : Word := 0x1
def i2cCr1Start : Word := 0x100
def i2cCr1Stop : Word := 0x200
def i2cCr1Ack : Word := 0x400
def i2cCr1Pos : Word := 0x800
def i2cSr1Sb : Word := 0x1
def i2cSr1Addr : Word := 0x2
def i2cSr1Btf : Word := 0x4
def i2cSr1Rxne : Word := 0x40
def i2cSr1Txe : Word := 0x80
def i2cSr1Berr : Word := 0x100
def i2cSr1Arlo : Word := 0x200
def i2cSr1Af : Word := 0x400
def i2cSr1Ovr : Word := 0x800
def i2cSr1Timeout : Word := 0x4000
def i2cSr2Busy : Word := 0x2

def i2cErrorFlags : Word :=
  i2cSr1Berr ||| i2cSr1Arlo ||| i2cSr1Af ||| i2cSr1Ovr ||| i2cSr1Timeout

def i2cErrorInvalidParam : Int := -1
def i2cErrorTimeout : Int := -2
def i2cErrorBusy : Int := -4
def i2cErrorNack : Int := -5
def i2cErrorBus : Int := -6

end Constants

section Helpers

def i2cIsSupported (instancePtr : Instance) : Bool :=
  decide (instancePtr ≠ .other)

def i2cCheckError : I2cProgram Int := do
  let sr1 ← readReg .sr1
  let errors := sr1 &&& i2cErrorFlags
  if errors = 0 then pure 0
  else
    clearBits .sr1 errors
    pure (if errors &&& i2cSr1Af ≠ 0 then i2cErrorNack else i2cErrorBus)

def i2cWaitSr1 (flag : Word) (timeout : Nat) : I2cProgram Int := do
  let sr1 ← readReg .sr1
  if sr1 &&& flag = 0 then
    let status ← i2cCheckError
    if status ≠ 0 then pure status
    else
      match timeout with
      | 0 => pure i2cErrorTimeout
      | timeout + 1 => i2cWaitSr1 flag timeout
  else i2cCheckError

def i2cWaitBusIdle (timeout : Nat) : I2cProgram Int := do
  let sr2 ← readReg .sr2
  if sr2 &&& i2cSr2Busy ≠ 0 then
    let status ← i2cCheckError
    if status ≠ 0 then pure status
    else
      match timeout with
      | 0 => pure i2cErrorBusy
      | timeout + 1 => i2cWaitBusIdle timeout
  else pure 0

def i2cClearAddr : I2cProgram Unit := do
  let _ ← readReg .sr1
  let _ ← readReg .sr2

def i2cStart (timeout : Nat) : I2cProgram Int := do
  setBits .cr1 i2cCr1Start
  i2cWaitSr1 i2cSr1Sb timeout

def i2cSendAddress (address : BitVec 16) (read : Word) (timeout : Nat) : I2cProgram Int := do
  assignReg .dr (address.zeroExtend 32 <<< 1 ||| (read &&& 1))
  i2cWaitSr1 i2cSr1Addr timeout

def i2cStop : I2cProgram Unit :=
  setBits .cr1 i2cCr1Stop

def i2cValidateTransfer (instancePtr : Instance) (address : BitVec 16) (hasData : Bool)
    (length timeout zeroAllowed : Word) : I2cProgram Int := do
  if i2cIsSupported instancePtr = false ∨ address < 0x08 ∨ 0x77 < address ∨ timeout = 0 ∨
      (hasData = false ∧ (length ≠ 0 ∨ zeroAllowed = 0)) then
    pure i2cErrorInvalidParam
  else
    let cr1 ← readReg .cr1
    if cr1 &&& i2cCr1Pe = 0 then pure i2cErrorBusy else pure 0

/-- A step of a chain `if (status == 0) { status = ... }`. -/
def andThen (status : Int) (next : I2cProgram Int) : I2cProgram Int :=
  if status = 0 then next else pure status

/-- `data[index] = (uint8_t)instance->DR`. -/
def i2cReadByte (index : Nat) : I2cProgram Unit := do
  let value ← readReg .dr
  assignReg (.data index) (value &&& 0xFF)

end Helpers

section Receive

/-- The loop `while ((length - index) > 3U)`, with `remaining` turns to go; it returns the
status with which the function is left early. -/
def i2cReceiveLoop (timeout : Nat) : Nat → Nat → I2cProgram (Option Int)
  | 0, _ => pure none
  | remaining + 1, index => do
      let status ← i2cWaitSr1 i2cSr1Rxne timeout
      if status ≠ 0 then
        i2cStop
        pure (some status)
      else
        i2cReadByte index
        i2cReceiveLoop timeout remaining (index + 1)

/-- What all three procedures do last. -/
def i2cReceiveEnd (status : Int) : I2cProgram Int := do
  clearBits .cr1 (i2cCr1Ack ||| i2cCr1Pos)
  if status ≠ 0 then
    i2cStop
    pure status
  else pure status

def i2cReceiveOne (timeout : Nat) : I2cProgram Int := do
  clearBits .cr1 (i2cCr1Ack ||| i2cCr1Pos)
  i2cClearAddr
  i2cStop
  let status ← i2cWaitSr1 i2cSr1Rxne timeout
  if status = 0 then
    i2cReadByte 0
    i2cReceiveEnd status
  else i2cReceiveEnd status

def i2cReceiveTwo (timeout : Nat) : I2cProgram Int := do
  setBits .cr1 i2cCr1Pos
  clearBits .cr1 i2cCr1Ack
  i2cClearAddr
  let status ← i2cWaitSr1 i2cSr1Btf timeout
  if status = 0 then
    i2cStop
    i2cReadByte 0
    i2cReadByte 1
    i2cReceiveEnd status
  else i2cReceiveEnd status

/-- The last three bytes, from `index` on. -/
def i2cReceiveTail (index timeout : Nat) : I2cProgram Int := do
  let status ← i2cWaitSr1 i2cSr1Btf timeout
  if status = 0 then
    clearBits .cr1 i2cCr1Ack
    i2cReadByte index
    let status ← i2cWaitSr1 i2cSr1Btf timeout
    if status = 0 then
      i2cStop
      i2cReadByte (index + 1)
      i2cReadByte (index + 2)
      i2cReceiveEnd status
    else i2cReceiveEnd status
  else i2cReceiveEnd status

def i2cReceiveMany (length timeout : Nat) : I2cProgram Int := do
  clearBits .cr1 i2cCr1Pos
  setBits .cr1 i2cCr1Ack
  i2cClearAddr
  match ← i2cReceiveLoop timeout (length - 3) 0 with
  | some status => pure status
  | none => i2cReceiveTail (length - 3) timeout

def i2cReceiveAfterAddress (length timeout : Nat) : I2cProgram Int :=
  if length = 1 then i2cReceiveOne timeout
  else if length = 2 then i2cReceiveTwo timeout
  else i2cReceiveMany length timeout

def i2cMasterReceive (instancePtr : Instance) (address : BitVec 16) (hasData : Bool)
    (length timeout : Word) : I2cProgram Int := do
  let status ← i2cValidateTransfer instancePtr address hasData length timeout 0
  if status ≠ 0 ∨ length = 0 then
    pure (if status ≠ 0 then status else i2cErrorInvalidParam)
  else
    let status ← i2cWaitBusIdle timeout.toNat
    if status ≠ 0 then pure status
    else
      let status ← i2cStart timeout.toNat
      let status ← andThen status (i2cSendAddress address 1 timeout.toNat)
      if status ≠ 0 then
        i2cStop
        pure status
      else i2cReceiveAfterAddress length.toNat timeout.toNat

def i2cMemRead (instancePtr : Instance) (address : BitVec 16) (registerAddress : Byte)
    (hasData : Bool) (length timeout : Word) : I2cProgram Int := do
  let status ← i2cValidateTransfer instancePtr address hasData length timeout 0
  if status ≠ 0 ∨ length = 0 then
    pure (if status ≠ 0 then status else i2cErrorInvalidParam)
  else
    let status ← i2cWaitBusIdle timeout.toNat
    if status ≠ 0 then pure status
    else
      clearBits .cr1 i2cCr1Pos
      setBits .cr1 i2cCr1Ack
      let status ← i2cStart timeout.toNat
      let status ← andThen status (i2cSendAddress address 0 timeout.toNat)
      let status ← andThen status do
        i2cClearAddr
        i2cWaitSr1 i2cSr1Txe timeout.toNat
      let status ← andThen status do
        assignReg .dr (registerAddress.zeroExtend 32)
        i2cWaitSr1 i2cSr1Btf timeout.toNat
      let status ← andThen status (i2cStart timeout.toNat)
      let status ← andThen status (i2cSendAddress address 1 timeout.toNat)
      if status ≠ 0 then
        i2cStop
        pure status
      else i2cReceiveAfterAddress length.toNat timeout.toNat

end Receive

section Transmit

/-- The loop over the bytes of `data` from `index` on, and the status it leaves. -/
def i2cTransmitLoop (data : Nat → Byte) (timeout : Nat) : Nat → Nat → I2cProgram Int
  | 0, _ => pure 0
  | remaining + 1, index => do
      let status ← i2cWaitSr1 i2cSr1Txe timeout
      if status ≠ 0 then pure status
      else
        assignReg .dr ((data index).zeroExtend 32)
        i2cTransmitLoop data timeout remaining (index + 1)

def i2cMasterTransmit (instancePtr : Instance) (address : BitVec 16) (data : Option (Nat → Byte))
    (length timeout : Word) : I2cProgram Int := do
  let status ← i2cValidateTransfer instancePtr address data.isSome length timeout 1
  if status ≠ 0 then pure status
  else
    let status ← i2cWaitBusIdle timeout.toNat
    if status ≠ 0 then pure status
    else
      clearBits .cr1 i2cCr1Pos
      setBits .cr1 i2cCr1Ack
      let status ← i2cStart timeout.toNat
      let status ← andThen status (i2cSendAddress address 0 timeout.toNat)
      let status ← andThen status do
        i2cClearAddr
        if length ≠ 0 then
          let status ← i2cTransmitLoop (data.getD fun _ => 0) timeout.toNat length.toNat 0
          andThen status (i2cWaitSr1 i2cSr1Btf timeout.toNat)
        else pure status
      i2cStop
      pure status

end Transmit

end Stm32f411.I2cTransfer
