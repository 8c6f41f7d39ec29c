import Mathlib.Data.Nat.Find
import Stm32f411.UsartReceive

/-!
`usart_transmit`, `usart_write_byte` and `usart_puts` of `stm32f411_usart.c`, and what the
calls of the driver write to the data register.
-/

namespace Stm32f411.UsartTransmit

open Stm32f411.RegisterPrograms
open Stm32f411.RtosTypes
open Stm32f411.UsartReceive

def usartSrTc : Word := 0x40
def usartSrTxe : Word := 0x80

/-- The wait for TXE or TC, given up as in `waitRxne`. -/
def waitFlag (flag timeout : Word) : Nat → Word → UsartProgram (Option Int)
  | 0, _ => pure none
  | polls + 1, count => do
      let sr ← readReg .sr
      if sr &&& flag ≠ 0 then pure (some 0)
      else if timeout ≠ 0 then
        if count - 1 = 0 then pure (some (-2)) else waitFlag flag timeout polls (count - 1)
      else waitFlag flag timeout polls count

/-- The loop over the bytes from `index` on, and the wait for the end of the last one. -/
def transmitFrom (timeout : Word) (polls : Nat) (data : Nat → Byte) (index : Nat) :
    Nat → UsartProgram (Option Int)
  | 0 => waitFlag usartSrTc timeout polls timeout
  | remaining + 1 => do
      let outcome ← waitFlag usartSrTxe timeout polls timeout
      if outcome = some 0 then
        assignReg .dr ((data index).setWidth 32)
        transmitFrom timeout polls data (index + 1) remaining
      else pure outcome

def usartTransmit (polls : Nat) (instancePtr : Option BufferPtr) (data : Option (Nat → Byte))
    (len timeout : Word) : UsartProgram (Option Int) :=
  match instancePtr, data with
  | some _, some data => transmitFrom timeout polls data 0 len.toNat
  | _, _ => pure (some (-1))

def usartWriteByte (polls : Nat) (instancePtr : Option BufferPtr) (byte : Byte)
    (timeout : Word) : UsartProgram (Option Int) :=
  usartTransmit polls instancePtr (some fun _ => byte) 1 timeout

/-- What a `const char *` points to. -/
structure CString where
  char : Nat → Byte
  terminated : ∃ n, char n = 0

def CString.length (str : CString) : Nat := Nat.find str.terminated

/-- The loop over the characters from `index` on, in at most `chars` turns. -/
def putsFrom (timeout : Word) (polls : Nat) (str : Nat → Byte) (index : Nat) :
    Nat → UsartProgram (Option Int)
  | 0 => pure none
  | chars + 1 =>
      if str index ≠ 0 then do
        let outcome ← waitFlag usartSrTxe timeout polls timeout
        if outcome = some 0 then
          assignReg .dr ((str index).setWidth 32)
          putsFrom timeout polls str (index + 1) chars
        else pure outcome
      else waitFlag usartSrTc timeout polls timeout

def usartPuts (polls : Nat) (instancePtr : Option BufferPtr) (str : Option CString)
    (timeout : Word) : UsartProgram (Option Int) :=
  match instancePtr, str with
  -- the loop meets the zero in its last turn
  | some _, some str => putsFrom timeout polls str.char 0 (str.length + 1)
  | _, _ => pure (some (-1))

section Strings

variable {timeout : Word} {polls : Nat}

theorem CString.char_length (str : CString) : str.char str.length = 0 :=
  Nat.find_spec str.terminated

theorem CString.char_ne_zero (str : CString) {n : Nat} (h : n < str.length) :
    str.char n ≠ 0 :=
  Nat.find_min str.terminated h

theorem putsFrom_eq (str : CString) {index chars : Nat} (hindex : index ≤ str.length)
    (hchars : str.length < index + chars) :
    putsFrom timeout polls str.char index chars =
      transmitFrom timeout polls str.char index (str.length - index) := by
  induction chars generalizing index with
  | zero => omega
  | succ chars ih =>
      rcases Nat.eq_or_lt_of_le hindex with rfl | hlt
      · rw [putsFrom, if_neg (not_not.mpr str.char_length), Nat.sub_self, transmitFrom]
      · rw [putsFrom, if_pos (str.char_ne_zero hlt),
          show str.length - index = str.length - (index + 1) + 1 by omega, transmitFrom,
          ih hlt (by omega)]

/-- `usart_puts` is `usart_transmit` of the characters before the zero. -/
theorem usartPuts_eq (p : BufferPtr) (str : CString) :
    usartPuts polls (some p) (some str) timeout =
      transmitFrom timeout polls str.char 0 str.length :=
  putsFrom_eq str (Nat.zero_le _) (by omega)

end Strings

section Calls

inductive UsartCall
  | transmit (polls : Nat) (instancePtr : Option BufferPtr) (data : Option (Nat → Byte))
      (len timeout : Word)
  | writeByte (polls : Nat) (instancePtr : Option BufferPtr) (byte : Byte) (timeout : Word)
  | puts (polls : Nat) (instancePtr : Option BufferPtr) (str : Option CString)
      (timeout : Word)
  | receive (polls : Nat) (instancePtr data : Option BufferPtr) (len timeout : Word)
  | readByte (polls : Nat) (instancePtr byte : Option BufferPtr) (timeout : Word)

namespace UsartCall

def program : UsartCall → UsartProgram (Option Int)
  | transmit polls instancePtr data len timeout =>
      usartTransmit polls instancePtr data len timeout
  | writeByte polls instancePtr byte timeout => usartWriteByte polls instancePtr byte timeout
  | puts polls instancePtr str timeout => usartPuts polls instancePtr str timeout
  | receive polls instancePtr data len timeout =>
      usartReceive polls instancePtr data len timeout
  | readByte polls instancePtr byte timeout => usartReadByte polls instancePtr byte timeout

/-- The `len` bytes from `index` on, as they are written to DR. -/
def words (data : Nat → Byte) (index len : Nat) : List Word :=
  (List.range' index len).map fun i => (data i).setWidth 32

/-- What the call is to send. -/
def bytes : UsartCall → List Word
  | transmit _ _ (some data) len _ => words data 0 len.toNat
  | writeByte _ _ byte _ => words (fun _ => byte) 0 1
  | puts _ _ (some str) _ => words str.char 0 str.length
  | _ => []

def Sends : UsartCall → Prop
  | transmit .. | writeByte .. | puts .. => True
  | receive .. | readByte .. => False

/-- How many bytes the call is to receive. -/
def expects : UsartCall → Nat
  | receive _ _ _ len _ => len.toNat
  | readByte .. => 1
  | _ => 0

end UsartCall

end Calls

section Writes

variable {timeout : Word} {polls : Nat} {data : Nat → Byte} {trace : List UsartAccess}
  {outcome : Option Int}

/-- The word an access writes to DR. -/
def drWrite : UsartAccess → Option Word
  | .store _ .dr v => some v
  | _ => none

theorem words_succ (index len : Nat) :
    UsartCall.words data index (len + 1) =
      (data index).setWidth 32 :: UsartCall.words data (index + 1) len := rfl

theorem words_take {k len : Nat} (h : k ≤ len) (index : Nat) :
    UsartCall.words data index k <+: UsartCall.words data index len := by
  obtain ⟨rest, rfl⟩ := Nat.exists_eq_add_of_le h
  rw [UsartCall.words, UsartCall.words, ← List.range'_append_1, List.map_append]
  exact List.prefix_append _ _

/-- The calls that receive, and the waits, leave DR unwritten. -/
def NoWrite (access : UsartAccess) : Prop := drWrite access = none

theorem no_writes {p : UsartProgram (Option Int)} (hp : Only NoWrite p)
    (h : Ends p trace outcome) : trace.filterMap drWrite = [] :=
  List.filterMap_eq_nil_iff.mpr (hp.ends h)

theorem waitFlag_only (flag : Word) (count : Word) :
    Only NoWrite (waitFlag flag timeout polls count) := by
  induction polls generalizing count with
  | zero => trivial
  | succ polls ih =>
      refine fun v => ⟨rfl, ?_⟩
      refine only_ite (fun _ => trivial) fun _ => only_ite (fun _ => ?_) fun _ => ih count
      exact only_ite (fun _ => trivial) fun _ => ih _

theorem waitRxne_only (count : Word) : Only NoWrite (waitRxne timeout polls count) := by
  induction polls generalizing count with
  | zero => trivial
  | succ polls ih =>
      refine fun v => ⟨rfl, only_ite (fun _ => trivial) fun _ w => ⟨rfl, ?_⟩⟩
      refine only_ite (fun _ _ => ⟨rfl, trivial⟩) fun _ => ?_
      exact only_ite (fun _ => only_ite (fun _ => trivial) fun _ => ih _) fun _ => ih count

theorem receiveFrom_only (index remaining : Nat) :
    Only NoWrite (receiveFrom timeout polls index remaining) := by
  induction remaining generalizing index with
  | zero => trivial
  | succ remaining ih =>
      refine only_bind (waitRxne_only timeout) fun outcome => ?_
      refine only_ite (fun _ => ?_) fun _ => trivial
      exact fun v => ⟨rfl, rfl, ih (index + 1)⟩

/-- A call writes its bytes in order, and all of them if it returns 0. -/
theorem transmitFrom_writes {index remaining : Nat}
    (h : Ends (transmitFrom timeout polls data index remaining) trace outcome) :
    ∃ k ≤ remaining, trace.filterMap drWrite = UsartCall.words data index k ∧
      (outcome = some 0 → k = remaining) := by
  induction remaining generalizing index trace with
  | zero => exact ⟨0, Nat.le_refl 0, no_writes (waitFlag_only _ _) h, fun _ => rfl⟩
  | succ remaining ih =>
      rw [transmitFrom, ends_bind] at h
      obtain ⟨waited, ended, after, rfl, hwait, hafter⟩ := h
      rw [List.filterMap_append, no_writes (waitFlag_only _ _) hwait, List.nil_append]
      split at hafter
      · rw [ends_assignReg_bind] at hafter
        obtain ⟨rest, rfl, hrest⟩ := hafter
        obtain ⟨k, hk, hwrites, hall⟩ := ih hrest
        refine ⟨k + 1, by omega, ?_, fun hzero => by rw [hall hzero]⟩
        rw [words_succ, ← hwrites]
        rfl
      · next hfailed =>
          obtain ⟨rfl, rfl⟩ := ends_done.mp hafter
          exact ⟨0, Nat.zero_le _, rfl, fun hzero => absurd hzero hfailed⟩

/-- What a finished call has written, of what it was to send. -/
def SentOf (bytes written : List Word) (outcome : Option Int) : Prop :=
  written <+: bytes ∧ (outcome = some 0 → written = bytes)

theorem sentOf_transmit {index remaining : Nat}
    (h : Ends (transmitFrom timeout polls data index remaining) trace outcome) :
    SentOf (UsartCall.words data index remaining) (trace.filterMap drWrite) outcome := by
  obtain ⟨k, hk, hwrites, hall⟩ := transmitFrom_writes h
  rw [SentOf, hwrites]
  exact ⟨words_take hk index, fun hzero => by rw [hall hzero]⟩

theorem sentOf_refused {bytes : List Word} :
    SentOf bytes (([] : List UsartAccess).filterMap drWrite) (some (-1)) :=
  ⟨List.nil_prefix, fun h => absurd h (by decide)⟩

theorem call_writes (call : UsartCall) (h : Ends call.program trace outcome) :
    SentOf call.bytes (trace.filterMap drWrite) outcome := by
  have hrefused : ∀ {bytes : List Word},
      Ends (pure (some (-1)) : UsartProgram (Option Int)) trace outcome →
        SentOf bytes (trace.filterMap drWrite) outcome := by
    intro bytes h
    obtain ⟨rfl, rfl⟩ := ends_done.mp h
    exact sentOf_refused
  have hsilent : Only NoWrite call.program → call.bytes = [] →
      SentOf call.bytes (trace.filterMap drWrite) outcome := by
    intro honly hbytes
    rw [no_writes honly h, hbytes]
    exact ⟨List.prefix_rfl, fun _ => rfl⟩
  cases call with
  | transmit polls instancePtr data len timeout =>
      cases instancePtr with
      | none => exact hrefused h
      | some p =>
          cases data with
          | none => exact hrefused h
          | some data => exact sentOf_transmit h
  | writeByte polls instancePtr byte timeout =>
      cases instancePtr with
      | none => exact hrefused h
      | some p => exact sentOf_transmit h
  | puts polls instancePtr str timeout =>
      cases instancePtr with
      | none => exact hrefused h
      | some p =>
          cases str with
          | none => exact hrefused h
          | some str =>
              rw [UsartCall.program, usartPuts_eq] at h
              exact sentOf_transmit h
  | receive polls instancePtr data len timeout =>
      exact hsilent (only_ite (fun _ => trivial) fun _ => receiveFrom_only _ _) rfl
  | readByte polls instancePtr byte timeout =>
      refine hsilent (only_ite (fun _ => trivial) fun _ => ?_) rfl
      exact only_ite (fun _ => trivial) fun _ => receiveFrom_only _ _

end Writes

end Stm32f411.UsartTransmit
