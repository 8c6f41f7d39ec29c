import Stm32f411.I2cTransfer

/-!
What the bus protocol asks about the accesses of a transfer, and the polls of the driver, which
do not change it.
-/

namespace Stm32f411.I2cSummaries

open Stm32f411.RegisterPrograms
open Stm32f411.RtosTypes
open Stm32f411.I2cTransfer

/-- What the accesses so far amount to on the bus and in the buffer. -/
structure Summary where
  started : Bool
  /-- A STOP was requested after the last START. -/
  stopped : Bool
  /-- ACK was cleared and not set again. -/
  ackCleared : Bool
  reads : List Word
  stored : List (Word × Nat)
  writes : List Word

def Summary.start : Summary := ⟨false, false, false, [], [], []⟩

def Summary.note (m : Summary) : I2cAccess → Summary
  | .read .dr v => { m with reads := m.reads ++ [v] }
  | .store .assign .dr v => { m with writes := m.writes ++ [v] }
  | .store .assign (.data index) v => { m with stored := m.stored ++ [(v, index)] }
  | .store .set .cr1 mask =>
      { m with
        started := m.started || decide (mask &&& i2cCr1Start ≠ 0)
        stopped := (m.stopped || decide (mask &&& i2cCr1Stop ≠ 0)) &&
          decide (mask &&& i2cCr1Start = 0)
        ackCleared := m.ackCleared && decide (mask &&& i2cCr1Ack = 0) }
  | .store .clear .cr1 mask =>
      { m with ackCleared := m.ackCleared || decide (mask &&& i2cCr1Ack ≠ 0) }
  | _ => m

/-- The summary after some accesses. -/
def Summary.after (m : Summary) (trace : List I2cAccess) : Summary :=
  trace.foldl Summary.note m

/-- The bytes read from DR are stored in order. -/
def Summary.InOrder (m : Summary) : Prop :=
  m.stored = (m.reads.map (· &&& 0xFF)).zipIdx

section Summaries

variable {m : Summary}

@[simp] theorem after_nil : m.after [] = m := rfl

@[simp] theorem after_cons (access : I2cAccess) (trace : List I2cAccess) :
    m.after (access :: trace) = (m.note access).after trace := rfl

theorem after_append (before later : List I2cAccess) :
    m.after (before ++ later) = (m.after before).after later :=
  List.foldl_append

@[simp] theorem note_start : m.note (.store .set .cr1 i2cCr1Start) =
    { m with started := true, stopped := false } := by
  simp [Summary.note, i2cCr1Start, i2cCr1Stop, i2cCr1Ack]

@[simp] theorem note_stop : m.note (.store .set .cr1 i2cCr1Stop) =
    { m with stopped := true } := by
  simp [Summary.note, i2cCr1Start, i2cCr1Stop, i2cCr1Ack]

@[simp] theorem note_setAck : m.note (.store .set .cr1 i2cCr1Ack) =
    { m with ackCleared := false } := by
  simp [Summary.note, i2cCr1Start, i2cCr1Stop, i2cCr1Ack]

@[simp] theorem note_setPos : m.note (.store .set .cr1 i2cCr1Pos) = m := by
  simp [Summary.note, i2cCr1Start, i2cCr1Stop, i2cCr1Ack, i2cCr1Pos]

@[simp] theorem note_clearAck : m.note (.store .clear .cr1 i2cCr1Ack) =
    { m with ackCleared := true } := by
  simp [Summary.note, i2cCr1Ack]

@[simp] theorem note_clearPos : m.note (.store .clear .cr1 i2cCr1Pos) = m := by
  simp [Summary.note, i2cCr1Ack, i2cCr1Pos]

@[simp] theorem note_clearBoth : m.note (.store .clear .cr1 (i2cCr1Ack ||| i2cCr1Pos)) =
    { m with ackCleared := true } := by
  simp [Summary.note, i2cCr1Ack, i2cCr1Pos]

@[simp] theorem note_readSr1 (v : Word) : m.note (.read .sr1 v) = m := rfl

@[simp] theorem note_readSr2 (v : Word) : m.note (.read .sr2 v) = m := rfl

@[simp] theorem note_readDr (v : Word) :
    m.note (.read .dr v) = { m with reads := m.reads ++ [v] } := rfl

@[simp] theorem note_writeDr (v : Word) :
    m.note (.store .assign .dr v) = { m with writes := m.writes ++ [v] } := rfl

@[simp] theorem note_storeData (index : Nat) (v : Word) :
    m.note (.store .assign (.data index) v) =
      { m with stored := m.stored ++ [(v, index)] } := rfl

/-- One more byte, stored where the number of bytes read says. -/
theorem Summary.InOrder.next (h : m.InOrder) (v : Word) :
    ({ m with
      reads := m.reads ++ [v]
      stored := m.stored ++ [(v &&& 0xFF, m.reads.length)] } : Summary).InOrder := by
  rw [Summary.InOrder] at h ⊢
  simp [h, List.zipIdx_append]

end Summaries

section Polls

/-- The accesses of the waits for a flag of SR1. -/
def PollsSr1 : I2cAccess → Prop
  | .read .sr1 _ => True
  | .store .clear .sr1 _ => True
  | _ => False

/-- The accesses that the summary passes over. -/
def Polls : I2cAccess → Prop
  | .read .cr1 _ => True
  | .read .sr2 _ => True
  | access => PollsSr1 access

def Silent (trace : List I2cAccess) : Prop :=
  ∀ access ∈ trace, Polls access

def NoSr2 (trace : List I2cAccess) : Prop :=
  ∀ v, .read .sr2 v ∉ trace

theorem note_polls {m : Summary} {access : I2cAccess} (h : Polls access) :
    m.note access = m := by
  cases access with
  | read r v => cases r <;> first | rfl | exact h.elim
  | store how r v => cases how <;> cases r <;> first | rfl | exact h.elim

theorem Silent.after {trace : List I2cAccess} (h : Silent trace) (m : Summary) :
    m.after trace = m := by
  induction trace with
  | nil => rfl
  | cons access trace ih =>
      rw [after_cons, note_polls (h access List.mem_cons_self)]
      exact ih fun a ha => h a (List.mem_cons_of_mem access ha)

theorem polls_of_sr1 {access : I2cAccess} (h : PollsSr1 access) : Polls access := by
  cases access with
  | read r v => cases r <;> trivial
  | store how r v => exact h

theorem checkError_only : Only PollsSr1 i2cCheckError := by
  refine fun sr1 => ⟨trivial, ?_⟩
  exact only_ite (fun _ => trivial) fun _ => ⟨trivial, trivial⟩

theorem waitSr1_only (flag : Word) (timeout : Nat) :
    Only PollsSr1 (i2cWaitSr1 flag timeout) := by
  induction timeout with
  | zero =>
      rw [i2cWaitSr1]
      refine fun sr1 => ⟨trivial, only_ite (fun _ => ?_) fun _ => checkError_only⟩
      exact only_bind checkError_only fun _ => only_ite (fun _ => trivial) fun _ => trivial
  | succ timeout ih =>
      rw [i2cWaitSr1]
      refine fun sr1 => ⟨trivial, only_ite (fun _ => ?_) fun _ => checkError_only⟩
      exact only_bind checkError_only fun _ => only_ite (fun _ => trivial) fun _ => ih

theorem waitBusIdle_only (timeout : Nat) : Only Polls (i2cWaitBusIdle timeout) := by
  have hcheck : Only Polls i2cCheckError := checkError_only.mono fun _ => polls_of_sr1
  induction timeout with
  | zero =>
      rw [i2cWaitBusIdle]
      refine fun sr2 => ⟨trivial, only_ite (fun _ => ?_) fun _ => trivial⟩
      exact only_bind hcheck fun _ => only_ite (fun _ => trivial) fun _ => trivial
  | succ timeout ih =>
      rw [i2cWaitBusIdle]
      refine fun sr2 => ⟨trivial, only_ite (fun _ => ?_) fun _ => trivial⟩
      exact only_bind hcheck fun _ => only_ite (fun _ => trivial) fun _ => ih

theorem validate_only (instancePtr : Instance) (address : BitVec 16) (hasData : Bool)
    (length timeout zeroAllowed : Word) : Only Polls
      (i2cValidateTransfer instancePtr address hasData length timeout zeroAllowed) :=
  only_ite (fun _ => trivial) fun _ _ =>
    ⟨trivial, only_ite (fun _ => trivial) fun _ => trivial⟩

theorem waitSr1_ends {flag : Word} {timeout : Nat} {trace : List I2cAccess} {status : Int}
    (h : Ends (i2cWaitSr1 flag timeout) trace status) : Silent trace ∧ NoSr2 trace := by
  have honly := (waitSr1_only flag timeout).ends h
  exact ⟨fun access ha => polls_of_sr1 (honly access ha), fun v hv => honly _ hv⟩

theorem NoSr2.append {before later : List I2cAccess} (hbefore : NoSr2 before)
    (hlater : NoSr2 later) : NoSr2 (before ++ later) := by
  intro v hv
  rcases List.mem_append.mp hv with h | h
  · exact hbefore v h
  · exact hlater v h

end Polls

end Stm32f411.I2cSummaries
