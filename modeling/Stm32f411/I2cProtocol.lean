import Stm32f411.I2cReceiving

/-!
What the I2C transfers do on the bus, on every exit: a START is followed by a STOP, bytes
go from DR to the buffer in order, and a receive clears ACK and requests its STOP in time.
-/

namespace Stm32f411.I2cProtocol

open Stm32f411.RegisterPrograms
open Stm32f411.RtosTypes
open Stm32f411.I2cTransfer
open Stm32f411.I2cSummaries
open Stm32f411.I2cReceiving

section Addressing

/-- The accesses before the first byte is received. -/
def Quiet : I2cAccess → Prop
  | .read .dr _ => False
  | .store _ (.data _) _ => False
  | _ => True

theorem quiet_of_polls {access : I2cAccess} (h : Polls access) : Quiet access := by
  cases access with
  | read r v => cases r <;> trivial
  | store how r v => cases how <;> cases r <;> trivial

theorem note_quiet {m : Summary} {access : I2cAccess} (h : Quiet access) :
    (m.note access).reads = m.reads ∧ (m.note access).stored = m.stored := by
  cases access with
  | read r v => cases r <;> first | exact ⟨rfl, rfl⟩ | exact h.elim
  | store how r v => cases how <;> cases r <;> first | exact ⟨rfl, rfl⟩ | exact h.elim

theorem after_quiet {m : Summary} {trace : List I2cAccess} (h : ∀ a ∈ trace, Quiet a) :
    (m.after trace).reads = m.reads ∧ (m.after trace).stored = m.stored := by
  induction trace generalizing m with
  | nil => exact ⟨rfl, rfl⟩
  | cons access trace ih =>
      obtain ⟨hreads, hstored⟩ := note_quiet (m := m) (h access List.mem_cons_self)
      rw [after_cons, ← hreads, ← hstored]
      exact ih fun a ha => h a (List.mem_cons_of_mem access ha)

theorem handshake_quiet {length : Nat} {m : Summary} {trace : List I2cAccess}
    (h : ∀ a ∈ trace, Quiet a) : Handshake length m trace := by
  induction trace generalizing m with
  | nil => trivial
  | cons access trace ih =>
      refine ⟨?_, ih fun a ha => h a (List.mem_cons_of_mem access ha)⟩
      rintro v rfl
      exact (h _ List.mem_cons_self).elim

theorem waitSr1_quiet (flag : Word) (timeout : Nat) : Only Quiet (i2cWaitSr1 flag timeout) :=
  (waitSr1_only flag timeout).mono fun _ h => quiet_of_polls (polls_of_sr1 h)

theorem start_quiet (timeout : Nat) : Only Quiet (i2cStart timeout) :=
  ⟨trivial, waitSr1_quiet _ timeout⟩

theorem sendAddress_quiet (address : BitVec 16) (read : Word) (timeout : Nat) :
    Only Quiet (i2cSendAddress address read timeout) :=
  ⟨trivial, waitSr1_quiet _ timeout⟩

theorem andThen_only {P : I2cAccess → Prop} {status : Int} {next : I2cProgram Int}
    (h : Only P next) : Only P (andThen status next) :=
  only_ite (fun _ => h) fun _ => trivial

/-- On the bus: a STOP follows the last START. -/
def Released (trace : List I2cAccess) : Prop :=
  (Summary.start.after trace).started = true → (Summary.start.after trace).stopped = true

/-- What a receive of `length` bytes has done when it returns `status`. -/
structure ReceiveProtocol (length : Nat) (trace : List I2cAccess) (status : Int) : Prop where
  released : Released trace
  /-- Only `data[0]`, `data[1]`, .. are written, with the values read, in order. -/
  inOrder : (Summary.start.after trace).InOrder
  bounded : (Summary.start.after trace).reads.length ≤ length
  complete : status = 0 → (Summary.start.after trace).reads.length = length
  timely : ∀ before v later, trace = before ++ .read .dr v :: later →
    Timely length (Summary.start.after before)
  /-- The last read of SR2 is the one that clears ADDR. -/
  addressed : status = 0 → length = 1 ∨ length = 2 →
    ∃ before v later, trace = before ++ .read .sr2 v :: later ∧ NoSr2 later ∧
      (Summary.start.after before).ackCleared = true

/-- After accesses that satisfy `P`, the program completes a receive of `length` bytes. -/
def Completes (P : I2cAccess → Prop) (length : Nat) (p : I2cProgram Int) : Prop :=
  ∀ before later status, (∀ access ∈ before, P access) → Ends p later status →
    ReceiveProtocol length (before ++ later) status

variable {P : I2cAccess → Prop} {length timeout : Nat}

theorem completes_bind {α : Type} {p : I2cProgram α} {f : α → I2cProgram Int}
    (hp : Only P p) (hf : ∀ a, Completes P length (f a)) : Completes P length (p >>= f) := by
  intro before later status hbefore h
  obtain ⟨first, a, second, rfl, hfirst, hsecond⟩ := ends_bind.mp h
  rw [← List.append_assoc]
  refine hf a (before ++ first) second status ?_ hsecond
  intro access haccess
  rcases List.mem_append.mp haccess with hmem | hmem
  · exact hbefore access hmem
  · exact hp.ends hfirst access hmem

theorem Completes.afterPolls {p : I2cProgram Int} (h : Completes Quiet length p) :
    Completes Polls length p :=
  fun before later status hbefore =>
    h before later status fun access ha => quiet_of_polls (hbefore access ha)

/-- Nothing was read and the function returns an error. -/
theorem protocol_of_quiet {trace : List I2cAccess} {status : Int}
    (hquiet : ∀ access ∈ trace, Quiet access) (hreleased : Released trace)
    (hstatus : status ≠ 0) : ReceiveProtocol length trace status := by
  have hreads : (Summary.start.after trace).reads = [] := (after_quiet hquiet).1
  have hstored : (Summary.start.after trace).stored = [] := (after_quiet hquiet).2
  refine ⟨hreleased, ?_, ?_, fun hzero => absurd hzero hstatus, ?_,
    fun hzero => absurd hzero hstatus⟩
  · simp [Summary.InOrder, hreads, hstored]
  · simp [hreads]
  · rintro before v later rfl
    exact (hquiet (.read .dr v) (by simp)).elim

theorem completes_error {status : Int} (hstatus : status ≠ 0) :
    Completes Polls length (pure status) := by
  intro before later result hbefore h
  obtain ⟨rfl, rfl⟩ := ends_done.mp h
  rw [List.append_nil]
  refine protocol_of_quiet (fun access ha => quiet_of_polls (hbefore access ha)) ?_ hstatus
  intro hstarted
  rw [Silent.after hbefore] at hstarted
  cases hstarted

/-- The end of both receives: a STOP when the slave was not addressed, else the bytes. -/
theorem completes_addressed (hlength : length ≠ 0) (status : Int) :
    Completes Quiet length (if status ≠ 0 then do
        i2cStop
        pure status
      else i2cReceiveAfterAddress length timeout) := by
  intro before later result hbefore h
  split at h
  · next hstatus =>
      rw [i2cStop, ends_setBits_bind] at h
      obtain ⟨rest, rfl, h⟩ := h
      obtain ⟨rfl, rfl⟩ := ends_done.mp h
      refine protocol_of_quiet ?_ ?_ hstatus
      · intro access haccess
        rcases List.mem_append.mp haccess with hmem | hmem
        · exact hbefore access hmem
        · rw [List.mem_singleton.mp hmem]
          trivial
      · intro _
        rw [after_append]
        simp
  · obtain ⟨hreads, hstored⟩ := after_quiet (m := Summary.start) hbefore
    have hreceived : Received length Summary.start (before ++ later) result :=
      .prepend (handshake_quiet hbefore) (receiveAfterAddress_ends hlength hreads hstored h)
    refine ⟨fun _ => hreceived.stopped, hreceived.inOrder, hreceived.bounded,
      hreceived.complete, ?_, ?_⟩
    · intro first v rest hsplit
      exact Handshake.at (hsplit ▸ hreceived.handshake)
    · intro _ hshort
      obtain ⟨first, v, rest, rfl, hsr2, hack⟩ :=
        shortReceive_address hshort h (Summary.start.after before)
      refine ⟨before ++ first, v, rest, by simp, hsr2, ?_⟩
      rw [after_append]
      exact hack

theorem masterReceive_completes (instancePtr : Instance) (address : BitVec 16) (hasData : Bool)
    (length timeout : Word) : Completes Polls length.toNat
      (i2cMasterReceive instancePtr address hasData length timeout) := by
  refine completes_bind (validate_only ..) fun status => ?_
  split
  · refine completes_error ?_
    split
    · assumption
    · decide
  · next hvalid =>
      have hlength : length.toNat ≠ 0 := fun h =>
        hvalid (Or.inr (BitVec.eq_of_toNat_eq (by simpa using h)))
      refine completes_bind (waitBusIdle_only _) fun status => ?_
      split
      · next hbusy => exact completes_error hbusy
      · refine Completes.afterPolls ?_
        refine completes_bind (start_quiet _) fun status => ?_
        refine completes_bind (andThen_only (sendAddress_quiet ..)) fun status => ?_
        exact completes_addressed hlength status

theorem memRead_completes (instancePtr : Instance) (address : BitVec 16)
    (registerAddress : Byte) (hasData : Bool) (length timeout : Word) :
    Completes Polls length.toNat
      (i2cMemRead instancePtr address registerAddress hasData length timeout) := by
  refine completes_bind (validate_only ..) fun status => ?_
  split
  · refine completes_error ?_
    split
    · assumption
    · decide
  · next hvalid =>
      have hlength : length.toNat ≠ 0 := fun h =>
        hvalid (Or.inr (BitVec.eq_of_toNat_eq (by simpa using h)))
      refine completes_bind (waitBusIdle_only _) fun status => ?_
      split
      · next hbusy => exact completes_error hbusy
      · refine Completes.afterPolls ?_
        have hclearAddr : Only Quiet (do i2cClearAddr; i2cWaitSr1 i2cSr1Txe timeout.toNat) :=
          fun v => ⟨trivial, fun w => ⟨trivial, waitSr1_quiet _ _⟩⟩
        have hregister : Only Quiet (do
            assignReg .dr (registerAddress.zeroExtend 32)
            i2cWaitSr1 i2cSr1Btf timeout.toNat) := ⟨trivial, waitSr1_quiet _ _⟩
        refine completes_bind ⟨trivial, trivial⟩ fun _ => ?_
        refine completes_bind ⟨trivial, trivial⟩ fun _ => ?_
        refine completes_bind (start_quiet _) fun status => ?_
        refine completes_bind (andThen_only (sendAddress_quiet ..)) fun status => ?_
        refine completes_bind (andThen_only hclearAddr) fun status => ?_
        refine completes_bind (andThen_only hregister) fun status => ?_
        refine completes_bind (andThen_only (start_quiet _)) fun status => ?_
        refine completes_bind (andThen_only (sendAddress_quiet ..)) fun status => ?_
        exact completes_addressed hlength status

end Addressing

section Transmit

variable {m : Summary} {timeout : Nat} {trace : List I2cAccess} {status : Int}

theorem andThen_ends_zero {next : I2cProgram Int} (h : Ends (andThen status next) trace 0) :
    status = 0 ∧ Ends next trace 0 := by
  unfold andThen at h
  split at h
  · next hzero => exact ⟨hzero, h⟩
  · next hnonzero => exact absurd (ends_done.mp h).2.symm hnonzero

theorem start_writes (h : Ends (i2cStart timeout) trace status) :
    (m.after trace).writes = m.writes := by
  rw [i2cStart, ends_setBits_bind] at h
  obtain ⟨polls, rfl, h⟩ := h
  rw [after_cons, note_start, (waitSr1_ends h).1.after]

theorem sendAddress_writes {address : BitVec 16} {read : Word}
    (h : Ends (i2cSendAddress address read timeout) trace status) :
    (m.after trace).writes = m.writes ++ [address.zeroExtend 32 <<< 1 ||| (read &&& 1)] := by
  rw [i2cSendAddress, ends_assignReg_bind] at h
  obtain ⟨polls, rfl, h⟩ := h
  rw [after_cons, note_writeDr, (waitSr1_ends h).1.after]

/-- `data[index]`, .., of `count` bytes, as DR takes them. -/
def bytesFrom (data : Nat → Byte) (index count : Nat) : List Word :=
  (List.range' index count).map fun i => (data i).zeroExtend 32

theorem transmitLoop_writes {data : Nat → Byte} {remaining index : Nat}
    (h : Ends (i2cTransmitLoop data timeout remaining index) trace 0) :
    (m.after trace).writes = m.writes ++ bytesFrom data index remaining := by
  induction remaining generalizing index m trace with
  | zero =>
      obtain ⟨rfl, _⟩ := ends_done.mp h
      simp [bytesFrom]
  | succ remaining ih =>
      rw [i2cTransmitLoop, ends_bind] at h
      obtain ⟨polls, waited, after, rfl, hwait, h⟩ := h
      rw [after_append, (waitSr1_ends hwait).1.after]
      split at h
      · next hnonzero => exact absurd (ends_done.mp h).2.symm hnonzero
      · rw [ends_assignReg_bind] at h
        obtain ⟨rest, rfl, h⟩ := h
        rw [after_cons, note_writeDr, ih h]
        simp [bytesFrom, List.range'_succ]

/-- What a transmit of `bytes` has done when it returns `status`. -/
structure TransmitProtocol (address : BitVec 16) (bytes : List Word) (trace : List I2cAccess)
    (status : Int) : Prop where
  released : Released trace
  written : status = 0 →
    (Summary.start.after trace).writes = address.zeroExtend 32 <<< 1 :: bytes

theorem transmit_refused {address : BitVec 16} {bytes : List Word}
    (hsilent : Silent trace) (hstatus : status ≠ 0) :
    TransmitProtocol address bytes trace status := by
  refine ⟨fun hstarted => ?_, fun hzero => absurd hzero hstatus⟩
  rw [hsilent.after] at hstarted
  cases hstarted

theorem masterTransmit_protocol {instancePtr : Instance} {address : BitVec 16}
    {data : Option (Nat → Byte)} {length timeout : Word}
    (h : Ends (i2cMasterTransmit instancePtr address data length timeout) trace status) :
    TransmitProtocol address (bytesFrom (data.getD fun _ => 0) 0 length.toNat) trace status := by
  rw [i2cMasterTransmit, ends_bind] at h
  obtain ⟨validation, valid, rest, rfl, hvalid, h⟩ := h
  have hvalidation : Silent validation := (validate_only ..).ends hvalid
  split at h
  · next hnonzero =>
      obtain ⟨rfl, rfl⟩ := ends_done.mp h
      rw [List.append_nil]
      exact transmit_refused hvalidation hnonzero
  rw [ends_bind] at h
  obtain ⟨wait, idle, rest, rfl, hidle, h⟩ := h
  have hwait : Silent wait := (waitBusIdle_only _).ends hidle
  split at h
  · next hnonzero =>
      obtain ⟨rfl, rfl⟩ := ends_done.mp h
      rw [List.append_nil]
      refine transmit_refused (fun access ha => ?_) hnonzero
      exact (List.mem_append.mp ha).elim (hvalidation access) (hwait access)
  rw [ends_clearBits_bind] at h
  obtain ⟨rest, rfl, h⟩ := h
  rw [ends_setBits_bind] at h
  obtain ⟨rest, rfl, h⟩ := h
  rw [ends_bind] at h
  obtain ⟨start, started, rest, rfl, hstart, h⟩ := h
  rw [ends_bind] at h
  obtain ⟨send, addressed, rest, rfl, hsend, h⟩ := h
  rw [ends_bind] at h
  obtain ⟨body, sent, rest, rfl, hbody, h⟩ := h
  rw [i2cStop, ends_setBits_bind] at h
  obtain ⟨rest, rfl, h⟩ := h
  obtain ⟨rfl, rfl⟩ := ends_done.mp h
  constructor
  · intro _
    simp [after_append]
  · rintro rfl
    obtain ⟨rfl, hsent⟩ := andThen_ends_zero hbody
    obtain ⟨rfl, haddressed⟩ := andThen_ends_zero hsend
    rw [clearAddr_ends] at hsent
    obtain ⟨v, w, bytes, rfl, hsent⟩ := hsent
    have hbytes : ∀ m : Summary, (m.after bytes).writes =
        m.writes ++ bytesFrom (data.getD fun _ => 0) 0 length.toNat := by
      intro m
      split at hsent
      · rw [ends_bind] at hsent
        obtain ⟨loop, looped, last, rfl, hloop, hrest⟩ := hsent
        obtain ⟨rfl, hlast⟩ := andThen_ends_zero hrest
        rw [after_append, (waitSr1_ends hlast).1.after]
        exact transmitLoop_writes hloop
      · next hzero =>
          obtain ⟨rfl, _⟩ := ends_done.mp hsent
          simp [not_not.mp hzero, bytesFrom]
    simp [after_append, hvalidation.after, hwait.after, start_writes hstart,
      sendAddress_writes haddressed, hbytes, Summary.start]

end Transmit

/-- On every exit of the three transfers the bus is released, and a receive never leaves its
buffer. -/
theorem transfers_follow_protocol :
    (∀ instancePtr address hasData length timeout trace status,
      Ends (i2cMasterReceive instancePtr address hasData length timeout) trace status →
        ReceiveProtocol length.toNat trace status) ∧
    (∀ instancePtr address registerAddress hasData length timeout trace status,
      Ends (i2cMemRead instancePtr address registerAddress hasData length timeout)
        trace status → ReceiveProtocol length.toNat trace status) ∧
    ∀ instancePtr address data length timeout trace status,
      Ends (i2cMasterTransmit instancePtr address data length timeout) trace status →
        TransmitProtocol address (bytesFrom (data.getD fun _ => 0) 0 length.toNat)
          trace status := by
  refine ⟨?_, ?_, fun _ _ _ _ _ _ _ => masterTransmit_protocol⟩
  · intro instancePtr address hasData length timeout trace status h
    exact masterReceive_completes instancePtr address hasData length timeout [] trace status
      (by simp) h
  · intro instancePtr address registerAddress hasData length timeout trace status h
    exact memRead_completes instancePtr address registerAddress hasData length timeout []
      trace status (by simp) h

/-- A receive of three bytes from address 0x50. -/
def demoReceive : List I2cAccess :=
  [.read .cr1 0x1, .read .sr2 0, .store .set .cr1 i2cCr1Start,
    .read .sr1 0x1, .read .sr1 0x1, .store .assign .dr 0xA1, .read .sr1 0x2, .read .sr1 0x2,
    .store .clear .cr1 i2cCr1Pos, .store .set .cr1 i2cCr1Ack, .read .sr1 0x2, .read .sr2 0x1,
    .read .sr1 0x4, .read .sr1 0x4, .store .clear .cr1 i2cCr1Ack, .read .dr 0x11,
    .store .assign (.data 0) 0x11, .read .sr1 0x4, .read .sr1 0x4,
    .store .set .cr1 i2cCr1Stop, .read .dr 0x22, .store .assign (.data 1) 0x22,
    .read .dr 0x33, .store .assign (.data 2) 0x33,
    .store .clear .cr1 (i2cCr1Ack ||| i2cCr1Pos)]

/-- A read of register 0x3B at address 0x68. -/
def demoMemRead : List I2cAccess :=
  [.read .cr1 0x1, .read .sr2 0, .store .clear .cr1 i2cCr1Pos, .store .set .cr1 i2cCr1Ack,
    .store .set .cr1 i2cCr1Start, .read .sr1 0x1, .read .sr1 0x1,
    .store .assign .dr 0xD0, .read .sr1 0x2, .read .sr1 0x2, .read .sr1 0x2, .read .sr2 0x7,
    .read .sr1 0x80, .read .sr1 0x80, .store .assign .dr 0x3B, .read .sr1 0x84, .read .sr1 0x84,
    .store .set .cr1 i2cCr1Start, .read .sr1 0x1, .read .sr1 0x1,
    .store .assign .dr 0xD1, .read .sr1 0x2, .read .sr1 0x2,
    .store .clear .cr1 (i2cCr1Ack ||| i2cCr1Pos), .read .sr1 0x2, .read .sr2 0x3,
    .store .set .cr1 i2cCr1Stop, .read .sr1 0x40, .read .sr1 0x40, .read .dr 0x5A,
    .store .assign (.data 0) 0x5A, .store .clear .cr1 (i2cCr1Ack ||| i2cCr1Pos)]

/-- A transmit of the bytes 0x10 and 0x20 to address 0x50. -/
def demoTransmit : List I2cAccess :=
  [.read .cr1 0x1, .read .sr2 0, .store .clear .cr1 i2cCr1Pos, .store .set .cr1 i2cCr1Ack,
    .store .set .cr1 i2cCr1Start, .read .sr1 0x1, .read .sr1 0x1,
    .store .assign .dr 0xA0, .read .sr1 0x2, .read .sr1 0x2, .read .sr1 0x2, .read .sr2 0x7,
    .read .sr1 0x80, .read .sr1 0x80, .store .assign .dr 0x10,
    .read .sr1 0x80, .read .sr1 0x80, .store .assign .dr 0x20, .read .sr1 0x84, .read .sr1 0x84,
    .store .set .cr1 i2cCr1Stop]

/-- Each of the three transfers returns 0. -/
theorem transfers_follow_protocol_demo :
    ReceiveProtocol 3 demoReceive 0 ∧ ReceiveProtocol 1 demoMemRead 0 ∧
      TransmitProtocol 0x50 [0x10, 0x20] demoTransmit 0 := by
  obtain ⟨hreceive, hmemRead, htransmit⟩ := transfers_follow_protocol
  refine ⟨hreceive .i2c1 0x50 true 3 1 _ 0 ?_, hmemRead .i2c2 0x68 0x3B true 1 1 _ 0 ?_,
    htransmit .i2c3 0x50 (some fun index => BitVec.ofNat 8 (16 * (index + 1))) 2 1 _ 0 ?_⟩
  · refine .read (.read (.store (.read (.read (.store (.read (.read ?_)))))))
    exact .store (.store (.read (.read (.read (.read (.store (.read (.store (.read (.read
      (.store (.read (.store (.read (.store (.store .done))))))))))))))))
  · refine .read (.read (.store (.store (.store (.read (.read ?_))))))
    refine .store (.read (.read (.read (.read (.read (.read (.store (.read (.read ?_)))))))))
    refine .store (.read (.read (.store (.read (.read ?_)))))
    exact .store (.read (.read (.store (.read (.read (.read (.store (.store .done))))))))
  · refine .read (.read (.store (.store (.store (.read (.read ?_))))))
    refine .store (.read (.read (.read (.read ?_))))
    exact .read (.read (.store (.read (.read (.store (.read (.read (.store .done))))))))

end Stm32f411.I2cProtocol
