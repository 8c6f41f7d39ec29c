import Stm32f411.I2cSummaries

/-!
The reception of one byte, two bytes and more, each from the address phase on.
-/

namespace Stm32f411.I2cReceiving

open Stm32f411.RegisterPrograms
open Stm32f411.RtosTypes
open Stm32f411.I2cTransfer
open Stm32f411.I2cSummaries

section Receive

/-- What a DR read of a receive of `length` bytes asks of the accesses before it. -/
def Timely (length : Nat) (m : Summary) : Prop :=
  (m.reads.length + 3 = length → m.ackCleared = true) ∧
    (m.reads.length + 2 = length ∨ length = 1 → m.stopped = true)

/-- Every DR read is timely. -/
def Handshake (length : Nat) : Summary → List I2cAccess → Prop
  | _, [] => True
  | m, access :: rest =>
      (∀ v, access = .read .dr v → Timely length m) ∧ Handshake length (m.note access) rest

theorem handshake_append {length : Nat} {m : Summary} {before later : List I2cAccess} :
    Handshake length m (before ++ later) ↔
      Handshake length m before ∧ Handshake length (m.after before) later := by
  induction before generalizing m with
  | nil => simp [Handshake]
  | cons access before ih =>
      rw [List.cons_append, Handshake, Handshake, ih, after_cons, and_assoc]

theorem Handshake.at {length : Nat} {m : Summary} {before later : List I2cAccess} {v : Word}
    (h : Handshake length m (before ++ .read .dr v :: later)) :
    Timely length (m.after before) := by
  obtain ⟨_, hread⟩ := handshake_append.mp h
  exact hread.1 v rfl

theorem handshake_silent {length : Nat} {m : Summary} {trace : List I2cAccess}
    (h : Silent trace) : Handshake length m trace := by
  induction trace generalizing m with
  | nil => trivial
  | cons access trace ih =>
      refine ⟨?_, ih fun a ha => h a (List.mem_cons_of_mem access ha)⟩
      rintro v rfl
      exact (h _ List.mem_cons_self).elim

/-- A wait before other accesses changes nothing. -/
theorem handshake_silent_append {length : Nat} {m : Summary} {before later : List I2cAccess}
    (h : Silent before) :
    Handshake length m (before ++ later) ↔ Handshake length m later := by
  rw [handshake_append, h.after]
  exact and_iff_right (handshake_silent h)

theorem readByte_ends {β : Type} {index : Nat} {f : Unit → I2cProgram β}
    {trace : List I2cAccess} {status : β} : Ends (i2cReadByte index >>= f) trace status ↔
      ∃ v rest, trace = .read .dr v :: .store .assign (.data index) (v &&& 0xFF) :: rest ∧
        Ends (f ()) rest status := by
  constructor
  · rintro (_ | ⟨_ | _ | h⟩)
    exact ⟨_, _, rfl, h⟩
  · rintro ⟨v, rest, rfl, h⟩
    exact .read (.store h)

theorem clearAddr_ends {f : Unit → I2cProgram Int} {trace : List I2cAccess} {status : Int} :
    Ends (i2cClearAddr >>= f) trace status ↔
      ∃ v w rest, trace = .read .sr1 v :: .read .sr2 w :: rest ∧ Ends (f ()) rest status := by
  constructor
  · rintro (_ | ⟨_ | ⟨h⟩ | _⟩)
    exact ⟨_, _, _, rfl, h⟩
  · rintro ⟨v, w, rest, rfl, h⟩
    exact .read (.read h)

/-- The last accesses of a receive procedure. -/
def receiveEnd (status : Int) : List I2cAccess :=
  .store .clear .cr1 (i2cCr1Ack ||| i2cCr1Pos) ::
    if status = 0 then [] else [.store .set .cr1 i2cCr1Stop]

theorem receiveEnd_ends {trace : List I2cAccess} {status result : Int}
    (h : Ends (i2cReceiveEnd status) trace result) :
    trace = receiveEnd status ∧ result = status := by
  rw [i2cReceiveEnd, ends_clearBits_bind] at h
  obtain ⟨rest, rfl, h⟩ := h
  split at h
  · next hnonzero =>
      rw [i2cStop, ends_setBits_bind] at h
      obtain ⟨rest, rfl, h⟩ := h
      obtain ⟨rfl, rfl⟩ := ends_done.mp h
      exact ⟨by rw [receiveEnd, if_neg hnonzero], rfl⟩
  · next hzero =>
      obtain ⟨rfl, rfl⟩ := ends_done.mp h
      exact ⟨by rw [receiveEnd, if_pos (not_not.mp hzero)], rfl⟩

/-- The byte that `data[index] = (uint8_t)instance->DR` moves. -/
def moved (index : Nat) (v : Word) : List I2cAccess :=
  [.read .dr v, .store .assign (.data index) (v &&& 0xFF)]

theorem receiveOne_ends {timeout : Nat} {trace : List I2cAccess} {status : Int}
    (h : Ends (i2cReceiveOne timeout) trace status) :
    ∃ a b polls, Silent polls ∧ NoSr2 polls ∧ ∃ v, trace =
      .store .clear .cr1 (i2cCr1Ack ||| i2cCr1Pos) :: .read .sr1 a :: .read .sr2 b ::
        .store .set .cr1 i2cCr1Stop ::
          (polls ++ ((if status = 0 then moved 0 v else []) ++ receiveEnd status)) := by
  rw [i2cReceiveOne, ends_clearBits_bind] at h
  obtain ⟨rest, rfl, h⟩ := h
  rw [clearAddr_ends] at h
  obtain ⟨a, b, rest, rfl, h⟩ := h
  rw [i2cStop, ends_setBits_bind] at h
  obtain ⟨rest, rfl, h⟩ := h
  rw [ends_bind] at h
  obtain ⟨polls, waited, after, rfl, hwait, h⟩ := h
  obtain ⟨hsilent, hsr2⟩ := waitSr1_ends hwait
  refine ⟨a, b, polls, hsilent, hsr2, ?_⟩
  split at h
  · next hzero =>
      rw [readByte_ends] at h
      obtain ⟨v, rest, rfl, h⟩ := h
      obtain ⟨rfl, rfl⟩ := receiveEnd_ends h
      exact ⟨v, by rw [if_pos hzero]; rfl⟩
  · next hnonzero =>
      obtain ⟨rfl, rfl⟩ := receiveEnd_ends h
      exact ⟨0, by rw [if_neg hnonzero]; rfl⟩

theorem receiveTwo_ends {timeout : Nat} {trace : List I2cAccess} {status : Int}
    (h : Ends (i2cReceiveTwo timeout) trace status) :
    ∃ a b polls, Silent polls ∧ NoSr2 polls ∧ ∃ v w, trace =
      .store .set .cr1 i2cCr1Pos :: .store .clear .cr1 i2cCr1Ack :: .read .sr1 a ::
        .read .sr2 b :: (polls ++ ((if status = 0 then .store .set .cr1 i2cCr1Stop ::
          (moved 0 v ++ moved 1 w) else []) ++ receiveEnd status)) := by
  rw [i2cReceiveTwo, ends_setBits_bind] at h
  obtain ⟨rest, rfl, h⟩ := h
  rw [ends_clearBits_bind] at h
  obtain ⟨rest, rfl, h⟩ := h
  rw [clearAddr_ends] at h
  obtain ⟨a, b, rest, rfl, h⟩ := h
  rw [ends_bind] at h
  obtain ⟨polls, waited, after, rfl, hwait, h⟩ := h
  obtain ⟨hsilent, hsr2⟩ := waitSr1_ends hwait
  refine ⟨a, b, polls, hsilent, hsr2, ?_⟩
  split at h
  · next hzero =>
      rw [i2cStop, ends_setBits_bind] at h
      obtain ⟨rest, rfl, h⟩ := h
      rw [readByte_ends] at h
      obtain ⟨v, rest, rfl, h⟩ := h
      rw [readByte_ends] at h
      obtain ⟨w, rest, rfl, h⟩ := h
      obtain ⟨rfl, rfl⟩ := receiveEnd_ends h
      exact ⟨v, w, by rw [if_pos hzero]; rfl⟩
  · next hnonzero =>
      obtain ⟨rfl, rfl⟩ := receiveEnd_ends h
      exact ⟨0, 0, by rw [if_neg hnonzero]; rfl⟩

/-- What a receive procedure that starts with the summary `m` leaves. -/
structure Received (length : Nat) (m : Summary) (trace : List I2cAccess) (status : Int) :
    Prop where
  stopped : (m.after trace).stopped = true
  inOrder : (m.after trace).InOrder
  bounded : (m.after trace).reads.length ≤ length
  complete : status = 0 → (m.after trace).reads.length = length
  handshake : Handshake length m trace

theorem Received.prepend {length : Nat} {m : Summary} {before later : List I2cAccess}
    {status : Int} (hbefore : Handshake length m before)
    (h : Received length (m.after before) later status) :
    Received length m (before ++ later) status := by
  constructor
  · rw [after_append]
    exact h.stopped
  · rw [after_append]
    exact h.inOrder
  · rw [after_append]
    exact h.bounded
  · rw [after_append]
    exact h.complete
  · exact handshake_append.mpr ⟨hbefore, h.handshake⟩

theorem received_one {timeout : Nat} {m : Summary} {trace : List I2cAccess} {status : Int}
    (hreads : m.reads = []) (hstored : m.stored = [])
    (h : Ends (i2cReceiveOne timeout) trace status) : Received 1 m trace status := by
  obtain ⟨a, b, polls, hsilent, _, v, rfl⟩ := receiveOne_ends h
  by_cases hzero : status = 0
  · constructor <;> simp [hzero, after_append, hsilent.after, moved, receiveEnd,
      Summary.InOrder, hreads, hstored, Handshake, Timely, handshake_silent_append hsilent]
  · constructor <;> simp [hzero, after_append, hsilent.after, receiveEnd,
      Summary.InOrder, hreads, hstored, Handshake, handshake_silent_append hsilent]

theorem received_two {timeout : Nat} {m : Summary} {trace : List I2cAccess} {status : Int}
    (hreads : m.reads = []) (hstored : m.stored = [])
    (h : Ends (i2cReceiveTwo timeout) trace status) : Received 2 m trace status := by
  obtain ⟨a, b, polls, hsilent, _, v, w, rfl⟩ := receiveTwo_ends h
  by_cases hzero : status = 0
  · constructor <;> simp [hzero, after_append, hsilent.after, moved, receiveEnd,
      Summary.InOrder, hreads, hstored, Handshake, Timely, handshake_silent_append hsilent]
  · constructor <;> simp [hzero, after_append, hsilent.after, receiveEnd,
      Summary.InOrder, hreads, hstored, Handshake, handshake_silent_append hsilent]

/-- One byte of a longer receive, read when it is not one of the last three. -/
theorem handshake_moved {length index : Nat} {m : Summary} {v : Word}
    (hlength : m.reads.length + 3 < length) : Handshake length m (moved index v) := by
  refine ⟨fun _ _ => ⟨fun h => ?_, fun h => ?_⟩, fun _ h => ?_, trivial⟩
  · omega
  · omega
  · cases h

theorem after_moved {m : Summary} {index : Nat} (hindex : m.reads.length = index) (v : Word)
    (hm : m.InOrder) : (m.after (moved index v)).InOrder ∧
      (m.after (moved index v)).reads.length = index + 1 := by
  subst hindex
  exact ⟨hm.next v, by simp [moved]⟩

/-- The loop leaves the last three bytes to be read, or requests a STOP and fails. -/
theorem receiveLoop_ends {timeout remaining index length : Nat} {m : Summary}
    {trace : List I2cAccess} {outcome : Option Int} (hm : m.InOrder)
    (hindex : m.reads.length = index) (hlength : index + remaining + 3 ≤ length)
    (h : Ends (i2cReceiveLoop timeout remaining index) trace outcome) :
    Handshake length m trace ∧ (m.after trace).InOrder ∧
      (outcome = none ∧ (m.after trace).reads.length = index + remaining ∨
        ∃ status, outcome = some status ∧ status ≠ 0 ∧ (m.after trace).stopped = true ∧
          (m.after trace).reads.length ≤ index + remaining) := by
  induction remaining generalizing index m trace with
  | zero =>
      obtain ⟨rfl, rfl⟩ := ends_done.mp h
      exact ⟨trivial, hm, Or.inl ⟨rfl, hindex⟩⟩
  | succ remaining ih =>
      rw [i2cReceiveLoop, ends_bind] at h
      obtain ⟨polls, waited, after, rfl, hwait, h⟩ := h
      obtain ⟨hsilent, _⟩ := waitSr1_ends hwait
      rw [handshake_silent_append hsilent, after_append, hsilent.after]
      split at h
      · next hnonzero =>
          rw [i2cStop, ends_setBits_bind] at h
          obtain ⟨rest, rfl, h⟩ := h
          obtain ⟨rfl, rfl⟩ := ends_done.mp h
          have hstop : m.after [.store .set .cr1 i2cCr1Stop] = { m with stopped := true } := by
            simp
          rw [hstop]
          refine ⟨by simp [Handshake], hm, Or.inr ⟨waited, rfl, hnonzero, rfl, ?_⟩⟩
          simp [hindex]
      · rw [readByte_ends] at h
        obtain ⟨v, rest, rfl, h⟩ := h
        obtain ⟨horder, hnext⟩ := after_moved hindex v hm
        obtain ⟨hhandshake, hstored, hend⟩ := ih horder hnext (by omega) h
        have hsplit : Access.read Location.dr v :: .store .assign (.data index) (v &&& 0xFF) ::
            rest = moved index v ++ rest := rfl
        rw [hsplit, handshake_append, after_append, show index + (remaining + 1) =
          index + 1 + remaining by omega]
        exact ⟨⟨handshake_moved (by omega), hhandshake⟩, hstored, hend⟩

/-- A receive that fails requests a STOP and reads nothing more. -/
theorem received_end {length : Nat} {m : Summary} {status : Int} (hnonzero : status ≠ 0)
    (hm : m.InOrder) (hlength : m.reads.length ≤ length) :
    Received length m (receiveEnd status) status := by
  rw [receiveEnd, if_neg hnonzero]
  refine ⟨?_, ?_, ?_, fun hzero => absurd hzero hnonzero, ?_⟩
  · simp
  · simpa [Summary.InOrder] using hm
  · simpa using hlength
  · simp [Handshake]

/-- After a wait, a receive goes on as from the summary before it. -/
theorem Received.waited {length : Nat} {m : Summary} {polls later : List I2cAccess}
    {status : Int} (hsilent : Silent polls) (h : Received length m later status) :
    Received length m (polls ++ later) status :=
  .prepend (handshake_silent hsilent) (by rwa [hsilent.after])

/-- The last two bytes: a STOP is requested before the first of them is read. -/
theorem receiveLast_ends {timeout length index : Nat} {m : Summary} {trace : List I2cAccess}
    {status : Int} (hm : m.InOrder) (hindex : m.reads.length = index)
    (hlength : index + 2 = length)
    (h : Ends (do
      let status ← i2cWaitSr1 i2cSr1Btf timeout
      if status = 0 then
        i2cStop
        i2cReadByte index
        i2cReadByte (index + 1)
        i2cReceiveEnd status
      else i2cReceiveEnd status) trace status) : Received length m trace status := by
  subst hindex
  rw [ends_bind] at h
  obtain ⟨polls, waited, after, rfl, hwait, h⟩ := h
  refine .waited (waitSr1_ends hwait).1 ?_
  have hzip : m.stored = (m.reads.map (· &&& 0xFF)).zipIdx := hm
  split at h
  · next hzero =>
      rw [i2cStop, ends_setBits_bind] at h
      obtain ⟨rest, rfl, h⟩ := h
      rw [readByte_ends] at h
      obtain ⟨v, rest, rfl, h⟩ := h
      rw [readByte_ends] at h
      obtain ⟨w, rest, rfl, h⟩ := h
      obtain ⟨rfl, rfl⟩ := receiveEnd_ends h
      constructor
      · simp [receiveEnd, hzero]
      · simp [receiveEnd, hzero, Summary.InOrder, hzip, List.zipIdx_append]
      · simp [receiveEnd, hzero]
        omega
      · simp [receiveEnd, hzero]
        omega
      · simp [receiveEnd, hzero, Handshake, Timely]
        omega
  · next hnonzero =>
      obtain ⟨rfl, rfl⟩ := receiveEnd_ends h
      exact received_end hnonzero hm (by omega)

/-- The last three bytes: ACK is cleared before the first of them is read. -/
theorem receiveTail_ends {timeout length : Nat} {m : Summary} {trace : List I2cAccess}
    {status : Int} (hm : m.InOrder) (hlength : m.reads.length + 3 = length)
    (h : Ends (i2cReceiveTail m.reads.length timeout) trace status) :
    Received length m trace status := by
  rw [i2cReceiveTail, ends_bind] at h
  obtain ⟨polls, waited, after, rfl, hwait, h⟩ := h
  refine .waited (waitSr1_ends hwait).1 ?_
  split at h
  · rw [ends_clearBits_bind] at h
    obtain ⟨rest, rfl, h⟩ := h
    rw [readByte_ends] at h
    obtain ⟨v, rest, rfl, h⟩ := h
    have hcleared : (m.note (.store .clear .cr1 i2cCr1Ack)).InOrder := hm
    obtain ⟨horder, hreads⟩ := after_moved rfl v hcleared
    have hread : Handshake length m
        (.store .clear .cr1 i2cCr1Ack :: moved m.reads.length v) := by
      simp [moved, Handshake, Timely]
      omega
    exact .prepend hread (receiveLast_ends horder hreads hlength h)
  · next hnonzero =>
      obtain ⟨rfl, rfl⟩ := receiveEnd_ends h
      exact received_end hnonzero hm (by omega)

theorem received_many {length timeout : Nat} (hlength : 3 ≤ length) {m : Summary}
    {trace : List I2cAccess} {status : Int} (hreads : m.reads = []) (hstored : m.stored = [])
    (h : Ends (i2cReceiveMany length timeout) trace status) : Received length m trace status := by
  rw [i2cReceiveMany, ends_clearBits_bind] at h
  obtain ⟨rest, rfl, h⟩ := h
  rw [ends_setBits_bind] at h
  obtain ⟨rest, rfl, h⟩ := h
  rw [clearAddr_ends] at h
  obtain ⟨a, b, rest, rfl, h⟩ := h
  rw [ends_bind] at h
  obtain ⟨loop, outcome, after, rfl, hloop, h⟩ := h
  let setup : List I2cAccess := [.store .clear .cr1 i2cCr1Pos, .store .set .cr1 i2cCr1Ack,
    .read .sr1 a, .read .sr2 b]
  have hsetup : Handshake length m setup ∧ m.after setup = { m with ackCleared := false } := by
    simp [setup, Handshake]
  refine Received.prepend hsetup.1 ?_
  rw [hsetup.2]
  have hempty : ({ m with ackCleared := false } : Summary).InOrder := by
    simp [Summary.InOrder, hreads, hstored]
  have hroom : 0 + (length - 3) + 3 ≤ length := by omega
  obtain ⟨hhandshake, horder, ⟨rfl, hcount⟩ | ⟨failed, rfl, hnonzero, hstop, hcount⟩⟩ :=
    receiveLoop_ends hempty (by simp [hreads]) hroom hloop
  · refine Received.prepend hhandshake ?_
    have hindex : length - 3 = (Summary.after { m with ackCleared := false } loop).reads.length :=
      by omega
    rw [hindex] at h
    exact receiveTail_ends horder (by omega) h
  · obtain ⟨rfl, rfl⟩ := ends_done.mp h
    have hend : loop ++ [] = loop := List.append_nil loop
    change Received length _ (loop ++ []) _
    rw [hend]
    exact ⟨hstop, horder, by omega, fun hzero => absurd hzero hnonzero, hhandshake⟩

theorem receiveAfterAddress_ends {length timeout : Nat} (hlength : length ≠ 0) {m : Summary}
    {trace : List I2cAccess} {status : Int} (hreads : m.reads = []) (hstored : m.stored = [])
    (h : Ends (i2cReceiveAfterAddress length timeout) trace status) :
    Received length m trace status := by
  unfold i2cReceiveAfterAddress at h
  split at h
  · next hone =>
      subst hone
      exact received_one hreads hstored h
  · split at h
    · next htwo =>
        subst htwo
        exact received_two hreads hstored h
    · exact received_many (by omega) hreads hstored h

theorem noSr2_moved (index : Nat) (v : Word) : NoSr2 (moved index v) := by
  simp [NoSr2, moved]

theorem noSr2_stop : NoSr2 [.store .set .cr1 i2cCr1Stop] := by
  simp [NoSr2]

theorem noSr2_receiveEnd (status : Int) : NoSr2 (receiveEnd status) := by
  unfold receiveEnd
  split <;> simp [NoSr2]

/-- A receive of one or two bytes clears ACK before it clears ADDR. -/
theorem shortReceive_address {length timeout : Nat} (hlength : length = 1 ∨ length = 2)
    {trace : List I2cAccess} {status : Int}
    (h : Ends (i2cReceiveAfterAddress length timeout) trace status) (m : Summary) :
    ∃ before v later, trace = before ++ .read .sr2 v :: later ∧ NoSr2 later ∧
      (m.after before).ackCleared = true := by
  unfold i2cReceiveAfterAddress at h
  rcases hlength with rfl | rfl
  · obtain ⟨a, b, polls, _, hsr2, v, rfl⟩ := receiveOne_ends h
    refine ⟨[.store .clear .cr1 (i2cCr1Ack ||| i2cCr1Pos), .read .sr1 a], b, _, rfl, ?_, by simp⟩
    refine noSr2_stop.append (hsr2.append (NoSr2.append ?_ (noSr2_receiveEnd status)))
    split
    · exact noSr2_moved 0 v
    · simp [NoSr2]
  · obtain ⟨a, b, polls, _, hsr2, v, w, rfl⟩ := receiveTwo_ends h
    refine ⟨[.store .set .cr1 i2cCr1Pos, .store .clear .cr1 i2cCr1Ack, .read .sr1 a], b, _, rfl,
      ?_, by simp⟩
    refine hsr2.append (NoSr2.append ?_ (noSr2_receiveEnd status))
    split
    · exact noSr2_stop.append ((noSr2_moved 0 v).append (noSr2_moved 1 w))
    · simp [NoSr2]

end Receive

end Stm32f411.I2cReceiving
