import Stm32f411.UsartDelivery
import Stm32f411.UsartSending

/-!
The line of a USART: what the calls write is what it sends, and what arrives is what they
read.
-/

namespace Stm32f411.UsartLine

open Stm32f411.LabelledRuns
open Stm32f411.RegisterPrograms
open Stm32f411.UsartReceive
open Stm32f411.UsartTransmit
open Stm32f411.UsartDevice
open Stm32f411.UsartSending
open Stm32f411.UsartDelivery

variable {s s' : UsartState}

/-- Nothing is lost, repeated or reordered on the way out. At any moment of any call the
frames sent and under way are, in order, what the calls have written: a prefix of the bytes
of each, and all of them if it returned 0. When it does, nothing is under way. -/
theorem line_carries_writes {calls : List UsartReturn} (h : Run CallStep .idle calls s)
    {call : UsartCall} {p : UsartProgram (Option Int)} {events : List (Option UsartAccess)}
    (hrun : Run (Moves usart) (call.program, s) events (p, s')) :
    s'.wire ++ s'.inFlight = calls.flatMap UsartReturn.written ++ writes events ∧
      (∀ x ∈ calls, x.written <+: x.call.bytes ∧ (x.result = 0 → x.written = x.call.bytes)) ∧
      writes events <+: call.bytes ∧
      (p = .done (some 0) → call.Sends → writes events = call.bytes ∧ s'.inFlight = []) := by
  obtain ⟨hs, hqueued, hcalls⟩ := calls_carry h
  have hsafely := call_safely call hs
  refine ⟨?_, hcalls, writes_prefix hrun, ?_⟩
  · rw [← hqueued]
    exact run_queued hsafely hrun
  · rintro rfl hsends
    obtain ⟨-, hall⟩ := call_writes call (run_ends hrun)
    exact ⟨hall rfl, ((hsafely.run hrun) s' .refl).2 rfl hsends⟩

/-- The line after a byte that was still being sent when its call gave up. -/
def demoBusy : UsartState := (UsartState.idle.readSr.writeDr 0x41).load.readSr

def demoTimeout : UsartReturn where
  call := .writeByte 1 (some 0) 0x41 1
  events := [some (.read .sr 0xC0), some (.store .assign .dr 0x41), none, some (.read .sr 0x80)]
  result := -2

theorem demoTimeout_step : CallStep .idle demoTimeout demoBusy := by
  refine .cons (.read ⟨⟨?_, ?_, ?_⟩, rfl⟩) (.cons (.store rfl) (.cons (.hardware (.load rfl ?_))
    (.cons (.read ⟨⟨?_, ?_, ?_⟩, rfl⟩) .nil))) <;> decide

def demoSent : UsartState := (demoBusy.readSr.writeDr 0x42).finish.load.finish.readSr

theorem line_carries_writes_demo : demoSent.wire = [0x41, 0x42] := by
  have hrun : Run (Moves usart)
      ((UsartCall.transmit 1 (some 0) (some fun _ => 0x42) 1 1).program, demoBusy)
      [some (.read .sr 0x80), some (.store .assign .dr 0x42), none, none, none,
        some (.read .sr 0xC0)] (.done (some 0), demoSent) := by
    refine .cons (.read ⟨⟨?_, ?_, ?_⟩, rfl⟩) (.cons (.store rfl)
      (.cons (.hardware (.finish ?_)) (.cons (.hardware (.load rfl ?_))
        (.cons (.hardware (.finish ?_)) (.cons (.read ⟨⟨?_, ?_, ?_⟩, rfl⟩) .nil))))) <;> decide
  obtain ⟨hwire, -, -, hdone⟩ := line_carries_writes (.single demoTimeout_step) hrun
  rw [(hdone rfl trivial).2, List.append_nil] at hwire
  exact hwire

/-- Nothing is repeated, reordered or made up on the way in. What the calls have read, with
the byte that waits, is just the frames that found no unread byte, in the order of their
arrival. A call adds to it the bytes it stores, all of them if it returns 0, and one more at
most, which it reports with -5. -/
theorem line_delivers_arrivals (h : Reachable CallStep (· = .idle) s) {x : UsartReturn}
    (hstep : CallStep s x s') :
    s'.taken ++ s'.waiting = s'.accepted ∧
      ∃ kept dropped, s'.taken = s.taken ++ kept ++ dropped ∧
        (List.range kept.length).map s'.buffer = kept.map (· &&& 0xFF) ∧
        kept.length ≤ x.call.expects ∧ (x.result = 0 → kept.length = x.call.expects) ∧
        dropped.length ≤ 1 ∧ (dropped ≠ [] → x.result = -5) := by
  have hdelivered : Delivered s' := delivered_run hstep (calls_delivered h)
  have hs : Kept s.taken 0 s := ⟨[], rfl, by simp, rfl⟩
  obtain ⟨kept, dropped, htaken, hbuffer, hle, hall, hone, herror⟩ :=
    ((call_receives x.call hs).run hstep) s' .refl
  exact ⟨hdelivered, kept, dropped, htaken, hbuffer, hle,
    fun hzero => hall (congrArg some hzero), hone,
    fun hne => Option.some.inj (herror hne)⟩

/-- Two frames arrive before the first is read, and a third after it. -/
def demoOverrun : UsartState := (UsartState.idle.arrive 0x41).arrive 0x42

def demoReceive : UsartReturn where
  call := .receive 1 (some 0) (some 0) 1 1
  events := [none, none, some (.read .sr 0xE8), some (.read .dr 0x41), none,
    some (.store .assign (.data 0) 0x41)]
  result := 0

theorem line_delivers_arrivals_demo :
    let s := (demoOverrun.readSr.readDr.arrive 0x43).storeData 0 0x41
    s.arrived = [⟨0x41, false⟩, ⟨0x42, true⟩, ⟨0x43, false⟩] ∧
      s.taken ++ s.waiting = [0x41, 0x43] ∧ ∃ byte, s.taken = [byte] := by
  have hstep : CallStep .idle demoReceive
      ((demoOverrun.readSr.readDr.arrive 0x43).storeData 0 0x41) := by
    refine .cons (.hardware (.arrive 0x41)) (.cons (.hardware (.arrive 0x42))
      (.cons (.read ⟨⟨?_, ?_, ?_⟩, rfl⟩) (.cons (.read ⟨rfl, rfl⟩)
        (.cons (.hardware (.arrive 0x43)) (.cons (.store rfl) .nil))))) <;> decide
  obtain ⟨hdelivered, kept, dropped, htaken, -, -, hall, -, herror⟩ :=
    line_delivers_arrivals (.initial rfl) hstep
  have hdropped : dropped = [] := by_contra fun hne => absurd (herror hne) (by decide)
  obtain ⟨byte, rfl⟩ := List.length_eq_one_iff.mp (hall rfl)
  rw [hdropped, List.append_nil] at htaken
  exact ⟨rfl, hdelivered, byte, htaken⟩

end Stm32f411.UsartLine
