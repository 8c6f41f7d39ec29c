import Stm32f411.UsartDevice

/-!
The way out of a USART: each byte is written behind a look at TXE, so none is
overwritten, and the frames on the wire are the bytes that the calls have written.
-/

namespace Stm32f411.UsartSending

open Stm32f411.LabelledRuns
open Stm32f411.RegisterPrograms
open Stm32f411.RtosTypes
open Stm32f411.UsartReceive
open Stm32f411.UsartTransmit
open Stm32f411.UsartDevice

variable {s s' : UsartState} {timeout : Word} {polls : Nat}

/-- TXE was seen, and SR read for it. -/
def MayWrite (s : UsartState) : Prop := Sound s ∧ s.tdr = none ∧ s.statusRead = true

def Sent (s : UsartState) : Prop := Sound s ∧ s.inFlight = []

theorem mayWrite_stable : Stable usart MayWrite := by
  rintro s _ ⟨hs, htdr, hread⟩ h
  refine ⟨h.sound hs, ?_⟩
  cases h with
  | load _ hfull => exact absurd htdr hfull
  | finish _ => exact ⟨htdr, hread⟩
  | arrive v => exact ⟨htdr, hread⟩

theorem sent_stable : Stable usart Sent := by
  rintro s _ ⟨hs, hempty⟩ h
  refine ⟨h.sound hs, ?_⟩
  simp only [UsartState.inFlight, List.append_eq_nil_iff, Option.toList_eq_nil_iff] at hempty ⊢
  cases h with
  | load _ hfull => exact absurd hempty.2 hfull
  | finish hfull => exact absurd hempty.1 hfull
  | arrive v => exact hempty

/-- A program keeps `Sound`, never overwrites a byte, and ends in `Q`. -/
abbrev SendsSafely {α : Type} (Q : α → UsartState → Prop) (p : UsartProgram α)
    (s : UsartState) : Prop :=
  Always usart NeverOverwrites Q p s

theorem waitFlag_safely {flag : Word} {B : UsartState → Prop} (hB : Stable usart B)
    (hseen : ∀ s v, Sound s → s.ShowsSr v → v &&& flag ≠ 0 → B s.readSr) (count : Word)
    (hs : Sound s) :
    SendsSafely (fun outcome s => Sound s ∧ (outcome = some 0 → B s))
      (waitFlag flag timeout polls count) s := by
  have hfail : ∀ {outcome : Option Int} {s}, outcome ≠ some 0 → Sound s →
      SendsSafely (fun outcome s => Sound s ∧ (outcome = some 0 → B s)) (.done outcome) s :=
    fun houtcome hs => always_done sound_stable hs fun _ hs =>
      ⟨hs, fun hzero => absurd hzero houtcome⟩
  induction polls generalizing count s with
  | zero => exact hfail (by simp) hs
  | succ polls ih =>
      rw [waitFlag]
      refine always_readReg_bind sound_stable hs fun s v s' hs heffect =>
        ⟨fun hwrite => absurd rfl hwrite, ?_⟩
      obtain ⟨hshows, rfl⟩ := heffect
      have hread : Sound s.readSr := hs
      split
      · next hflag =>
          have hboth : Stable usart fun s => Sound s ∧ B s := fun _ _ h hmove =>
            ⟨sound_stable _ _ h.1 hmove, hB _ _ h.2 hmove⟩
          exact always_done hboth ⟨hread, hseen s v hs hshows hflag⟩
            fun _ h => ⟨h.1, fun _ => h.2⟩
      · split
        · split
          · exact hfail (by decide) hread
          · exact ih _ hread
        · exact ih _ hread

/-- A program that does not write to DR. -/
theorem silent_safely {p : UsartProgram (Option Int)} (hp : Only NoWrite p) (hs : Sound s) :
    SendsSafely (fun _ s => Sound s) p s := by
  refine hp.always sound_stable (fun s access s' hsilent hs heffect => ⟨?_, ?_⟩) hs
  · exact fun hwrite => absurd hsilent hwrite
  · exact sound_effect hsilent heffect hs

/-- Each byte is written behind a wait for TXE that read SR, so TC is cleared with it. -/
theorem transmitFrom_safely {data : Nat → Byte} (index remaining : Nat) (hs : Sound s) :
    SendsSafely (fun outcome s => Sound s ∧ (outcome = some 0 → s.inFlight = []))
      (transmitFrom timeout polls data index remaining) s := by
  induction remaining generalizing index s with
  | zero =>
      refine (waitFlag_safely sent_stable (fun s v hs hshows hv => ?_) timeout hs).mono
        (fun _ _ _ h => h) fun _ s h => ⟨h.1, fun hzero => (h.2 hzero).2⟩
      exact ⟨hs, hs (hshows.tc.mp hv)⟩
  | succ remaining ih =>
      rw [transmitFrom, SendsSafely, always_bind]
      have hseen : ∀ s v, Sound s → s.ShowsSr v → v &&& usartSrTxe ≠ 0 → MayWrite s.readSr :=
        fun s v hs hshows hv => ⟨hs, hshows.txe.mp hv, rfl⟩
      refine (waitFlag_safely mayWrite_stable hseen timeout hs).mono (fun _ _ _ h => h)
        fun outcome s hwaited => ?_
      split
      · next hzero =>
          refine always_store_bind mayWrite_stable (hwaited.2 hzero)
            fun s s' hmay heffect => ?_
          obtain rfl : s' = s.writeDr _ := heffect
          obtain ⟨hs, htdr, hread⟩ := hmay
          refine ⟨fun _ => htdr, ih (index + 1) fun htc => ?_⟩
          simp [UsartState.writeDr, hread] at htc
      · next hfailed =>
          exact always_done sound_stable hwaited.1 fun _ hs =>
            ⟨hs, fun hzero => absurd hzero hfailed⟩

theorem call_safely (call : UsartCall) (hs : Sound s) :
    SendsSafely (fun outcome s => Sound s ∧ (outcome = some 0 → call.Sends → s.inFlight = []))
      call.program s := by
  have hrefused : ∀ {bound : Prop}, SendsSafely (fun outcome s => Sound s ∧
      (outcome = some 0 → bound → s.inFlight = [])) (pure (some (-1))) s :=
    always_done sound_stable hs fun _ hs => ⟨hs, fun hzero => absurd hzero (by decide)⟩
  have hsends : ∀ {data : Nat → Byte} {polls remaining : Nat} {timeout : Word} {bound : Prop},
      SendsSafely (fun outcome s => Sound s ∧ (outcome = some 0 → bound → s.inFlight = []))
        (transmitFrom timeout polls data 0 remaining) s :=
    (transmitFrom_safely 0 _ hs).mono (fun _ _ _ h => h)
      fun _ _ h => ⟨h.1, fun hzero _ => h.2 hzero⟩
  have hsilent : ¬call.Sends → Only NoWrite call.program → SendsSafely (fun outcome s => Sound s ∧
      (outcome = some 0 → call.Sends → s.inFlight = [])) call.program s := fun hnot honly =>
    (silent_safely honly hs).mono (fun _ _ _ h => h) fun _ _ h => ⟨h, fun _ h => absurd h hnot⟩
  cases call with
  | transmit polls instancePtr data len timeout =>
      cases instancePtr with
      | none => exact hrefused
      | some p =>
          cases data with
          | none => exact hrefused
          | some data => exact hsends
  | writeByte polls instancePtr byte timeout =>
      cases instancePtr with
      | none => exact hrefused
      | some p => exact hsends
  | puts polls instancePtr str timeout =>
      cases instancePtr with
      | none => exact hrefused
      | some p =>
          cases str with
          | none => exact hrefused
          | some str =>
              rw [UsartCall.program, usartPuts_eq]
              exact hsends
  | receive polls instancePtr data len timeout =>
      exact hsilent (fun h => h) (only_ite (fun _ => trivial) fun _ => receiveFrom_only _ _)
  | readByte polls instancePtr byte timeout =>
      refine hsilent (fun h => h) (only_ite (fun _ => trivial) fun _ => ?_)
      exact only_ite (fun _ => trivial) fun _ => receiveFrom_only _ _

theorem writes_append (before later : List (Option UsartAccess)) :
    writes (before ++ later) = writes before ++ writes later := by
  rw [writes, accesses_append, List.filterMap_append]
  rfl

theorem writes_access (access : UsartAccess) :
    writes [some access] = (drWrite access).toList := by
  rw [writes, accesses, List.reduceOption_singleton, Option.toList_some, List.filterMap_cons]
  cases drWrite access with
  | none => rfl
  | some v => rfl

/-- The line holds what it held before the call, and what the call has written. -/
theorem run_queued {Q : Option Int → UsartState → Prop} {p p' : UsartProgram (Option Int)}
    {events : List (Option UsartAccess)} (h : SendsSafely Q p s)
    (hrun : Run (Moves usart) (p, s) events (p', s')) :
    s'.queued = s.queued ++ writes events := by
  generalize hto : (p', s') = c' at hrun
  induction hrun generalizing p' s' with
  | nil =>
      obtain ⟨-, rfl⟩ := Prod.mk.inj hto
      simp [writes, accesses]
  | @snoc events middle c'' event hrest hlast ih =>
      subst hto
      have hsafe := ((h.run hrest).move hlast).2
      rw [writes_append, ← List.append_assoc, ← ih rfl]
      cases hlast with
      | hardware hmove => simpa [writes, accesses] using hmove.queued
      | read heffect =>
          rw [writes_access]
          exact queued_effect heffect (hsafe _ rfl)
      | store heffect =>
          rw [writes_access]
          exact queued_effect heffect (hsafe _ rfl)

/-- An unfinished call has written what some finished one writes first. -/
theorem writes_prefix {call : UsartCall} {p : UsartProgram (Option Int)}
    {events : List (Option UsartAccess)}
    (hrun : Run (Moves usart) (call.program, s) events (p, s')) :
    writes events <+: call.bytes := by
  obtain ⟨trace, outcome, hends⟩ := exists_ends p
  obtain ⟨hstart, -⟩ := call_writes call (ends_of_run hrun hends)
  rw [List.filterMap_append] at hstart
  exact (List.prefix_append _ _).trans hstart

theorem returned_writes {x : UsartReturn} (h : CallStep s x s') :
    x.written <+: x.call.bytes ∧ (x.result = 0 → x.written = x.call.bytes) := by
  obtain ⟨hstart, hall⟩ := call_writes x.call (run_ends h)
  exact ⟨hstart, fun hzero => hall (congrArg some hzero)⟩

theorem calls_carry {calls : List UsartReturn} (h : Run CallStep .idle calls s) :
    Sound s ∧ s.queued = calls.flatMap UsartReturn.written ∧
      ∀ x ∈ calls, x.written <+: x.call.bytes ∧ (x.result = 0 → x.written = x.call.bytes) := by
  induction h with
  | nil => exact ⟨fun _ => rfl, rfl, by simp⟩
  | @snoc calls s s' x hrest hlast ih =>
      obtain ⟨hs, hqueued, hcalls⟩ := ih
      have hsafely := call_safely x.call hs
      refine ⟨((hsafely.run hlast) s' .refl).1, ?_, fun y hy => ?_⟩
      · rw [run_queued hsafely hlast, hqueued]
        simp [UsartReturn.written]
      · rcases List.mem_append.mp hy with hy | hy
        · exact hcalls y hy
        · obtain rfl := List.mem_singleton.mp hy
          exact returned_writes hlast

end Stm32f411.UsartSending
