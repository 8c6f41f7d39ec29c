import Stm32f411.DmaFrames

/-!
What a sequence of stream calls keeps: a stream is enabled only in a legal configuration,
nothing changes under an enabled stream, and a call touches its own stream only.
-/

namespace Stm32f411.DmaLegality

open Stm32f411.LabelledRuns
open Stm32f411.RegisterPrograms
open Stm32f411.DmaStreams
open Stm32f411.DmaConfigurations
open Stm32f411.DmaGuarantee
open Stm32f411.DmaFrames

section Calls

variable {s s' : DmaState} {call : DmaCall}

theorem call_keeps (call : DmaCall) (hs : Good s) : Keeps call.program s := by
  cases call with
  | init c stream config => exact init_keeps hs
  | start c stream transfer => exact start_keeps hs
  | abort c stream timeout => exact abort_keeps hs
  | clearFlags c stream flags => exact clearFlags_keeps hs

theorem call_own (call : DmaCall) : Only (Own call.controller call.stream) call.program := by
  cases call with
  | init c stream config => exact init_own stream config
  | start c stream transfer => exact start_own stream transfer
  | abort c stream timeout => exact abort_own stream timeout
  | clearFlags c stream flags => exact clearFlags_own stream flags

/-- What an access of a failing call may do to the streams: `dma_abort` clears EN. -/
def Refused (call : DmaCall) (s s' : DmaState) : Prop :=
  s'.streams = s.streams ∨
    (∃ c stream timeout, call = .abort c stream timeout) ∧
      s'.streams = (s.setStream call.controller call.stream
        { s.streams call.controller call.stream with
          cr := (s.streams call.controller call.stream).modes }).streams

theorem streams_of_harmless {access : DmaAccess} (h : Harmless access)
    (heffect : dma.effect s access s') : s'.streams = s.streams := by
  cases access with
  | read location v => rw [heffect.2]
  | store how location v =>
      cases location with
      | ahb1enr => rcases heffect with rfl | rfl <;> rfl
      | _ => exact h.elim

theorem call_fails (call : DmaCall) : FailsWithin (fun access =>
    ∀ s s', dma.effect s access s' → Refused call s s') call.program := by
  have hquiet : ∀ access, Harmless access → ∀ s s', dma.effect s access s' → Refused call s s' :=
    fun access h s s' heffect => Or.inl (streams_of_harmless h heffect)
  cases call with
  | init c stream config =>
      exact fun trace result hends hne access ha =>
        hquiet access (init_fails stream config trace result hends hne access ha)
  | start c stream transfer =>
      exact fun trace result hends hne access ha =>
        hquiet access (start_fails stream transfer trace result hends hne access ha)
  | abort c stream timeout =>
      intro trace result hends hne access ha
      rcases abort_fails stream timeout trace result hends hne access ha with h | rfl
      · exact hquiet access h
      · intro s s' heffect
        exact (abort_effect heffect).2.2.2.imp_right fun h => ⟨⟨c, stream, timeout, rfl⟩, h⟩
  | clearFlags c stream flags =>
      exact fun trace result hends hne access ha =>
        hquiet access (clearFlags_fails stream flags trace result hends hne access ha)

theorem reachable_good (h : Reachable CallStep (· = .reset) s) : Good s := by
  refine h.invariant ?_ ?_
  · rintro s rfl c n
    exact configured_reset c
  · rintro s ⟨call, result⟩ s' - hs ⟨events, hrun⟩
    have hkeeps : Keeps call.program s.begin := call_keeps call (hs.of_streams rfl)
    exact (always_iff_runs.mp hkeeps _ _ _ hrun).2 result rfl

/-- Every access of every call, in any sequence of calls from reset. -/
theorem streams_enabled_legally (s : DmaState) (hs : Reachable CallStep (· = .reset) s)
    (call : DmaCall) (before : List (Option DmaAccess)) (p p' : DmaProgram Int)
    (access : DmaAccess) (s₁ s₂ : DmaState)
    (hbefore : Run (Moves dma) (call.program, s.begin) before (p, s₁))
    (haccess : Moves dma (p, s₁) (some access) (p', s₂)) :
    Lawful s₁ s₂ ∧ Framed call.controller call.stream s₁ s₂ ∧
      ∀ after result s₃, Run (Moves dma) (p', s₂) after (.done result, s₃) → result ≠ 0 →
        Refused call s₁ s₂ := by
  have hkeeps : Keeps call.program s.begin :=
    call_keeps call ((reachable_good hs).of_streams rfl)
  have heffect : dma.effect s₁ access s₂ := by
    cases haccess with
    | read heffect => exact heffect
    | store heffect => exact heffect
  have hends : ∀ trace result, Ends p' trace result →
      Ends call.program (accesses before ++ access :: trace) result := by
    intro trace result hends
    have hnext : Ends p (access :: trace) result := by
      cases haccess with
      | read _ => exact .read hends
      | store _ => exact .store hends
    exact ends_of_run hbefore hnext
  refine ⟨(always_iff_runs.mp hkeeps _ _ _ hbefore).1 access p' s₂ haccess, ?_, ?_⟩
  · obtain ⟨trace, result, hp'⟩ := exists_ends p'
    exact framed_of_own ((call_own call).ends (hends trace result hp') access (by simp)) heffect
  · intro after result s₃ hafter hne
    have htrace := hends _ result (run_ends hafter)
    exact call_fails call _ result htrace hne access (by simp) s₁ s₂ heffect

/-- Words from memory to a peripheral of bytes, through the FIFO. -/
def demoConfig : DmaConfig where
  channel := 3
  direction := 1
  periphWidth := 0
  memoryWidth := 2
  periphIncrement := 0
  memoryIncrement := 1
  mode := 0
  priority := 2
  fifoMode := 1
  fifoThreshold := 3

/-- `dma_init` has set up stream 3 of DMA2. -/
def demoInitialized : DmaState :=
  { ((DmaState.reset.store .set .ahb1enr rccAhb1enrDma2en).store .assign (.cr .dma2 3)
      0x6024440).store .assign (.fcr .dma2 3) 7 with
    lastStore := some (.store .assign (.fcr .dma2 3) 7) }

theorem demo_init :
    CallStep .reset (.init .dma2 3 (some demoConfig), 0) demoInitialized :=
  ⟨[some (.store .set .ahb1enr rccAhb1enrDma2en), some (.read .ahb1enr rccAhb1enrDma2en),
      some (.read (.cr .dma2 3) 0), some (.store .assign (.cr .dma2 3) 0x6024440),
      some (.store .assign (.fcr .dma2 3) 7)],
    .cons (.store (Or.inl rfl)) (.cons (.read ⟨rfl, rfl⟩) (.cons (.read ⟨rfl, rfl⟩)
      (.cons (.store (Or.inl rfl)) (.cons (.store (Or.inl rfl)) .nil))))⟩

/-- `dma_start` on that stream, up to the access that sets EN. -/
theorem streams_enabled_legally_demo :
    Startable .dma2 ⟨0x6024441, 8, 0x40013000, 0x20000004, 7⟩ := by
  have hreached : Reachable CallStep (· = .reset) demoInitialized :=
    Reachable.step (.initial rfl) demo_init
  have hlawful := streams_enabled_legally demoInitialized hreached
    (.start .dma2 3 (some ⟨0x40013000, 0x20000004, 8⟩))
    [some (.read (.cr .dma2 3) 0x6024440), some (.read (.cr .dma2 3) 0x6024440),
      some (.read (.cr .dma2 3) 0x6024440),
      some (.store .assign (.par .dma2 3) 0x40013000),
      some (.store .assign (.m0ar .dma2 3) 0x20000004),
      some (.store .assign (.ndtr .dma2 3) 8), some (.store .assign (.lifcr .dma2) 0xF400000)]
    _ _ (.store .set (.cr .dma2 3) 0x1) _ _
    (.cons (.read ⟨rfl, rfl⟩) (.cons (.read ⟨rfl, rfl⟩) (.cons (.read ⟨rfl, rfl⟩)
      (.cons (.store (Or.inl rfl)) (.cons (.store (Or.inl rfl)) (.cons (.store (Or.inl rfl))
        (.cons (.store (Or.inl rfl)) .nil)))))))
    (.store (Or.inl rfl))
  exact (hlawful.1.enabling .dma2 3 (by decide) (by decide)).1

end Calls

end Stm32f411.DmaLegality
