import Stm32f411.SettledSections

/-!
Runs of the processor: what the invariant says of the contexts that are inside sections.
-/

namespace Stm32f411.SectionRuns

open Stm32f411.LabelledRuns
open Stm32f411.StatementPrograms
open Stm32f411.MaskedSections
open Stm32f411.SettledSections

section Runs

variable {τ η σ ω φ κ : Type} {M : System τ η σ ω φ κ} {Ok : σ → Prop}
  {start : σ → Prop} {P P' : Processor τ η σ ω} {s : σ} {e : Event τ η ω φ κ}

theorem settled_initial (hstart : ∀ s, start s → Ok s) (h : Start M start P) :
    Settled M Ok P P.shared where
  ok := hstart _ h.shared
  others t _ := by
    rw [h.activity]
    exact .outside
  thread := .inl h.current
  clock := .inl h.clockIdle
  situation := by
    refine .closed ?_ h.mask rfl
    rw [Processor.frames, h.handlers, Processor.threadFrame, h.activity]
    exact .thread .outside

/-- Every run of the processor is, section by section, a run of the atomic system. -/
theorem reached_settled [DecidableEq τ] (hM : Lawful M Ok) (hstart : ∀ s, start s → Ok s)
    (h : Reachable (Steps (step M)) (Start M start) P) :
    ∃ s, Reachable (Atomic M) start s ∧ Settled M Ok P s := by
  apply h.invariant (I := fun P => ∃ s, Reachable (Atomic M) start s ∧ Settled M Ok P s)
  · intro P hP
    exact ⟨_, .initial hP.shared, settled_initial hstart hP⟩
  · rintro P e P' _ ⟨s, hreach, hsettled⟩ hstep
    obtain ⟨s', hnext, rfl | ⟨l, hatomic⟩⟩ := hsettled.step hM (step_cases hstep)
    · exact ⟨s', hreach, hnext⟩
    · exact ⟨s', hreach.step hatomic, hnext⟩

theorem closed_not_inside {fs : List (Frame τ η σ ω)} (h : Closed M s fs) :
    ∀ f ∈ fs, ¬f.Inside := by
  induction h with
  | thread hwait =>
      rintro f hf ⟨o, previous, rest, hin⟩
      obtain rfl := List.mem_singleton.mp hf
      simp only at hin
      subst hin
      exact hwait.not_inside
  | push _ _ _ hwait ih =>
      rintro f hf ⟨o, previous, rest, hin⟩
      rcases List.mem_cons.mp hf with rfl | hf
      · rw [hin] at hwait
        exact hwait.not_inside
      · exact ih f hf ⟨o, previous, rest, hin⟩

/-- In a stack with an open section exactly one context is inside. -/
theorem held_inside_unique {shared : σ} {fs : List (Frame τ η σ ω)}
    (h : Held M s shared fs) : ∃ f ∈ fs, f.Inside ∧ ∀ g ∈ fs, g.Inside → g = f := by
  induction h with
  | hold hclosed =>
      rename_i a o rest below _ _ _
      refine ⟨⟨a, 0, .inside o 0 rest⟩, List.mem_cons_self, ⟨_, _, _, rfl⟩, ?_⟩
      intro g hg hin
      rcases List.mem_cons.mp hg with rfl | hg
      · rfl
      · exact absurd hin (closed_not_inside hclosed g (List.mem_cons_of_mem _ hg))
  | push _ _ _ _ hout ih =>
      obtain ⟨f, hf, hin, hunique⟩ := ih
      refine ⟨f, List.mem_cons_of_mem _ hf, hin, ?_⟩
      intro g hg hg'
      rcases List.mem_cons.mp hg with rfl | hg
      · obtain ⟨_, _, _, hact⟩ := hg'
        rw [hout] at hact
        cases hact
      · exact hunique g hg hg'

theorem inside_frame [DecidableEq τ] (h : Settled M Ok P s) {a : Actor τ η} (ha : P.Inside a) :
    ∃ f ∈ P.frames, f.actor = a ∧ f.Inside := by
  rcases ha with ⟨t, rfl, o, previous, rest, hin⟩ | ⟨f, hf, hactor, hin⟩
  · by_cases ht : t = P.thread
    · subst ht
      exact ⟨P.threadFrame, by simp [Processor.frames], rfl, _, _, _, hin⟩
    · have hwait := h.others t ht
      rw [hin] at hwait
      exact hwait.not_inside.elim
  · exact ⟨f, by simp [Processor.frames, hf], hactor, hin⟩

theorem held_of_inside [DecidableEq τ] (h : Settled M Ok P s) {a : Actor τ η} (ha : P.Inside a) :
    Held M s P.shared P.frames ∧ P.mask = M.ceiling := by
  obtain ⟨f, hf, _, hin⟩ := inside_frame h ha
  rcases h.situation with ⟨hclosed, _, _⟩ | ⟨hheld, hmask⟩
  · exact absurd hin (closed_not_inside hclosed f hf)
  · exact ⟨hheld, hmask⟩

/-- No two contexts are inside sections at once. -/
theorem settled_exclusion [DecidableEq τ] (h : Settled M Ok P s) {a b : Actor τ η} (ha : P.Inside a)
    (hb : P.Inside b) : a = b := by
  obtain ⟨hheld, _⟩ := held_of_inside h ha
  obtain ⟨f, hf, rfl, hfin⟩ := inside_frame h ha
  obtain ⟨g, hg, rfl, hgin⟩ := inside_frame h hb
  obtain ⟨k, _, _, hunique⟩ := held_inside_unique hheld
  rw [hunique f hf hfin, hunique g hg hgin]

/-- While a context is inside, only it changes the shared state. -/
theorem settled_untouched [DecidableEq τ] (h : Settled M Ok P s) {a : Actor τ η} (ha : P.Inside a)
    (hstep : Step M P e P') : P'.shared = P.shared ∨ P.top.actor = a := by
  obtain ⟨hheld, _⟩ := held_of_inside h ha
  have hlow : P.top.activity = .outside → M.levelOf P.top.actor < M.ceiling := by
    intro hout
    rw [P.frames_eq] at hheld
    exact (hheld.outside hout).2.2
  cases hstep with
  | take | freeAbove | leaveService | leaveClock | leaveSwitcher => exact .inl rfl
  | test | save | raise | begin | lower | lowerSwitcher => exact .inl (by simp)
  | free hout hlevel =>
      have := hlow hout
      omega
  | tick hactor hout =>
      have hlt := hlow hout
      have hle := M.ceiling_lt
      rw [hactor, System.levelOf_clock] at hlt
      omega
  | access hin =>
      obtain ⟨f, hf, hactor, hfin⟩ := inside_frame h ha
      obtain ⟨k, _, _, hunique⟩ := held_inside_unique hheld
      have htop : P.top ∈ P.frames := by
        rw [P.frames_eq]
        exact List.mem_cons_self
      right
      rw [← hactor, hunique P.top htop ⟨_, _, _, hin⟩, hunique f hf hfin]

/-- When the context on top is outside its sections, the mask is what it was entered with. -/
theorem mask_eq_entryMask (h : Settled M Ok P s)
    (hin : P.top.activity = .outside ∨ P.top.activity = .ended) : P.mask = P.top.entryMask := by
  rcases h.situation with ⟨hclosed, hzero, _⟩ | ⟨hheld, hmask⟩
  · rw [P.frames_eq] at hclosed
    rw [hzero, hclosed.entryMask]
  · rw [P.frames_eq] at hheld
    rcases hin with hout | hended
    · rw [hmask, (hheld.outside hout).2.1]
    · obtain ⟨o, code, hf, _⟩ := hheld.inside (by simp [hended])
      have hact := congrArg Frame.activity hf
      simp [hended] at hact

/-- A handler leaves the mask as it found it. -/
theorem leave_restores [DecidableEq τ] (h : Settled M Ok P s) (hstep : Step M P .leave P') :
    P'.mask = P.top.entryMask := by
  cases hstep with
  | leaveService hhandlers _ hout =>
      exact mask_eq_entryMask h (.inl (by simpa [Processor.top, hhandlers] using hout))
  | leaveClock hhandlers _ hout =>
      exact mask_eq_entryMask h (.inl (by simpa [Processor.top, hhandlers] using hout))
  | leaveSwitcher hhandlers _ hended =>
      exact mask_eq_entryMask h (.inr (by simpa [Processor.top, hhandlers] using hended))

/-- With no context inside a section, the shared state is the settled one. -/
theorem shared_eq_settled (h : Settled M Ok P s) (hno : ∀ a, ¬P.Inside a) : P.shared = s := by
  rcases h.situation with ⟨_, _, hshared⟩ | ⟨hheld, _⟩
  · exact hshared
  · obtain ⟨f, hf, hin, _⟩ := held_inside_unique hheld
    rcases List.mem_append.mp hf with hf | hf
    · exact absurd (.inr ⟨f, hf, rfl, hin⟩) (hno f.actor)
    · obtain rfl := List.mem_singleton.mp hf
      exact absurd (.inl ⟨P.thread, rfl, hin⟩) (hno (.thread P.thread))

/-- Above an open section there are services that take none. -/
theorem service_above {f : Frame τ η σ ω} {handlers : List (Frame τ η σ ω)}
    (h : Settled M Ok P s) (hhandlers : P.handlers = f :: handlers) {g : Frame τ η σ ω}
    (hg : g ∈ P.frames) (hin : g.Inside) (hne : g ≠ f) :
    f.activity = .outside ∧ ∃ k, f.actor = .service k := by
  have hframes := Processor.frames_of_handlers hhandlers
  rcases h.situation with ⟨hclosed, _, _⟩ | ⟨hheld, _⟩
  · exact absurd hin (closed_not_inside hclosed g hg)
  · have hout : f.activity = .outside := by
      obtain ⟨only, _, _, hunique⟩ := held_inside_unique hheld
      rw [hframes] at hheld
      by_contra hopen
      obtain ⟨o, code, hf, _⟩ := hheld.inside hopen
      have hfin : f.Inside := ⟨o, 0, code, by rw [hf]⟩
      have hfmem : f ∈ P.frames := by simp [hframes]
      exact hne ((hunique g hg hin).trans (hunique f hfmem hfin).symm)
    rw [hframes] at hheld
    have hlevel := (hheld.outside hout).2.2
    have hceiling := M.ceiling_lt
    refine ⟨hout, ?_⟩
    cases hactor : f.actor with
    | service k => exact ⟨k, rfl⟩
    | _ =>
        simp only [hactor, System.levelOf_thread, System.levelOf_clock,
          System.levelOf_switcher] at hlevel
        omega

/-- An open section, also one that is preempted, still has to do what completes it as one
step on the settled state. -/
theorem open_section (h : Settled M Ok P s) {f : Frame τ η σ ω} (hf : f ∈ P.frames)
    {o : ω} {previous : Nat} {rest : Code σ Unit} (hin : f.activity = .inside o previous rest) :
    M.mayAct s f.actor ∧ (f.actor = .switcher ∨ M.tests s f.actor o = true) ∧
      (M.code f.actor o).run s = rest.run P.shared := by
  have hop : ∀ {Q : Processor τ η σ ω}, Settled M Ok Q s → f = Q.top →
      M.mayAct s f.actor ∧ (f.actor = .switcher ∨ M.tests s f.actor o = true) ∧
        (M.code f.actor o).run s = rest.run Q.shared := by
    rintro Q hQ rfl
    obtain ⟨_, _, hclosed, _, hopen, hrun⟩ := hQ.inside hin
    exact ⟨hQ.mayAct hclosed, hopen, hrun⟩
  -- the handlers above the section leave one by one
  generalize hhandlers : P.handlers = handlers
  induction handlers generalizing P with
  | nil =>
      refine hop h ?_
      simpa [Processor.frames, Processor.top, hhandlers] using hf
  | cons g handlers ih =>
      by_cases htop : f = g
      · exact hop h (by simp [Processor.top, hhandlers, htop])
      · obtain ⟨hout, k, hactor⟩ := service_above h hhandlers hf ⟨o, previous, rest, hin⟩ htop
        rw [Processor.frames_of_handlers hhandlers] at hf
        have hpopped := ih (h.leaveService hhandlers hactor hout)
          ((List.mem_cons.mp hf).resolve_left htop) rfl
        exact hpopped

end Runs

end Stm32f411.SectionRuns
