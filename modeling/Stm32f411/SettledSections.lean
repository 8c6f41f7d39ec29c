import Stm32f411.MaskedSections

/-!
The invariant of the processor: it has the contexts of one atomic system in some state, and at
most one of them is part of the way through a section from that state.
-/

namespace Stm32f411.SettledSections

open Stm32f411.StatementPrograms
open Stm32f411.MaskedSections

section Invariant

variable {τ η σ ω φ κ : Type}

/-- What the reduction asks of the operations. The tests a context makes before its section
must stay true until it gets there, whoever acts in between. -/
structure Lawful (M : System τ η σ ω φ κ) (Ok : σ → Prop) : Prop where
  free_switcher : ∀ s x, M.free s .switcher x = none
  aware : ∀ s h o, M.tests s (.service h) o = true → M.ceiling ≤ M.level h
  preserves : ∀ s l s', Ok s → Atomic M s l s' → Ok s'
  keeps : ∀ s l s' a o, Ok s → Atomic M s l s' → (∀ t, a = .thread t → l.actor ≠ .thread t) →
    M.tests s a o = true → M.tests s' a o = true
  current : ∀ s l s', Ok s → Atomic M s l s' → l.actor ≠ .switcher →
    M.current s' = M.current s
  clockIdle : ∀ s l s', Ok s → Atomic M s l s' → l.actor ≠ .clock → M.clockIdle s = true →
    M.clockIdle s' = true

/-- What a context outside its sections has under way. -/
inductive Waiting (M : System τ η σ ω φ κ) (s : σ) (a : Actor τ η) : Activity σ ω → Prop
  | outside : Waiting M s a .outside
  | tested {o : ω} : M.tests s a o = true → Waiting M s a (.tested o)
  | saved {o : ω} : M.tests s a o = true → Waiting M s a (.saved o 0)
  | ended : a = .switcher → Waiting M s a .ended

/-- A stack with no section open: urgent above less urgent, the thread at the bottom. -/
inductive Closed (M : System τ η σ ω φ κ) (s : σ) : List (Frame τ η σ ω) → Prop
  | thread {t : τ} {activity : Activity σ ω} : Waiting M s (.thread t) activity →
      Closed M s [⟨.thread t, 0, activity⟩]
  | push {f g : Frame τ η σ ω} {rest : List (Frame τ η σ ω)} : Closed M s (g :: rest) →
      M.levelOf f.actor < M.levelOf g.actor → f.entryMask = 0 → Waiting M s f.actor f.activity →
      Closed M s (f :: g :: rest)

/-- A stack with a section open since the state was `s`. Above it there are only handlers
more urgent than the ceiling, and what the section still has to do to the shared state is
what remains of its work on `s`. -/
inductive Held (M : System τ η σ ω φ κ) (s shared : σ) : List (Frame τ η σ ω) → Prop
  | hold {a : Actor τ η} {o : ω} {rest : Code σ Unit} {below : List (Frame τ η σ ω)} :
      Closed M s (⟨a, 0, .outside⟩ :: below) → M.ceiling ≤ M.levelOf a →
      a = .switcher ∨ M.tests s a o = true → (M.code a o).run s = rest.run shared →
      Held M s shared (⟨a, 0, .inside o 0 rest⟩ :: below)
  | push {f g : Frame τ η σ ω} {rest : List (Frame τ η σ ω)} : Held M s shared (g :: rest) →
      M.levelOf f.actor < M.levelOf g.actor → M.levelOf f.actor < M.ceiling →
      f.entryMask = M.ceiling → f.activity = .outside → Held M s shared (f :: g :: rest)

inductive Situation (M : System τ η σ ω φ κ) (s : σ) (P : Processor τ η σ ω) : Prop
  | closed : Closed M s P.frames → P.mask = 0 → P.shared = s → Situation M s P
  | held : Held M s P.shared P.frames → P.mask = M.ceiling → Situation M s P

/-- `s` is the state as of the last section that was completed. -/
structure Settled (M : System τ η σ ω φ κ) (Ok : σ → Prop) (P : Processor τ η σ ω) (s : σ) :
    Prop where
  ok : Ok s
  others : ∀ t, t ≠ P.thread → Waiting M s (.thread t) (P.activity t)
  thread : M.current s = some P.thread ∨ P.Chosen
  clock : M.clockIdle s = true ∨ Actor.clock ∈ P.handlers.map Frame.actor
  situation : Situation M s P

variable {M : System τ η σ ω φ κ} {Ok : σ → Prop} {P P' : Processor τ η σ ω} {s s' : σ}
  {l : Label τ η ω φ κ} {e : Event τ η ω φ κ}

/-- Nothing lies below a thread. -/
theorem Closed.thread_nil {f : Frame τ η σ ω} {rest : List (Frame τ η σ ω)} {t : τ}
    (h : Closed M s (f :: rest)) (hf : f.actor = .thread t) : rest = [] := by
  cases h with
  | thread => rfl
  | push _ hlevel =>
      rename_i g rest _ _ _
      have hle := M.levelOf_le g.actor
      rw [hf, System.levelOf_thread] at hlevel
      omega

/-- Below a handler of the lowest level there is just the thread. -/
theorem Closed.lowest {f : Frame τ η σ ω} {rest : List (Frame τ η σ ω)}
    (h : Closed M s (f :: rest)) (hf : M.levelOf f.actor = M.lowest) :
    ∃ t activity, rest = [⟨.thread t, 0, activity⟩] ∧ Waiting M s (.thread t) activity := by
  cases h with
  | thread => simp at hf
  | push hbelow hlevel =>
      rename_i g rest _ _
      obtain ⟨t, ht⟩ := System.thread_of_lowest_lt (hf ▸ hlevel)
      obtain rfl := hbelow.thread_nil ht
      cases hbelow with
      | thread hwait =>
          cases ht
          exact ⟨t, _, rfl, hwait⟩

theorem Closed.setHead {f : Frame τ η σ ω} {rest : List (Frame τ η σ ω)}
    (h : Closed M s (f :: rest)) {activity : Activity σ ω}
    (hwait : Waiting M s f.actor activity) :
    Closed M s ({ f with activity := activity } :: rest) := by
  cases h with
  | thread => exact .thread hwait
  | push hbelow hlevel hentry => exact .push hbelow hlevel hentry hwait

theorem Closed.waiting {f : Frame τ η σ ω} {rest : List (Frame τ η σ ω)}
    (h : Closed M s (f :: rest)) : Waiting M s f.actor f.activity := by
  cases h with
  | thread hwait => exact hwait
  | push _ _ _ hwait => exact hwait

theorem Closed.entryMask {f : Frame τ η σ ω} {rest : List (Frame τ η σ ω)}
    (h : Closed M s (f :: rest)) : f.entryMask = 0 := by
  cases h with
  | thread => rfl
  | push _ _ hentry => exact hentry

theorem Closed.pop {f : Frame τ η σ ω} {rest : List (Frame τ η σ ω)}
    (h : Closed M s (f :: rest)) (hrest : rest ≠ []) : Closed M s rest := by
  cases h with
  | thread => exact absurd rfl hrest
  | push hbelow => exact hbelow

theorem Waiting.not_inside {a : Actor τ η} {o : ω} {previous : Nat}
    {rest : Code σ Unit} (h : Waiting M s a (.inside o previous rest)) : False := by
  cases h

theorem Waiting.keeps (hM : Lawful M Ok) (hok : Ok s) (hstep : Atomic M s l s')
    {a : Actor τ η} (ha : ∀ t, a = .thread t → l.actor ≠ .thread t) {activity : Activity σ ω}
    (h : Waiting M s a activity) : Waiting M s' a activity := by
  cases h with
  | outside => exact .outside
  | tested htest => exact .tested (hM.keeps _ _ _ _ _ hok hstep ha htest)
  | saved htest => exact .saved (hM.keeps _ _ _ _ _ hok hstep ha htest)
  | ended hswitch => exact .ended hswitch

theorem Closed.keeps (hM : Lawful M Ok) (hok : Ok s) (hstep : Atomic M s l s')
    (hl : ∀ t, l.actor ≠ .thread t) {fs : List (Frame τ η σ ω)} (h : Closed M s fs) :
    Closed M s' fs := by
  induction h with
  | thread hwait => exact .thread (hwait.keeps hM hok hstep fun t _ => hl t)
  | push _ hlevel hentry hwait ih =>
      exact .push ih hlevel hentry (hwait.keeps hM hok hstep fun t _ => hl t)

/-- A step of the context on top leaves the contexts below as they are. -/
theorem Closed.atomic (hM : Lawful M Ok) (hok : Ok s) {f : Frame τ η σ ω}
    {rest : List (Frame τ η σ ω)} (h : Closed M s (f :: rest)) (hf : f.activity = .outside)
    (hstep : Atomic M s l s') (hl : l.actor = f.actor) : Closed M s' (f :: rest) := by
  cases h with
  | thread =>
      simp only at hf
      subst hf
      exact .thread .outside
  | push hbelow hlevel hentry =>
      rename_i g rest _
      have hthread : ∀ t, l.actor ≠ .thread t := by
        intro t ht
        have hle := M.levelOf_le g.actor
        rw [← hl, ht, System.levelOf_thread] at hlevel
        omega
      refine .push (hbelow.keeps hM hok hstep hthread) hlevel hentry ?_
      rw [hf]
      exact .outside

/-- Only the section that is open can be in the middle of its work. -/
theorem Held.inside {shared : σ} {f : Frame τ η σ ω} {rest : List (Frame τ η σ ω)}
    (h : Held M s shared (f :: rest)) (hf : f.activity ≠ .outside) :
    ∃ o code, f = ⟨f.actor, 0, .inside o 0 code⟩ ∧
      Closed M s (⟨f.actor, 0, .outside⟩ :: rest) ∧ M.ceiling ≤ M.levelOf f.actor ∧
      (f.actor = .switcher ∨ M.tests s f.actor o = true) ∧
      (M.code f.actor o).run s = code.run shared := by
  cases h with
  | hold hclosed hlevel hopen hrun => exact ⟨_, _, rfl, hclosed, hlevel, hopen, hrun⟩
  | push _ _ _ _ hout => exact absurd hout hf

theorem Held.outside {shared : σ} {f : Frame τ η σ ω} {rest : List (Frame τ η σ ω)}
    (h : Held M s shared (f :: rest)) (hf : f.activity = .outside) :
    Held M s shared rest ∧ f.entryMask = M.ceiling ∧ M.levelOf f.actor < M.ceiling := by
  cases h with
  | hold => cases hf
  | push hbelow _ hlevel hentry _ => exact ⟨hbelow, hentry, hlevel⟩

/-- A context that is about to act, or in a section of its own, is one that may. -/
theorem Settled.mayAct (h : Settled M Ok P s) {activity : Activity σ ω}
    (hclosed : Closed M s ({ P.top with activity := activity } :: P.frames.tail)) :
    M.mayAct s P.top.actor := by
  cases hhandlers : P.handlers with
  | nil =>
      have hactor : P.top.actor = .thread P.thread := by
        simp [Processor.top, hhandlers, Processor.threadFrame]
      rw [hactor]
      refine ⟨h.thread.resolve_right ?_, h.clock.resolve_right (by simp [hhandlers])⟩
      rintro ⟨f, hf, _⟩
      simp [hhandlers] at hf
  | cons f rest =>
      have hf : P.top = f := by simp [Processor.top, hhandlers]
      have htail : P.frames.tail = rest ++ [P.threadFrame] := by
        simp [Processor.frames, hhandlers]
      rw [hf, htail] at hclosed
      rw [hf]
      cases hactor : f.actor with
      | thread t =>
          have hnil := hclosed.thread_nil (t := t) hactor
          simp at hnil
      | service g => trivial
      | clock => trivial
      | switcher =>
          obtain ⟨t, act, hbelow, _⟩ := hclosed.lowest (by simp [hactor])
          have hrest : rest = [] := by
            cases rest with
            | nil => rfl
            | cons g rest' => simp at hbelow
          refine h.clock.resolve_right ?_
          simp [hhandlers, hrest, hactor]

theorem Settled.take (h : Settled M Ok P s) {a : Actor τ η}
    (hlevel : M.levelOf a < M.levelOf P.top.actor) (hmask : P.mask = 0 ∨ M.levelOf a < P.mask) :
    Settled M Ok { P with handlers := ⟨a, P.mask, .outside⟩ :: P.handlers } s := by
  refine ⟨h.ok, h.others, ?_, ?_, ?_⟩
  · rcases h.thread with hcur | ⟨f, hf, hchosen⟩
    · exact .inl hcur
    · exact .inr ⟨f, List.mem_cons_of_mem _ hf, hchosen⟩
  · exact h.clock.imp_right fun hmem => List.mem_cons_of_mem _ hmem
  · rcases h.situation with ⟨hclosed, hzero, hshared⟩ | ⟨hheld, hceiling⟩
    · refine .closed ?_ hzero hshared
      rw [P.frames_eq] at hclosed
      have hpush := hclosed.push (f := ⟨a, P.mask, .outside⟩) hlevel hzero .outside
      rwa [← P.frames_eq] at hpush
    · refine .held ?_ hceiling
      have hpos := M.ceiling_pos
      have hbelow : M.levelOf a < M.ceiling := by
        rw [← hceiling]
        exact hmask.resolve_left (by omega)
      rw [P.frames_eq] at hheld
      have hpush := hheld.push (f := ⟨a, P.mask, .outside⟩) hlevel hbelow hceiling rfl
      rwa [← P.frames_eq] at hpush

/-- The context on top goes on, and the settled state stays. -/
theorem Settled.put [DecidableEq τ] (h : Settled M Ok P s) {activity : Activity σ ω} {mask : Nat}
    {shared : σ} (htop : P.top.activity ≠ .ended)
    (hsituation : Situation M s (P.put activity mask shared)) :
    Settled M Ok (P.put activity mask shared) s := by
  refine ⟨h.ok, ?_, ?_, ?_, hsituation⟩
  · intro t ht
    rw [P.put_thread] at ht
    rw [P.put_activity activity mask shared ht]
    exact h.others t ht
  · rcases h.thread with hcur | hchosen
    · exact .inl (by rwa [P.put_thread])
    · exact .inr (hchosen.put htop activity mask shared)
  · rw [P.put_actors]
    exact h.clock

theorem Closed.top_thread {f : Frame τ η σ ω} (h : Closed M s (f :: P.frames.tail))
    (hf : f.actor = P.top.actor) {t : τ} (ht : P.top.actor = .thread t) :
    t = P.thread := by
  cases hhandlers : P.handlers with
  | nil =>
      rw [Processor.top, hhandlers, List.headD_nil] at ht
      exact (Actor.thread.inj ht).symm
  | cons g rest =>
      have hnil := h.thread_nil (hf.trans ht)
      simp [Processor.frames, hhandlers] at hnil

/-- The context on top completes a step of the atomic system: the state it leaves is the
settled one. -/
theorem Settled.settles [DecidableEq τ] (hM : Lawful M Ok) (h : Settled M Ok P s)
    (hclosed : Closed M s (⟨P.top.actor, P.top.entryMask, .outside⟩ :: P.frames.tail))
    (hstep : Atomic M s l s') (hl : l.actor = P.top.actor) {activity : Activity σ ω}
    (htop : P.top.activity ≠ .ended) (hwait : Waiting M s' P.top.actor activity)
    (hswitch : l.actor = .switcher → activity = .ended) :
    Settled M Ok (P.put activity 0 s') s' := by
  refine ⟨hM.preserves _ _ _ h.ok hstep, ?_, ?_, ?_, .closed ?_ (by simp) (by simp)⟩
  · intro t ht
    rw [P.put_thread] at ht
    rw [P.put_activity activity 0 s' ht]
    refine (h.others t ht).keeps hM h.ok hstep ?_
    rintro t' heq hactor
    obtain rfl := Actor.thread.inj heq
    exact ht (hclosed.top_thread rfl (hl.symm.trans hactor))
  · by_cases hlabel : l.actor = .switcher
    · right
      have hactor : P.top.actor = .switcher := hl.symm.trans hlabel
      have hmem := Processor.top_mem (P := P) (by simp [hactor])
      cases hhandlers : P.handlers with
      | nil => simp [hhandlers] at hmem
      | cons f rest =>
          have hf : P.top = f := by simp [Processor.top, hhandlers]
          refine ⟨{ f with activity := activity }, ?_, hf ▸ hactor, hswitch hlabel⟩
          simp [Processor.put, hhandlers]
    · rcases h.thread with hcur | hchosen
      · left
        rwa [hM.current _ _ _ h.ok hstep hlabel, P.put_thread]
      · exact .inr (hchosen.put htop activity 0 s')
  · rw [P.put_actors]
    by_cases hactor : l.actor = .clock
    · have hmem := Processor.top_mem (P := P) (by simp [← hl, hactor])
      exact .inr (List.mem_map.mpr ⟨_, hmem, hl.symm.trans hactor⟩)
    · exact h.clock.imp_left (hM.clockIdle _ _ _ h.ok hstep hactor)
  · rw [P.put_frames]
    exact (hclosed.atomic hM h.ok rfl hstep hl).setHead hwait

theorem Lawful.level (hM : Lawful M Ok) {a : Actor τ η} {o : ω}
    (h : M.tests s a o = true) : M.ceiling ≤ M.levelOf a := by
  have hlt := M.ceiling_lt
  cases a with
  | service g => exact hM.aware s g o h
  | _ => simp only [System.levelOf_thread, System.levelOf_clock, System.levelOf_switcher]; omega

/-- Unless a section is open and a handler above the ceiling interrupts it, no section is
open. -/
theorem Settled.closed (h : Settled M Ok P s)
    (hlevel : P.top.activity = .outside → M.ceiling ≤ M.levelOf P.top.actor)
    (hin : ∀ o previous rest, P.top.activity ≠ .inside o previous rest) :
    Closed M s (P.top :: P.frames.tail) ∧ P.mask = 0 ∧ P.shared = s := by
  rcases h.situation with ⟨hclosed, hzero, hshared⟩ | ⟨hheld, _⟩
  · rw [P.frames_eq] at hclosed
    exact ⟨hclosed, hzero, hshared⟩
  · rw [P.frames_eq] at hheld
    by_cases hout : P.top.activity = .outside
    · have hbelow := (hheld.outside hout).2.2
      have habove := hlevel hout
      omega
    · obtain ⟨o, code, hf, _⟩ := hheld.inside hout
      exact absurd (congrArg Frame.activity hf) (hin _ _ _)

theorem Settled.inside (h : Settled M Ok P s) {o : ω} {previous : Nat}
    {rest : Code σ Unit} (hin : P.top.activity = .inside o previous rest) :
    previous = 0 ∧ P.mask = M.ceiling ∧
      Closed M s (⟨P.top.actor, P.top.entryMask, .outside⟩ :: P.frames.tail) ∧
      M.ceiling ≤ M.levelOf P.top.actor ∧
      (P.top.actor = .switcher ∨ M.tests s P.top.actor o = true) ∧
      (M.code P.top.actor o).run s = rest.run P.shared := by
  rcases h.situation with ⟨hclosed, _, _⟩ | ⟨hheld, hmask⟩
  · rw [P.frames_eq] at hclosed
    have hwait := hclosed.waiting
    rw [hin] at hwait
    exact hwait.not_inside.elim
  · rw [P.frames_eq] at hheld
    obtain ⟨o', code, hf, hclosed, hlevel, hopen, hrun⟩ := hheld.inside (by simp [hin])
    have hact := congrArg Frame.activity hf
    rw [hin] at hact
    obtain ⟨rfl, rfl, rfl⟩ := Activity.inside.inj hact
    have hentry : P.top.entryMask = 0 := congrArg Frame.entryMask hf
    exact ⟨rfl, hmask, hentry ▸ hclosed, hlevel, hopen, hrun⟩

theorem Settled.held [DecidableEq τ]
    (h : Settled M Ok P s) {o : ω} {rest : Code σ Unit} {shared : σ}
    (hclosed : Closed M s (⟨P.top.actor, P.top.entryMask, .outside⟩ :: P.frames.tail))
    (hlevel : M.ceiling ≤ M.levelOf P.top.actor)
    (hopen : P.top.actor = .switcher ∨ M.tests s P.top.actor o = true)
    (hrun : (M.code P.top.actor o).run s = rest.run shared)
    (htop : P.top.activity ≠ .ended) :
    Settled M Ok (P.put (.inside o 0 rest) M.ceiling shared) s := by
  refine h.put htop (.held ?_ (by simp))
  have hentry : P.top.entryMask = 0 := hclosed.entryMask
  rw [hentry] at hclosed
  rw [P.put_frames, P.put_shared]
  simp only [hentry]
  exact .hold hclosed hlevel hopen hrun

/-- A handler of the lowest level never interrupts a section. -/
theorem Settled.lowest (h : Settled M Ok P s) {f : Frame τ η σ ω}
    {rest : List (Frame τ η σ ω)} (hhandlers : P.handlers = f :: rest)
    (hf : M.levelOf f.actor = M.lowest)
    (hin : ∀ o previous rest, f.activity ≠ .inside o previous rest) :
    rest = [] ∧ P.mask = 0 ∧ P.shared = s ∧
      Waiting M s (.thread P.thread) (P.activity P.thread) := by
  have htop : P.top = f := by simp [Processor.top, hhandlers]
  have hlevel : M.ceiling ≤ M.levelOf P.top.actor := by
    rw [htop, hf]
    exact Nat.le_of_lt M.ceiling_lt
  obtain ⟨hclosed, hzero, hshared⟩ := h.closed (fun _ => hlevel) (by rwa [htop])
  rw [← P.frames_eq, Processor.frames_of_handlers hhandlers] at hclosed
  obtain ⟨t, activity, hbelow, hwait⟩ := hclosed.lowest hf
  cases rest with
  | nil =>
      obtain ⟨⟩ := List.singleton_inj.mp hbelow
      exact ⟨rfl, hzero, hshared, hwait⟩
  | cons g rest => simp [Processor.frames] at hbelow

theorem Settled.tick [DecidableEq τ] (hM : Lawful M Ok) (h : Settled M Ok P s) {x : κ} {next : σ}
    (hactor : P.top.actor = .clock) (hout : P.top.activity = .outside)
    (hclock : M.clock P.shared x = some next) :
    ∃ s', Settled M Ok { P with shared := next } s' ∧ (s' = s ∨ ∃ l, Atomic M s l s') := by
  have hlevel : M.ceiling ≤ M.levelOf P.top.actor := by
    rw [hactor]
    exact Nat.le_of_lt M.ceiling_lt
  obtain ⟨hclosed, hzero, rfl⟩ := h.closed (fun _ => hlevel) (by simp [hout])
  have hatomic : Atomic M P.shared (.clock x) next := .clock hclock
  have hnext := h.settles hM (hclosed.setHead .outside) hatomic hactor.symm (by simp [hout])
    .outside (by simp [Label.actor])
  rw [← hzero, Processor.put_self hout] at hnext
  exact ⟨next, hnext, .inr ⟨_, hatomic⟩⟩

theorem Settled.leaveService (h : Settled M Ok P s) {f : Frame τ η σ ω}
    {rest : List (Frame τ η σ ω)} {g : η} (hhandlers : P.handlers = f :: rest)
    (hactor : f.actor = .service g) (hout : f.activity = .outside) :
    Settled M Ok { P with handlers := rest } s := by
  have hframes := Processor.frames_of_handlers hhandlers
  refine ⟨h.ok, h.others, ?_, ?_, ?_⟩
  · rcases h.thread with hcur | ⟨f', hf', hchosen⟩
    · exact .inl hcur
    · rw [hhandlers] at hf'
      rcases List.mem_cons.mp hf' with rfl | hrest
      · simp [hactor] at hchosen
      · exact .inr ⟨f', hrest, hchosen⟩
  · refine h.clock.imp_right fun hmem => ?_
    simpa [hhandlers, hactor] using hmem
  · rcases h.situation with ⟨hclosed, hzero, hshared⟩ | ⟨hheld, hmask⟩
    · rw [hframes] at hclosed
      exact .closed (hclosed.pop (Processor.frames_ne_nil _)) hzero hshared
    · rw [hframes] at hheld
      exact .held (hheld.outside hout).1 hmask

theorem Settled.leaveClock (h : Settled M Ok P s) {f : Frame τ η σ ω}
    {rest : List (Frame τ η σ ω)} (hhandlers : P.handlers = f :: rest)
    (hactor : f.actor = .clock) (hout : f.activity = .outside)
    (hidle : M.clockIdle P.shared = true) : Settled M Ok { P with handlers := rest } s := by
  obtain ⟨rfl, hzero, rfl, hwait⟩ := h.lowest hhandlers (by simp [hactor]) (by simp [hout])
  refine ⟨h.ok, h.others, .inl (h.thread.resolve_right ?_), .inl hidle,
    .closed (.thread hwait) hzero rfl⟩
  rintro ⟨f', hf', hswitch, _⟩
  rw [hhandlers, List.mem_singleton] at hf'
  simp [hf', hactor] at hswitch

variable [DecidableEq τ]

theorem Settled.leaveSwitcher (h : Settled M Ok P s) {f : Frame τ η σ ω}
    {rest : List (Frame τ η σ ω)} {t : τ} (hhandlers : P.handlers = f :: rest)
    (hactor : f.actor = .switcher) (hended : f.activity = .ended)
    (hcurrent : M.current P.shared = some t) :
    Settled M Ok { P with handlers := rest, thread := t } s := by
  obtain ⟨rfl, hzero, rfl, hwait⟩ := h.lowest hhandlers (by simp [hactor]) (by simp [hended])
  have hothers : ∀ t', Waiting M P.shared (.thread t') (P.activity t') := by
    intro t'
    by_cases heq : t' = P.thread
    · rw [heq]
      exact hwait
    · exact h.others t' heq
  refine ⟨h.ok, fun t' _ => hothers t', .inl hcurrent, ?_, .closed (.thread (hothers t)) hzero rfl⟩
  refine .inl (h.clock.resolve_right ?_)
  simp [hhandlers, hactor]

/-- The settled state keeps up: a step leaves it, or is a step of the atomic system. -/
theorem Settled.step (hM : Lawful M Ok) (h : Settled M Ok P s) (hstep : Step M P e P') :
    ∃ s', Settled M Ok P' s' ∧ (s' = s ∨ ∃ l, Atomic M s l s') := by
  cases hstep with
  | take hlevel hmask => exact ⟨s, h.take hlevel hmask, .inl rfl⟩
  | test hout htest =>
      obtain ⟨hclosed, hzero, rfl⟩ := h.closed (fun _ => hM.level htest) (by simp [hout])
      refine ⟨_, h.put (by simp [hout]) (.closed ?_ (by simpa) (by simp)), .inl rfl⟩
      rw [P.put_frames]
      exact hclosed.setHead (.tested htest)
  | free hout hlevel hfree =>
      rename_i x next
      obtain ⟨hclosed, hzero, rfl⟩ := h.closed (fun _ => hlevel) (by simp [hout])
      have hidle : Closed M P.shared ({ P.top with activity := .outside } :: P.frames.tail) :=
        hclosed.setHead .outside
      have hatomic : Atomic M P.shared (.free P.top.actor x) next := .free (h.mayAct hidle) hfree
      have hnext := h.settles hM hidle hatomic rfl (by simp [hout]) .outside
        (fun hactor => by
          simp [show P.top.actor = .switcher from hactor, hM.free_switcher] at hfree)
      rw [← hzero, Processor.put_self hout] at hnext
      exact ⟨next, hnext, .inr ⟨_, hatomic⟩⟩
  | freeAbove => exact ⟨s, h, .inl rfl⟩
  | save htested =>
      obtain ⟨hclosed, hzero, rfl⟩ := h.closed (by simp [htested]) (by simp [htested])
      have hwait := hclosed.waiting
      rw [htested] at hwait
      obtain ⟨htest⟩ := hwait
      refine ⟨_, h.put (by simp [htested]) (.closed ?_ (by simpa) (by simp)), .inl rfl⟩
      rw [P.put_frames, hzero]
      exact hclosed.setHead (.saved ‹_›)
  | raise hsaved =>
      obtain ⟨hclosed, hzero, rfl⟩ := h.closed (by simp [hsaved]) (by simp [hsaved])
      have hwait := hclosed.waiting
      rw [hsaved] at hwait
      cases hwait with
      | saved htest =>
          have hraised : raised M.ceiling P.mask = M.ceiling := by simp [raised, hzero]
          rw [hraised]
          exact ⟨_, h.held (hclosed.setHead .outside) (hM.level htest) (.inr htest) rfl
            (by simp [hsaved]), .inl rfl⟩
  | begin hactor hout =>
      have hlevel : M.ceiling ≤ M.levelOf P.top.actor := by
        rw [hactor]
        exact Nat.le_of_lt M.ceiling_lt
      obtain ⟨hclosed, hzero, rfl⟩ := h.closed (fun _ => hlevel) (by simp [hout])
      rw [← hactor]
      exact ⟨_, h.held (hclosed.setHead .outside) hlevel (.inl hactor) rfl (by simp [hout]),
        .inl rfl⟩
  | access hin hnext =>
      obtain ⟨rfl, hmask, hclosed, hlevel, hopen, hrun⟩ := h.inside hin
      rw [run_of_step hnext] at hrun
      rw [hmask]
      exact ⟨s, h.held hclosed hlevel hopen hrun (by simp [hin]), .inl rfl⟩
  | lower hactor hin =>
      obtain ⟨rfl, hmask, hclosed, hlevel, hopen, hrun⟩ := h.inside hin
      have hatomic := Atomic.op (h.mayAct hclosed) hopen hrun
      exact ⟨_, h.settles hM hclosed hatomic rfl (by simp [hin]) .outside
        (fun hswitch => absurd hswitch hactor), .inr ⟨_, hatomic⟩⟩
  | lowerSwitcher hactor hin =>
      obtain ⟨rfl, hmask, hclosed, hlevel, hopen, hrun⟩ := h.inside hin
      have hatomic := Atomic.op (h.mayAct hclosed) hopen hrun
      exact ⟨_, h.settles hM hclosed hatomic rfl (by simp [hin]) (.ended hactor) (fun _ => rfl),
        .inr ⟨_, hatomic⟩⟩
  | tick hactor hout hclock => exact h.tick hM hactor hout hclock
  | leaveService hhandlers hactor hout => exact ⟨s, h.leaveService hhandlers hactor hout, .inl rfl⟩
  | leaveClock hhandlers hactor hout hidle =>
      exact ⟨s, h.leaveClock hhandlers hactor hout hidle, .inl rfl⟩
  | leaveSwitcher hhandlers hactor hended hcurrent =>
      exact ⟨s, h.leaveSwitcher hhandlers hactor hended hcurrent, .inl rfl⟩

end Invariant

end Stm32f411.SettledSections
