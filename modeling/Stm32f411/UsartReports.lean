import Stm32f411.UsartReceive

/-!
What `usart_receive` and `usart_read_byte` report of the errors they read. A wait without a
time-out may never end, and then nothing is reported.
-/

namespace Stm32f411.UsartReports

open Stm32f411.RegisterPrograms
open Stm32f411.RtosTypes
open Stm32f411.UsartReceive

section Receive

variable {sr dr : Nat → Word} {timeout : Word}

/-- The course of a call that is to receive a byte: it is given up in the wait, receives the
byte and goes on, or fails. -/
inductive ReceiveCourse (sr dr : Nat → Word) (timeout : Word) (polls index remaining n d : Nat)
    (outcome : Option Int) : List UsartAccess → Prop
  | givenUp : outcome = none → (∀ j < polls, Quiet sr timeout n j) →
      ReceiveCourse sr dr timeout polls index remaining n d outcome (polled sr n (2 * polls))
  | byte {m : Nat} {w : Word} {rest : List UsartAccess} : WaitEnds sr timeout n m →
      HasByte (sr (n + 2 * m)) → Answers sr dr (n + 2 * m + 1) (d + 1) rest →
      Ends (receiveFrom timeout polls (index + 1) remaining) rest outcome →
      ReceiveCourse sr dr timeout polls index remaining n d outcome
        (polled sr n (2 * m + 1) ++
          .read .dr w :: .store .assign (.data index) (w &&& 0xFF) :: rest)
  | failed {m : Nat} {trace : List UsartAccess} {result : Int} : outcome = some result →
      WaitEnds sr timeout n m → ¬HasByte (sr (n + 2 * m)) →
      WaitOutcome sr n 0 m trace result →
      ReceiveCourse sr dr timeout polls index remaining n d outcome trace

theorem receiveFrom_course {polls index remaining n d : Nat} {trace : List UsartAccess}
    {outcome : Option Int}
    (h : Ends (receiveFrom timeout polls index (remaining + 1)) trace outcome)
    (hanswers : Answers sr dr n d trace) :
    ReceiveCourse sr dr timeout polls index remaining n d outcome trace := by
  rw [receiveFrom, ends_bind] at h
  obtain ⟨waited, ended, after, rfl, hwait, hafter⟩ := h
  split at hafter
  · next hzero =>
      obtain rfl := hzero
      obtain ⟨m, hm, houtcome⟩ := wait_ends hwait hanswers.left
      cases houtcome with
      | byte hbyte =>
          rw [ends_readReg_bind] at hafter
          obtain ⟨w, rest, rfl, hafter⟩ := hafter
          rw [ends_assignReg_bind] at hafter
          obtain ⟨rest, rfl, hrest⟩ := hafter
          have hstart : Answers sr dr (n + (2 * m + 1)) d (.read .dr w ::
              .store .assign (.data index) (w &&& 0xFF) :: rest) :=
            (answers_polled _ _ _).mp hanswers
          exact .byte hm hbyte hstart.2 hrest
  · next hnonzero =>
      obtain ⟨rfl, rfl⟩ := ends_done.mp hafter
      rw [List.append_nil] at hanswers ⊢
      cases outcome with
      | none =>
          obtain ⟨rfl, hquiet⟩ := wait_givenUp hwait hanswers
          exact .givenUp rfl hquiet
      | some result =>
          obtain ⟨m, hm, houtcome⟩ := wait_ends hwait hanswers
          refine .failed rfl hm ?_ houtcome
          cases houtcome with
          | byte _ => exact absurd rfl hnonzero
          | error hnone _ => exact hnone
          | timedOut hnone _ => exact hnone

/-- Up to the end of a wait only the loop tests can have read an error flag. -/
theorem forall_polled_iff {n m : Nat} (hm : WaitEnds sr timeout n m) :
    (∀ i < 2 * m + 1, ¬HasError (sr (n + i))) ↔ ∀ j ≤ m, ¬HasError (sr (n + 2 * j)) := by
  constructor
  · exact fun h j hj => h (2 * j) (by omega)
  · intro h i hi
    obtain ⟨j, rfl | rfl⟩ : ∃ j, i = 2 * j ∨ i = 2 * j + 1 := ⟨i / 2, by omega⟩
    · exact h j (by omega)
    · exact (hm.1 j (by omega)).2.1

/-- A wait that ends with a byte. -/
theorem overlooked_received_iff {n m remaining : Nat} (hm : WaitEnds sr timeout n m)
    (hbyte : HasByte (sr (n + 2 * m))) : Overlooked sr timeout n (remaining + 1) ↔
      (∃ j ≤ m, HasError (sr (n + 2 * j))) ∨
        Overlooked sr timeout (n + 2 * m + 1) remaining := by
  constructor
  · rintro (⟨hm', _, hj, herror⟩ | ⟨hquiet, _⟩ | ⟨hm', _, hlater⟩)
    · obtain rfl := waitEnds_unique hm hm'
      exact Or.inl ⟨_, hj, herror⟩
    · exact absurd (hquiet m) hm.2
    · obtain rfl := waitEnds_unique hm hm'
      exact Or.inr hlater
  · rintro (⟨j, hj, herror⟩ | hlater)
    · exact .here hm (Or.inl hbyte) hj herror
    · exact .later hm hbyte hlater

/-- A wait that ends without one. -/
theorem overlooked_failed_iff {n m remaining : Nat} (hm : WaitEnds sr timeout n m)
    (hnone : ¬HasByte (sr (n + 2 * m))) : Overlooked sr timeout n (remaining + 1) ↔
      ¬HasError (sr (n + 2 * m + 1)) ∧ ∃ j ≤ m, HasError (sr (n + 2 * j)) := by
  constructor
  · rintro (⟨hm', hend, hj, herror⟩ | ⟨hquiet, _⟩ | ⟨hm', hbyte, _⟩)
    · obtain rfl := waitEnds_unique hm hm'
      exact ⟨hend.resolve_left hnone, _, hj, herror⟩
    · exact absurd (hquiet m) hm.2
    · obtain rfl := waitEnds_unique hm hm'
      exact absurd hbyte hnone
  · rintro ⟨hclean, j, hj, herror⟩
    exact .here hm (Or.inr hclean) hj herror

/-- An error flag is noticed in every case but one. -/
theorem noticed_iff {polls index remaining n d : Nat} {trace : List UsartAccess} {result : Int}
    (h : Ends (receiveFrom timeout polls index remaining) trace (some result))
    (hanswers : Answers sr dr n d trace) :
    Noticed result trace ↔ ¬Overlooked sr timeout n remaining := by
  induction remaining generalizing index n d trace with
  | zero =>
      obtain ⟨rfl, _⟩ := ends_done.mp h
      simp only [Noticed, true_iff]
      rintro ⟨⟩
  | succ remaining ih =>
      cases receiveFrom_course h hanswers with
      | givenUp hnone _ => exact absurd hnone (by simp)
      | @byte m w rest hm hbyte hrest htail =>
          have hstored : ¬(result = -5 ∧ (Access.read Location.dr w ::
              .store .assign (.data index) (w &&& 0xFF) :: rest).filterMap storedByte = []) := by
            simp [storedByte]
          have hpolled : (∀ i < 2 * m + 1, HasError (sr (n + i)) → result = -5 ∧
              (Access.read Location.dr w :: .store .assign (.data index) (w &&& 0xFF) ::
                rest).filterMap storedByte = []) ↔ ¬∃ j ≤ m, HasError (sr (n + 2 * j)) := by
            rw [not_exists]
            simp only [not_and, ← forall_polled_iff hm]
            exact forall₂_congr fun i _ => ⟨fun hi he => hstored (hi he), fun hi he => absurd he hi⟩
          have hlater := ih htail hrest
          have hskip : Noticed result (.read .dr w ::
              .store .assign (.data index) (w &&& 0xFF) :: rest) ↔ Noticed result rest := Iff.rfl
          rw [noticed_polled, hpolled, overlooked_received_iff hm hbyte, not_or, hskip, hlater]
      | @failed m _ _ hresult hm hnone houtcome =>
          obtain rfl := Option.some.inj hresult
          rw [overlooked_failed_iff hm hnone]
          cases houtcome with
          | byte hbyte => exact absurd hbyte hnone
          | error _ herror =>
              refine iff_of_true ?_ fun h => h.1 herror
              rw [noticed_polled]
              exact ⟨fun _ _ _ => ⟨rfl, rfl⟩, trivial⟩
          | timedOut _ hclean =>
              rw [← List.append_nil (polled _ _ _), noticed_polled]
              have hquiet := forall_polled_iff hm
              constructor
              · rintro ⟨hall, _⟩ ⟨_, j, hj, herror⟩
                exact absurd (hall (2 * j) (by omega) herror).1 (by decide)
              · intro hnever
                refine ⟨fun i hi herror => ?_, trivial⟩
                have hclean' : ∀ j ≤ m, ¬HasError (sr (n + 2 * j)) := fun j hj he =>
                  hnever ⟨hclean, j, hj, he⟩
                rcases Nat.lt_succ_iff_lt_or_eq.mp hi with hlt | rfl
                · exact absurd herror (hquiet.mpr hclean' i hlt)
                · exact absurd herror hclean

theorem noticed_flagged {result : Int} {before after : List UsartAccess} {v : Word}
    (h : Noticed result (before ++ .read .sr v :: after)) (herror : HasError v) :
    result = -5 := by
  induction before with
  | nil => exact (h.1 herror).1
  | cons access before ih =>
      cases access with
      | read r v =>
          cases r with
          | sr => exact ih h.2
          | dr => exact ih h
          | data index => exact ih h
      | store how r v => exact ih h

theorem noticed_undamaged {trace : List UsartAccess} (h : Noticed 0 trace) : Undamaged trace := by
  rintro before v w index byte after rfl herror
  exact absurd (noticed_flagged h herror) (by decide)

theorem storedInOrder_nil {index : Nat} {trace : List UsartAccess}
    (h : trace.filterMap storedByte = []) : StoredInOrder index trace := by
  rw [StoredInOrder, h]
  rfl

theorem receiveFrom_inOrder {polls index remaining n d : Nat} {trace : List UsartAccess}
    {outcome : Option Int} (h : Ends (receiveFrom timeout polls index remaining) trace outcome)
    (hanswers : Answers sr dr n d trace) : StoredInOrder index trace := by
  induction remaining generalizing index n d trace with
  | zero =>
      obtain ⟨rfl, _⟩ := ends_done.mp h
      exact storedInOrder_nil rfl
  | succ remaining ih =>
      cases receiveFrom_course h hanswers with
      | givenUp _ _ => exact storedInOrder_nil (stored_polled _ _)
      | @byte m w rest _ _ hrest htail =>
          have hlater := ih htail hrest
          rw [StoredInOrder] at hlater ⊢
          have hstored : (Access.read Location.dr w :: .store .assign (.data index) (w &&& 0xFF) ::
              rest).filterMap storedByte =
                (w &&& 0xFF, index) :: rest.filterMap storedByte := rfl
          have hdr : (Access.read Location.dr w :: .store .assign (.data index) (w &&& 0xFF) ::
              rest).filterMap drValue = w :: rest.filterMap drValue := rfl
          rw [List.filterMap_append, List.filterMap_append, stored_polled, drs_polled,
            List.nil_append, List.nil_append, hstored, hdr, List.length_cons,
            List.take_succ_cons, List.map_cons, List.zipIdx_cons, ← hlater]
      | failed _ _ _ houtcome =>
          cases houtcome with
          | byte _ => exact storedInOrder_nil (stored_polled _ _)
          | error _ _ =>
              refine storedInOrder_nil ?_
              rw [List.filterMap_append, stored_polled]
              rfl
          | timedOut _ _ => exact storedInOrder_nil (stored_polled _ _)

end Receive

section Calls

variable {sr dr : Nat → Word} {timeout : Word}

/-- Some run of a program reads the given values. -/
theorem exists_answers (sr dr : Nat → Word) {α : Type} (p : UsartProgram α) (n d : Nat) :
    ∃ trace a, Ends p trace a ∧ Answers sr dr n d trace := by
  induction p generalizing n d with
  | done a => exact ⟨[], a, .done, trivial⟩
  | read r next ih =>
      cases r with
      | sr =>
          obtain ⟨trace, a, hends, hanswers⟩ := ih (sr n) (n + 1) d
          exact ⟨_, a, .read hends, rfl, hanswers⟩
      | dr =>
          obtain ⟨trace, a, hends, hanswers⟩ := ih (dr d) n (d + 1)
          exact ⟨_, a, .read hends, rfl, hanswers⟩
      | data index =>
          obtain ⟨trace, a, hends, hanswers⟩ := ih 0 n d
          exact ⟨_, a, .read hends, hanswers⟩
  | store how r v next ih =>
      obtain ⟨trace, a, hends, hanswers⟩ := ih n d
      exact ⟨_, a, .store hends, hanswers⟩

/-- With a timeout the wait ends by itself. -/
theorem waitRxne_returns (htimeout : timeout ≠ 0) {polls : Nat} {count : Word}
    {trace : List UsartAccess} {outcome : Option Int} (hcount : 0 < count.toNat)
    (hpolls : count.toNat ≤ polls) (h : Ends (waitRxne timeout polls count) trace outcome) :
    outcome ≠ none := by
  induction polls generalizing count trace with
  | zero => omega
  | succ polls ih =>
      rw [waitRxne, ends_readReg_bind] at h
      obtain ⟨status, rest, rfl, h⟩ := h
      split at h
      · simp [(ends_done.mp h).2]
      · rw [ends_readReg_bind] at h
        obtain ⟨value, rest, rfl, h⟩ := h
        split at h
        · rw [ends_readReg_bind] at h
          obtain ⟨_, _, _, h⟩ := h
          simp [(ends_done.mp h).2]
        · split at h
          · simp [(ends_done.mp h).2]
          · next hleft => exact ih (by bv_omega) (by bv_omega) h

theorem receiveFrom_returns (htimeout : timeout ≠ 0) {polls index remaining : Nat}
    {trace : List UsartAccess} {outcome : Option Int} (hpolls : timeout.toNat ≤ polls)
    (h : Ends (receiveFrom timeout polls index remaining) trace outcome) : outcome ≠ none := by
  induction remaining generalizing index trace with
  | zero => simp [(ends_done.mp h).2]
  | succ remaining ih =>
      rw [receiveFrom, ends_bind] at h
      obtain ⟨waited, ended, after, rfl, hwait, hafter⟩ := h
      split at hafter
      · rw [ends_readReg_bind] at hafter
        obtain ⟨w, rest, rfl, hafter⟩ := hafter
        rw [ends_assignReg_bind] at hafter
        obtain ⟨rest, rfl, hrest⟩ := hafter
        exact ih hrest
      · rw [(ends_done.mp hafter).2]
        exact waitRxne_returns htimeout (by bv_omega) hpolls hwait

/-- A call with a timeout returns. -/
theorem usartReceive_returns (htimeout : timeout ≠ 0) {polls : Nat}
    {instancePtr data : Option BufferPtr} {len : Word} {trace : List UsartAccess}
    {outcome : Option Int} (hpolls : timeout.toNat ≤ polls)
    (h : Ends (usartReceive polls instancePtr data len timeout) trace outcome) :
    outcome ≠ none := by
  unfold usartReceive at h
  split at h
  · simp [(ends_done.mp h).2]
  · exact receiveFrom_returns htimeout hpolls h

/-- Enough turns bring an overlooked flag into the trace. -/
theorem overlooked_flagged {n remaining : Nat} (h : Overlooked sr timeout n remaining) :
    ∃ turns, ∀ polls, turns ≤ polls → ∀ index d trace outcome,
      Ends (receiveFrom timeout polls index remaining) trace outcome →
      Answers sr dr n d trace → Flagged trace := by
  induction h with
  | @here n m j remaining hm _ hj herror =>
      refine ⟨m + 1, fun polls hpolls index d trace outcome hends hanswers => ?_⟩
      cases receiveFrom_course hends hanswers with
      | givenUp _ hquiet => exact absurd (hquiet m hpolls) hm.2
      | byte hm' _ _ _ =>
          obtain rfl := waitEnds_unique hm hm'
          exact flagged_append.mpr (Or.inl ((flagged_polled _ _).mpr ⟨2 * j, by omega, herror⟩))
      | failed _ hm' _ houtcome =>
          obtain rfl := waitEnds_unique hm hm'
          cases houtcome with
          | byte _ => exact (flagged_polled _ _).mpr ⟨2 * j, by omega, herror⟩
          | error _ _ =>
              exact flagged_append.mpr (Or.inl ((flagged_polled _ _).mpr ⟨2 * j, by omega, herror⟩))
          | timedOut _ _ => exact (flagged_polled _ _).mpr ⟨2 * j, by omega, herror⟩
  | @forever n j remaining hforever herror =>
      refine ⟨j + 1, fun polls hpolls index d trace outcome hends hanswers => ?_⟩
      cases receiveFrom_course hends hanswers with
      | givenUp _ _ => exact (flagged_polled _ _).mpr ⟨2 * j, by omega, herror⟩
      | byte hm _ _ _ => exact absurd (hforever _) hm.2
      | failed _ hm _ _ => exact absurd (hforever _) hm.2
  | @later n m remaining hm hbyte _ ih =>
      obtain ⟨turns, hturns⟩ := ih
      refine ⟨max turns (m + 1), fun polls hpolls index d trace outcome hends hanswers => ?_⟩
      cases receiveFrom_course hends hanswers with
      | givenUp _ hquiet => exact absurd (hquiet m (by omega)) hm.2
      | @byte _ w rest hm' _ hrest htail =>
          obtain rfl := waitEnds_unique hm hm'
          obtain ⟨v, hv, herror⟩ := hturns polls (by omega) _ _ _ _ htail hrest
          exact ⟨v, by simp [hv], herror⟩
      | failed _ hm' hnone _ =>
          obtain rfl := waitEnds_unique hm hm'
          exact absurd hbyte hnone

/-- A call returns, or it waits for ever and overlooks the flags it has read. -/
theorem returns_or_waits (sr dr : Nat → Word) (timeout : Word) (index remaining n d : Nat) :
    (∃ turns, ∀ polls, turns ≤ polls → ∀ trace outcome,
      Ends (receiveFrom timeout polls index remaining) trace outcome →
      Answers sr dr n d trace → outcome ≠ none) ∨
    ∀ polls trace outcome, Ends (receiveFrom timeout polls index remaining) trace outcome →
      Answers sr dr n d trace →
      outcome = none ∧ (Flagged trace → Overlooked sr timeout n remaining) := by
  induction remaining generalizing index n d with
  | zero => exact Or.inl ⟨0, fun _ _ _ _ hends _ => by simp [(ends_done.mp hends).2]⟩
  | succ remaining ih =>
      -- a flag read in a wait that was not noticed there
      have hwaited : ∀ {k}, Flagged (polled sr n k) →
          (∀ j, 2 * j + 1 < k → Quiet sr timeout n j) →
          ∃ j, 2 * j < k ∧ HasError (sr (n + 2 * j)) := by
        intro k hflagged hquiet
        obtain ⟨i, hi, herror⟩ := (flagged_polled n k).mp hflagged
        obtain ⟨j, rfl | rfl⟩ : ∃ j, i = 2 * j ∨ i = 2 * j + 1 := ⟨i / 2, by omega⟩
        · exact ⟨j, hi, herror⟩
        · exact absurd herror (hquiet j hi).2.1
      rcases wait_ends_or_not sr timeout n with ⟨m, hm⟩ | hforever
      · by_cases hbyte : HasByte (sr (n + 2 * m))
        · rcases ih (index + 1) (n + 2 * m + 1) (d + 1) with ⟨turns, hturns⟩ | hwaits
          · refine Or.inl ⟨max turns (m + 1), fun polls hpolls trace outcome hends hanswers => ?_⟩
            cases receiveFrom_course hends hanswers with
            | givenUp _ hquiet => exact absurd (hquiet m (by omega)) hm.2
            | byte hm' _ hrest htail =>
                obtain rfl := waitEnds_unique hm hm'
                exact hturns polls (by omega) _ _ htail hrest
            | failed hresult _ _ _ => simp [hresult]
          · refine Or.inr fun polls trace outcome hends hanswers => ?_
            cases receiveFrom_course hends hanswers with
            | givenUp hnone hquiet =>
                have hpolls : polls ≤ m := Nat.le_of_not_lt fun hlt => hm.2 (hquiet m hlt)
                refine ⟨hnone, fun hflagged => ?_⟩
                obtain ⟨j, hj, herror⟩ := hwaited hflagged fun i hi => hquiet i (by omega)
                exact .here hm (Or.inl hbyte) (by omega) herror
            | byte hm' _ hrest htail =>
                obtain rfl := waitEnds_unique hm hm'
                obtain ⟨hnone, hlater⟩ := hwaits polls _ _ htail hrest
                refine ⟨hnone, fun hflagged => ?_⟩
                rcases flagged_append.mp hflagged with hhere | ⟨v, hv, herror⟩
                · obtain ⟨j, hj, herror⟩ := hwaited hhere fun i hi => hm.1 i (by omega)
                  exact .here hm (Or.inl hbyte) (by omega) herror
                · exact .later hm hbyte (hlater ⟨v, by simpa using hv, herror⟩)
            | failed _ hm' hnone _ =>
                obtain rfl := waitEnds_unique hm hm'
                exact absurd hbyte hnone
        · refine Or.inl ⟨m + 1, fun polls hpolls trace outcome hends hanswers => ?_⟩
          cases receiveFrom_course hends hanswers with
          | givenUp _ hquiet => exact absurd (hquiet m hpolls) hm.2
          | byte hm' hbyte' _ _ =>
              obtain rfl := waitEnds_unique hm hm'
              exact absurd hbyte' hbyte
          | failed hresult _ _ _ => simp [hresult]
      · refine Or.inr fun polls trace outcome hends hanswers => ?_
        cases receiveFrom_course hends hanswers with
        | givenUp hnone _ =>
            refine ⟨hnone, fun hflagged => ?_⟩
            obtain ⟨j, _, herror⟩ := hwaited hflagged fun i _ => hforever i
            exact .forever hforever herror
        | byte hm _ _ _ => exact absurd (hforever _) hm.2
        | failed _ hm _ _ => exact absurd (hforever _) hm.2

theorem reported_iff {polls remaining : Nat} {trace : List UsartAccess} {result : Int}
    (h : Ends (receiveFrom timeout polls 0 remaining) trace (some result))
    (hanswers : Answers sr dr 0 0 trace) :
    Reported result trace ↔ ¬Overlooked sr timeout 0 remaining := by
  rw [← noticed_iff h hanswers]
  constructor
  · exact fun hreported => hreported.2.1
  · intro hnoticed
    refine ⟨?_, hnoticed, receiveFrom_inOrder h hanswers⟩
    rintro rfl
    exact noticed_undamaged hnoticed

/-- A call reports unless it overlooks, whether it returns or not. -/
theorem reports_iff (sr dr : Nat → Word) (timeout : Word) (remaining : Nat) :
    Reports sr dr (fun polls => receiveFrom timeout polls 0 remaining) ↔
      ¬Overlooked sr timeout 0 remaining := by
  rcases returns_or_waits sr dr timeout 0 remaining 0 0 with ⟨turns, hturns⟩ | hwaits
  · obtain ⟨trace, outcome, hends, hanswers⟩ :=
      exists_answers sr dr (receiveFrom timeout turns 0 remaining) 0 0
    have hsome := hturns turns (Nat.le_refl turns) trace outcome hends hanswers
    obtain ⟨result, rfl⟩ := Option.ne_none_iff_exists'.mp hsome
    constructor
    · exact fun h => (reported_iff hends hanswers).mp (h.returned turns trace result hends hanswers)
    · intro hclean
      refine ⟨fun polls trace result hends hanswers => (reported_iff hends hanswers).mpr hclean,
        fun hnever => ?_⟩
      exact absurd (hnever turns trace _ hends hanswers) hsome
  · have hnever : NeverReturns sr dr fun polls => receiveFrom timeout polls 0 remaining :=
      fun polls trace outcome hends hanswers => (hwaits polls trace outcome hends hanswers).1
    constructor
    · intro h hover
      obtain ⟨turns, hflagged⟩ := overlooked_flagged hover
      obtain ⟨trace, outcome, hends, hanswers⟩ :=
        exists_answers sr dr (receiveFrom timeout turns 0 remaining) 0 0
      exact h.silent hnever turns trace outcome hends hanswers
        (hflagged turns (Nat.le_refl turns) 0 0 trace outcome hends hanswers)
    · intro hclean
      refine ⟨fun polls trace result hends hanswers => ?_,
        fun _ polls trace outcome hends hanswers hflagged => ?_⟩
      · exact absurd (hnever polls trace _ hends hanswers) (by simp)
      · exact hclean ((hwaits polls trace outcome hends hanswers).2 hflagged)

theorem reports_refused (sr dr : Nat → Word) : Reports sr dr fun _ => pure (some (-1)) := by
  refine ⟨fun polls trace result hends hanswers => ?_, fun hnever => ?_⟩
  · obtain ⟨rfl, hresult⟩ := ends_done.mp hends
    obtain rfl := Option.some.inj hresult
    exact ⟨fun h => absurd h (by decide), trivial, storedInOrder_nil rfl⟩
  · exact absurd (hnever 0 [] (some (-1)) .done trivial) (by simp)

theorem usartReceive_reports_iff (sr dr : Nat → Word) (instancePtr data : Option BufferPtr)
    (len timeout : Word) :
    Reports sr dr (fun polls => usartReceive polls instancePtr data len timeout) ↔
      (instancePtr = none ∨ data = none) ∨ ¬Overlooked sr timeout 0 len.toNat := by
  by_cases hnull : instancePtr = none ∨ data = none
  · simp only [usartReceive, if_pos hnull]
    exact iff_of_true (reports_refused sr dr) (Or.inl hnull)
  · simp only [usartReceive, if_neg hnull]
    rw [or_iff_right hnull, reports_iff]

/-- A call reports its errors if and only if no error flag was overlooked in the SR values of
a wait. With a timeout it returns. -/
theorem receive_reports_iff (sr dr : Nat → Word) (instancePtr data : Option BufferPtr)
    (len timeout : Word) :
    (Reports sr dr (fun polls => usartReceive polls instancePtr data len timeout) ↔
      (instancePtr = none ∨ data = none) ∨ ¬Overlooked sr timeout 0 len.toNat) ∧
    (Reports sr dr (fun polls => usartReadByte polls instancePtr data timeout) ↔
      (instancePtr = none ∨ data = none) ∨ ¬Overlooked sr timeout 0 1) ∧
    (timeout ≠ 0 →
      ¬NeverReturns sr dr fun polls => usartReceive polls instancePtr data len timeout) := by
  refine ⟨usartReceive_reports_iff sr dr instancePtr data len timeout, ?_,
    fun htimeout hnever => ?_⟩
  · cases data with
    | none => exact iff_of_true (reports_refused sr dr) (Or.inl (Or.inr rfl))
    | some p => exact usartReceive_reports_iff sr dr instancePtr (some p) 1 timeout
  · obtain ⟨trace, outcome, hends, hanswers⟩ := exists_answers sr dr
      (usartReceive timeout.toNat instancePtr data len timeout) 0 0
    exact usartReceive_returns htimeout (Nat.le_refl _) hends
      (hnever timeout.toNat trace outcome hends hanswers)

/-- One byte, with RXNE and FE in the same SR value: the call returns 0. -/
theorem damaged_byte_accepted :
    Ends (usartReceive 3 (some 0) (some 0) 1 3)
        [.read .sr 0x22, .read .dr 0x41, .store .assign (.data 0) 0x41] (some 0) ∧
      ¬Reports (fun _ => 0x22) (fun _ => 0x41)
        (fun polls => usartReceive polls (some 0) (some 0) 1 3) := by
  have hends : Ends (usartReceive 3 (some 0) (some 0) 1 3)
      [.read .sr 0x22, .read .dr 0x41, .store .assign (.data 0) 0x41] (some 0) :=
    .read (.read (.store .done))
  refine ⟨hends, fun h => ?_⟩
  obtain ⟨hclean, -⟩ := h.returned 3 _ 0 hends ⟨rfl, rfl, trivial⟩
  have hsr := hclean rfl [] 0x22 0x41 0 0x41 [] rfl
  exact hsr (by decide)

/-- A turn without a byte, then a byte without an error; and a wait without a bound, whose
first loop test reads ORE. -/
theorem receive_reports_iff_demo :
    Reports (fun n => if n = 2 then 0x20 else 0) (fun _ => 0x41)
        (fun polls => usartReceive polls (some 0) (some 0) 1 3) ∧
      ¬Reports (fun n => if n = 0 then 0x8 else 0) (fun _ => 0x41)
        (fun polls => usartReceive polls (some 0) (some 0) 1 0) := by
  have hquiet : ∀ i, Quiet (fun n => if n = 0 then 0x8 else 0) 0 0 i := by
    intro i
    refine ⟨?_, ?_, fun h => absurd rfl h⟩
    · change ¬(if 0 + 2 * i = 0 then 0x8 else 0) &&& usartSrRxne ≠ 0
      split <;> decide
    · simp [HasError]
  have hclean : ∀ i, ¬HasError (if i = 2 then 0x20 else 0) := by
    intro i
    split <;> decide
  constructor
  · refine (receive_reports_iff _ _ _ _ _ _).1.mpr (Or.inr ?_)
    rintro (⟨_, _, _, herror⟩ | ⟨_, herror⟩ | ⟨_, _, hlater⟩)
    · exact hclean _ herror
    · exact hclean _ herror
    · cases hlater
  · intro h
    have hover : Overlooked (fun n => if n = 0 then 0x8 else 0) 0 0 1 :=
      .forever (j := 0) hquiet (by decide)
    rcases (receive_reports_iff _ _ _ _ _ _).1.mp h with hnull | hno
    · simp at hnull
    · exact hno hover

end Calls

end Stm32f411.UsartReports
