import Stm32f411.CallHistory
import Stm32f411.QueueStorage

/-!
Tokens are conserved. What a semaphore was given at its initialisation and by successful
gives is in its counter or with the tasks whose takes were granted.
-/

namespace Stm32f411.SemaphoreTokens

open Stm32f411.OpenSpans
open Stm32f411.LabelledRuns
open Stm32f411.RtosTypes
open Stm32f411.RtosKernel
open Stm32f411.RtosIpc
open Stm32f411.RtosSystem
open Stm32f411.RtosKernelSpec
open Stm32f411.RtosBootSpec
open Stm32f411.RtosCallSpec
open Stm32f411.RtosStepSpec
open Stm32f411.QueueStorage
open Stm32f411.KernelSoundness
open Stm32f411.CallTraces
open Stm32f411.CallHistory

variable {τ ι : Type} [DecidableEq ι]

/-- A give of `p` that returned RTOS_OK. -/
def gaveOk (p : ι) : Event τ ι → Bool
  | .returned _ call result _ => decide (callGives call = some p) && decide (result = .ok)
  | _ => false

/-- A take of `p` that was granted. -/
def granted (p : ι) : Event τ ι → Bool
  | .took q _ => decide (q = p)
  | _ => false

/-- The account of one semaphore over its life so far, less the gives under way. -/
def Conserved (p : ι) (log : List (Event τ ι)) (object : Object τ) (pending : Nat) : Prop :=
  ∀ s, object = .semaphore s → ∃ initialCount life,
    openSpan (initMark p) log = some (.semaphore initialCount s.maximumCount, life) ∧
      initialCount.toNat + life.countP (gaveOk p) + pending =
        s.count.toNat + life.countP (granted p)

section Rules

variable {P : Platform τ} {k k' : Kernel τ ι} {p : ι} {log : List (Event τ ι)}
variable {object : Object τ} {pending : Nat}

/-- The history grows by events of the semaphore's life. -/
theorem Conserved.extend (h : Conserved p log object pending) (more : List (Event τ ι))
    (hinside : ∀ event ∈ more, initMark p event = .inside) {object' : Object τ}
    {pending' : Nat}
    (hbalance : ∀ s', object' = .semaphore s' → ∃ s, object = .semaphore s ∧
      s'.maximumCount = s.maximumCount ∧
      s'.count.toNat + more.countP (granted p) + pending =
        s.count.toNat + more.countP (gaveOk p) + pending') :
    Conserved p (log ++ more) object' pending' := by
  intro s' hs'
  obtain ⟨s, hs, hmax, hcount⟩ := hbalance s' hs'
  obtain ⟨initialCount, life, hspan, hsum⟩ := h s hs
  refine ⟨initialCount, life ++ more, ?_, ?_⟩
  · rw [hmax]
    exact openSpan_inside hspan hinside
  · rw [List.countP_append, List.countP_append]
    omega

/-- One more event that is neither a give nor a take of `p`. -/
theorem Conserved.other (h : Conserved p log object pending) (more : List (Event τ ι))
    (hmore : ∀ event ∈ more, initMark p event = .inside ∧ gaveOk p event = false ∧
      granted p event = false) {object' : Object τ}
    (hobject : ∀ s, object' = .semaphore s → object = .semaphore s) :
    Conserved p (log ++ more) object' pending := by
  have hnone : ∀ test : Event τ ι → Bool, (∀ event ∈ more, test event = false) →
      more.countP test = 0 := fun test htest =>
    List.countP_eq_zero.mpr fun event he => by simp [htest event he]
  apply h.extend more (fun event he => (hmore event he).1)
  intro s hs
  refine ⟨s, hobject s hs, rfl, ?_⟩
  rw [hnone _ fun event he => (hmore event he).2.1, hnone _ fun event he => (hmore event he).2.2]

/-- How much a call adds to the gives of `p`. -/
def giveCount (p : ι) (call : Call ι) (outcome : Outcome) : Nat :=
  if callGives call = some p ∧ outcome = .returned .ok then 1 else 0

theorem giveCount_zero {call : Call ι} {outcome : Outcome}
    (h : callGives call ≠ some p ∨ outcome ≠ .returned .ok) : giveCount p call outcome = 0 := by
  apply if_neg
  rintro ⟨hcall, hok⟩
  rcases h with h | h
  · exact h hcall
  · exact h hok

omit [DecidableEq ι] in
theorem callGives_sends {call : Call ι} {x : ι × BufferPtr} (h : callSends call = some x) :
    callGives call ≠ some p := by
  cases call <;> simp_all [callSends, callGives]

omit [DecidableEq ι] in
theorem callGives_receives {call : Call ι} {x : ι × BufferPtr}
    (h : callReceives call = some x) : callGives call ≠ some p := by
  cases call <;> simp_all [callReceives, callGives]

/-- A call that leaves every semaphore alone. -/
theorem Conserved.untouched (h : Conserved p k.log (k.objects p) 0) {call : Call ι}
    {outcome : Outcome} (hgive : callGives call ≠ some p ∨ outcome ≠ .returned .ok)
    (more : List (Event τ ι)) (hlog : k'.log = k.log ++ more)
    (hmore : ∀ event ∈ more, initMark p event = .inside ∧ gaveOk p event = false ∧
      granted p event = false)
    (hobject : ∀ s, k'.objects p = .semaphore s → k.objects p = .semaphore s) :
    Conserved p k'.log (k'.objects p) (giveCount p call outcome) := by
  rw [hlog, giveCount_zero hgive]
  exact h.other more hmore hobject

theorem Conserved.took (h : Conserved p k.log (k.objects p) 0) {q : ι} {s : Semaphore}
    (hobj : k.objects q = .semaphore s) (hcount : s.count ≠ 0) (t : τ) :
    Conserved p (k.log ++ [.took q t])
      ((k.setObject q (.semaphore { s with count := s.count - 1 })).objects p) 0 := by
  rcases eq_or_ne p q with rfl | hne
  · apply h.extend _ (by simp [initMark])
    intro s' hs'
    obtain rfl : { s with count := s.count - 1 } = s' := by simpa using hs'
    refine ⟨s, hobj, rfl, ?_⟩
    have hpred := toNat_pred hcount
    have hpos := toNat_ne_zero hcount
    simp [granted, gaveOk]
    omega
  · exact h.other _ (by simp [initMark, gaveOk, granted, hne.symm]) (by simp [hne])

theorem Conserved.gave (h : Conserved p k.log (k.objects p) 0) {q : ι} {s : Semaphore}
    {call : Call ι} (hcall : callGives call = some q) (hobj : k.objects q = .semaphore s)
    (hlt : s.count < s.maximumCount) :
    Conserved p k.log
      ((k.setObject q (.semaphore { s with count := s.count + 1 })).objects p)
      (giveCount p call (.returned .ok)) := by
  rcases eq_or_ne p q with rfl | hne
  · rw [giveCount, if_pos ⟨hcall, rfl⟩]
    have hmore : Conserved p (k.log ++ [])
        ((k.setObject p (.semaphore { s with count := s.count + 1 })).objects p) 1 := by
      apply h.extend [] (by simp)
      intro s' hs'
      obtain rfl : { s with count := s.count + 1 } = s' := by simpa using hs'
      have hsucc : (s.count + 1).toNat = s.count.toNat + 1 := by bv_omega
      exact ⟨s, hobj, rfl, by simpa using hsucc⟩
    simpa using hmore
  · rw [giveCount_zero (Or.inl (by simp [hcall, hne.symm]))]
    simpa [hne] using h

theorem Conserved.gaveTo (h : Conserved p k.log (k.objects p) 0) {q : ι} {s : Semaphore}
    {call : Call ι} (hcall : callGives call = some q) (hobj : k.objects q = .semaphore s)
    (waiter : τ) :
    Conserved p (k.log ++ [.took q waiter]) (k.objects p)
      (giveCount p call (.returned .ok)) := by
  rcases eq_or_ne p q with rfl | hne
  · rw [giveCount, if_pos ⟨hcall, rfl⟩]
    refine h.extend _ (by simp [initMark]) fun s' hs' => ⟨s', hs', rfl, ?_⟩
    simp [granted, gaveOk]
  · rw [giveCount_zero (Or.inl (by simp [hcall, hne.symm]))]
    exact h.other _ (by simp [initMark, gaveOk, granted, hne.symm]) fun _ => id

variable [DecidableEq τ]

theorem Conserved.callEffect (h : Conserved p k.log (k.objects p) 0) {mode : Mode}
    {call : Call ι} {outcome : Outcome} (heffect : CallEffect k mode call k' outcome) :
    Conserved p k'.log (k'.objects p) (giveCount p call outcome) := by
  cases heffect with
  | refused hok _ =>
      exact h.untouched (Or.inr fun he => hok (Outcome.returned.inj he)) [] (by simp) (by simp)
        fun _ => id
  | ignored hcall =>
      have hgive : callGives call ≠ some p := by rcases hcall with rfl | rfl <;> simp [callGives]
      exact h.untouched (Or.inl hgive) [] (by simp) (by simp) fun _ => id
  | yielded hcall _ =>
      have hgive : callGives call ≠ some p := by rcases hcall with rfl | rfl <;> simp [callGives]
      exact h.untouched (Or.inl hgive) [] (by simp) (by simp) fun _ => id
  | delayed _ _ _ => exact h.untouched (Or.inr (by simp)) [] (by simp) (by simp) fun _ => id
  | slept _ _ _ _ _ => exact h.untouched (Or.inr (by simp)) [] (by simp) (by simp) fun _ => id
  | sleptOnMutex _ _ _ _ _ _ =>
      exact h.untouched (Or.inr (by simp)) [] (by simp) (by simp) fun _ => id
  | took _ hobj hcount =>
      rw [giveCount_zero (Or.inl (by simp [callGives]))]
      exact h.took hobj hcount _
  | gave hcall hobj _ hlt => exact h.gave hcall hobj hlt
  | gaveTo hcall hobj _ =>
      rw [maybePreempt_objects, maybePreempt_log]
      exact h.gaveTo hcall hobj _
  | @locked self q _ _ _ _ hobj _ =>
      exact h.untouched (Or.inl (by simp [callGives])) [.locked q self] rfl
        (by simp [initMark, gaveOk, granted])
        (setObject_kind (by simp) p)
  | @unlocked self q _ _ hobj _ _ =>
      exact h.untouched (Or.inl (by simp [callGives])) [.unlocked q self] rfl
        (by simp [initMark, gaveOk, granted])
        (setObject_kind (k := releaseHold k q self) (by simp) p)
  | @unlockedTo self waiter q _ _ hobj _ _ =>
      refine h.untouched (Or.inl (by simp [callGives])) [.unlocked q self, .locked q waiter]
        (by simp [releaseHold, grantHold]) (by simp [initMark, gaveOk, granted]) ?_
      rw [maybePreempt_objects]
      exact setObject_kind (k := releaseHold k q self) (by simp) p
  | sent hcall hobj _ _ =>
      exact h.untouched (Or.inl (callGives_sends hcall)) _ rfl
        (by simp [initMark, gaveOk, granted])
        (setObject_kind (by simp) p)
  | @sentTo _ q _ item receiver hcall hobj _ =>
      refine h.untouched (Or.inl (callGives_sends hcall)) _
        ((maybePreempt_log _).trans (handItem_log k _ q _ item receiver))
        (by simp [initMark, gaveOk, granted]) ?_
      rw [maybePreempt_objects, handItem_objects]
      exact fun _ => id
  | received hcall hobj _ _ =>
      exact h.untouched (Or.inl (callGives_receives hcall)) _ rfl
        (by simp [initMark, gaveOk, granted])
        (setObject_kind (k := k.setBuffer _ _) (by simp) p)
  | @receivedFrom _ q s item sender hcall hobj _ _ =>
      refine h.untouched (Or.inl (callGives_receives hcall)) _
        ((maybePreempt_log _).trans (refill_log k _ q s item sender _))
        (by simp [initMark, gaveOk, granted]) fun s' hs' => ?_
      rw [maybePreempt_objects] at hs'
      have hpopped := setObject_kind (k := popItem k (callerOf k mode) q s item)
        (by simp) p s' hs'
      exact setObject_kind (k := k.setBuffer item _) (by simp) p s' hpopped

end Rules

section Runs

variable {P : Platform τ} {w w' : World τ ι} {p : ι}

/-- A call that can sleep is no give. -/
theorem pending_gives [DecidableEq τ]
    {see : List Byte → Unit} {k : Kernel τ ι} {t : τ} {call : Call ι}
    (h : Pending see k t call) : callGives call ≠ some p := by
  obtain ⟨_, _, _, hp⟩ := h
  have hwait : (callWait call).isSome → callGives call ≠ some p := by
    intro hcall
    cases call <;> simp_all [callWait, callGives]
  cases hp with
  | waiting hcall _ _ _ => exact hwait (by simp [hcall])
  | served hcall _ _ _ => exact hwait hcall
  | timedOut hcall _ _ _ => exact hwait hcall
  | delayed hcall _ _ => simp [hcall, callGives]

theorem Conserved.placed {log : List (Event τ ι)} {object : Object τ} {kind : ObjectInit}
    (hobj : Initialised object kind) :
    Conserved p (log ++ [.initialised p kind]) object 0 := by
  rintro s rfl
  cases hobj with
  | @semaphore initialCount _ _ _ =>
      exact ⟨initialCount, [], openSpan_opens (by simp [initMark]), by simp⟩

theorem Conserved.quiet [DecidableEq τ] {k k' : Kernel τ ι} (h : Conserved p k.log (k.objects p) 0)
    (hquiet : QuietStep P k k') : Conserved p k'.log (k'.objects p) 0 := by
  rcases hquiet.objects with ⟨hobjects, hlog⟩ | ⟨q, object, kind, _, hobj, rfl⟩
  · rwa [hobjects, hlog]
  · rcases eq_or_ne p q with rfl | hne
    · simpa using Conserved.placed hobj
    · exact h.other [.initialised q kind] (by simp [initMark, gaveOk, granted, hne.symm])
        (by simp [hne])

/-- The return of a call books the give it made. -/
theorem Conserved.returned {log : List (Event τ ι)} {object : Object τ} {call : Call ι}
    {result : Status} (h : Conserved p log object (giveCount p call (.returned result)))
    (caller : Option τ) (data : List Byte) :
    Conserved p (log ++ [.returned caller call result data]) object 0 := by
  refine h.extend _ (by simp [initMark]) fun s hs => ⟨s, hs, rfl, ?_⟩
  rcases eq_or_ne (callGives call) (some p) with hcall | hcall
  · rcases eq_or_ne result .ok with rfl | hresult
    · simp [granted, gaveOk, giveCount, hcall]
    · simp [granted, gaveOk, giveCount, hresult]
  · simp [granted, gaveOk, giveCount, hcall]

variable [DecidableEq τ]

theorem Conserved.step (h : Conserved p w.log (w.objects p) 0)
    (htraced : Traced (fun _ => ()) w) {op : Op τ ι} (hstep : SystemStep P w op w') :
    Conserved p w'.log (w'.objects p) 0 := by
  have hcalled : ∀ mode call, Conserved p (callEntered w.toKernel mode call).log
      (w.objects p) 0 := fun mode call =>
    h.other [_] (by simp [initMark, gaveOk, granted]) fun _ => id
  cases hstep with
  | ticked =>
      obtain ⟨tcb, pended, htick⟩ := sysTickHandler_frame w.toKernel
      rw [htick]
      exact h
  | quiet _ hquiet => exact Conserved.quiet h hquiet
  | returned _ _ heffect =>
      exact Conserved.returned (Conserved.callEffect (hcalled _ _) heffect) _ _
  | suspended _ _ _ heffect =>
      have hcall := Conserved.callEffect (hcalled _ _) heffect
      rwa [giveCount_zero (Or.inr (by simp))] at hcall
  | resumed _ _ hcall =>
      refine h.other [_] ?_ fun _ => id
      simp [initMark, gaveOk, granted, pending_gives (htraced.pending _ _ hcall)]

theorem reached_conserved (h : Reached P w) (p : ι) :
    Conserved p w.log (w.objects p) 0 := by
  refine h.invariant (I := fun w => Conserved p w.log (w.objects p) 0) ?_ ?_
  · intro w hreset s hs
    simp [hreset.objects] at hs
  · intro w op w' hw hcons hstep
    exact hcons.step (reached_traced hw) (step_system hstep)

/-- The context a give demands. -/
def giveContext (k : Kernel τ ι) (mode : Mode) : Call ι → Bool
  | .semaphoreGive _ => rtosKernelThreadApiValid k mode
  | .semaphoreGiveFromIsr _ => rtosPortIsKernelAwareIsr k mode
  | _ => false

theorem semaphoreGiveWhen_busy {k : Kernel τ ι} {s : Semaphore}
    (hobj : k.objects p = .semaphore s) (hle : s.count ≤ s.maximumCount)
    (contextValid : Bool) :
    (semaphoreGiveWhen k contextValid (some p)).2 = .errBusy ↔
      contextValid = true ∧ s.count = s.maximumCount ∧
        ∀ t ∈ k.tasks, isWaiter k .semaphore p t = false := by
  have hfull : s.maximumCount ≤ s.count ↔ s.count = s.maximumCount :=
    ⟨fun h => BitVec.le_antisymm hle h, fun h => BitVec.le_of_eq h.symm⟩
  cases contextValid with
  | false => simp [semaphoreGiveWhen, hobj]
  | true =>
      simp only [semaphoreGiveWhen, hobj, Object.semaphore?_semaphore, rtosSemaphoreGiveCommon,
        Bool.true_eq_false, if_false]
      cases hfind : rtosKernelFindWaiter k .semaphore p with
      | some waiter =>
          obtain ⟨hmem, hwaits⟩ := findWaiter_waits hfind
          apply iff_of_false (by simp)
          rintro ⟨_, _, hnone⟩
          simp [hnone waiter hmem] at hwaits
      | none =>
          have hnone := findWaiter_eq_none.mp hfind
          simp only [Bool.not_eq_true] at hnone
          rw [← hfull]
          dsimp only
          split
          · next hbusy => exact iff_of_true rfl ⟨trivial, hbusy, hnone⟩
          · next hspace => exact iff_of_false (by simp) fun hbusy => hspace hbusy.2.1

/-- The four parts of the account of a semaphore: the balance, the bounds, what a take's
result says, and when a give is refused as busy. -/
theorem tokens_conserved (h : Reached P w) {s : Semaphore}
    (hobj : w.objects p = .semaphore s) :
    (∃ initialCount life,
      openSpan (initMark p) w.log = some (.semaphore initialCount s.maximumCount, life) ∧
        initialCount.toNat + life.countP (gaveOk p) =
          s.count.toNat + life.countP (granted p)) ∧
      s.count ≤ s.maximumCount ∧
      (∀ before after caller timeoutTicks result data,
        w.log = before ++
          .returned caller (.semaphoreTake (some p) timeoutTicks) result data :: after →
        ∃ entry body, openSpan (callMark caller) before =
            some ((.semaphoreTake (some p) timeoutTicks, entry), body) ∧
          effectsOf (fun _ => ()) caller body = if result = .ok then [.took p] else []) ∧
      ∀ mode call, callGives call = some p →
        ((rtosCall w.toKernel mode call).2 = .returned .errBusy ↔
          giveContext w.toKernel mode call = true ∧ s.count = s.maximumCount ∧
            ∀ t ∈ w.tasks, isWaiter w.toKernel .semaphore p t = false) := by
  have hle := (reached_objectsOk h).semaphore hobj
  refine ⟨reached_conserved h p s hobj, hle, ?_, ?_⟩
  · intro before after caller timeoutTicks result data hlog
    exact (reached_traced h).exact before after caller _ result data hlog
  · intro mode call hcall
    cases call <;> simp [callGives] at hcall
    · subst hcall
      simpa [rtosCall, withStatus, rtosSemaphoreGive, giveContext] using
        semaphoreGiveWhen_busy hobj hle (rtosKernelThreadApiValid w.toKernel mode)
    · subst hcall
      simpa [rtosCall, withStatus, rtosSemaphoreGiveFromIsr, giveContext] using
        semaphoreGiveWhen_busy hobj hle (rtosPortIsKernelAwareIsr w.toKernel mode)

/-- Task 2 sleeps on the empty semaphore and is handed the token task 1 gives. -/
theorem tokens_conserved_demo :
    let w := demoRun (demoBoot ++ [.call .thread (.semaphoreTake (some 1) 5), .pendSV true,
      .call .thread (.semaphoreGive (some 1)), .pendSV true, .resume])
    (∃ initialCount life,
      openSpan (initMark 1) w.log = some (.semaphore initialCount 1, life) ∧
        initialCount.toNat + life.countP (gaveOk 1) = 0 + life.countP (granted 1)) ∧
      w.log.countP (gaveOk 1) = 1 := by
  have hobj : (demoRun (demoBoot ++ [.call .thread (.semaphoreTake (some 1) 5), .pendSV true,
      .call .thread (.semaphoreGive (some 1)), .pendSV true, .resume])).objects 1 =
      .semaphore ⟨0, 1⟩ := Object.semaphore?_eq_some.mp (by decide)
  exact ⟨(tokens_conserved (demoRun_reached _) hobj).1, by decide⟩

end Runs

end Stm32f411.SemaphoreTokens
