import Stm32f411.CallHistory
import Stm32f411.HandlerCalls
import Stm32f411.RtosTickSteps

/-!
Hand-offs made by interrupts while the tick is under way. They hold unless an interrupt
serves a task that the tick has decided to time out and not yet written to.
-/

namespace Stm32f411.InterruptedTick

open Stm32f411.LabelledRuns
open Stm32f411.RtosTypes
open Stm32f411.RtosKernel
open Stm32f411.RtosIpc
open Stm32f411.RtosSystem
open Stm32f411.RtosTickSteps
open Stm32f411.RtosKernelSpec
open Stm32f411.RtosBootSpec
open Stm32f411.RtosCallSpec
open Stm32f411.RtosStepSpec
open Stm32f411.KernelSoundness
open Stm32f411.CallTraces
open Stm32f411.CallHistory
open Stm32f411.HandlerCalls

variable {τ ι : Type} [DecidableEq τ]

/-- The first return of a task in a stretch of history. -/
def firstReturn (t : τ) (events : List (Event τ ι)) : Option (Call ι × Status) :=
  events.findSome? fun event => match event with
    | .returned caller call result _ => if caller = some t then some (call, result) else none
    | _ => none

/-- A sleeping task is awake afterwards. -/
structure Wakes (w w' : World τ ι) (t : τ) : Prop where
  mem : t ∈ w.tasks
  blocked : (w.tcb t).state = .blocked
  ready : (w'.tcb t).state = .ready

/-- A task that an interrupt's call wakes returns next from the call it sleeps in, and with
RTOS_OK. -/
def HandOffsKept (R : TickWorld τ ι → TickOp τ ι → TickWorld τ ι → Prop) : Prop :=
  ∀ v exception priority call v' t ops v'' call' result, Reachable R TickReset v →
    R v (.base (.call (.handler exception priority) call)) v' →
    Wakes v.toWorld v'.toWorld t → Run R v' ops v'' →
    firstReturn t (v''.log.drop v'.log.length) = some (call', result) →
    v.inCall t = some call' ∧ result = .ok

def opServes [DecidableEq ι] (k : Kernel τ ι) : TickOp τ ι → Option τ
  | .base (.call mode call) => servedTask k mode call
  | _ => none

/-- No interrupt serves a task that the tick has decided to time out, before the tick has
written the result of its call. -/
def ServesInTime [DecidableEq ι] (v : TickWorld τ ι) (op : TickOp τ ι) : Prop :=
  ∀ r ∈ v.tickRun, ∀ t ∈ opServes v.toKernel op, (t, .waitResult) ∉ r.writes

instance [DecidableEq ι] (v : TickWorld τ ι) (op : TickOp τ ι) :
    Decidable (ServesInTime v op) :=
  inferInstanceAs (Decidable (∀ r ∈ v.tickRun, ∀ t ∈ opServes v.toKernel op,
    (t, .waitResult) ∉ r.writes))

def timelyStep [DecidableEq ι] (P : Platform τ) (v : TickWorld τ ι) (op : TickOp τ ι) :
    Option (TickWorld τ ι) :=
  if ServesInTime v op then tickStep P v op else none

theorem timelyStep_eq_some [DecidableEq ι]
    {P : Platform τ} {v v' : TickWorld τ ι} {op : TickOp τ ι} :
    timelyStep P v op = some v' ↔ ServesInTime v op ∧ tickStep P v op = some v' := by
  simp [timelyStep]

section Suspension

variable {P : Platform τ} {w w' : World τ ι}

/-- Every task is READY before the start; afterwards whoever is BLOCKED is suspended in a
call that can sleep. -/
structure Suspended (w : World τ ι) : Prop where
  ready : w.running = false → ∀ t ∈ w.tasks, (w.tcb t).state = .ready
  call : ∀ t ∈ w.tasks, (w.tcb t).state = .blocked →
    ∃ call, w.inCall t = some call ∧ (callWait call).isSome = true

omit [DecidableEq τ] in
theorem Suspended.of_ready (h : ∀ t ∈ w.tasks, (w.tcb t).state = .ready) : Suspended w := by
  refine ⟨fun _ => h, fun t ht hblocked => ?_⟩
  simp [h t ht] at hblocked

omit [DecidableEq τ] in
theorem Suspended.running (h : Suspended w) {t : τ} (ht : t ∈ w.tasks)
    (hblocked : (w.tcb t).state = .blocked) : w.running = true := by
  cases hrun : w.running with
  | true => rfl
  | false => simp [h.ready hrun t ht] at hblocked

variable [DecidableEq ι]

theorem Suspended.quiet (h : Suspended w) {k' : Kernel τ ι}
    (hquiet : QuietStep P w.toKernel k') : Suspended { w with toKernel := k' } := by
  cases hrun : w.running with
  | true =>
      obtain ⟨_, htasks, hrun', hwait⟩ := QuietStep.sameWait hquiet hrun
      constructor
      · intro hoff
        simp [hrun'] at hoff
      · intro t ht hblocked
        refine h.call t ?_ ((hwait t).blocked.mp hblocked)
        rw [← htasks]
        exact ht
  | false =>
      have hready := h.ready hrun
      cases hquiet with
      | unchanged => exact .of_ready hready
      | booted hboot =>
          apply Suspended.of_ready
          intro t ht
          have hidle := hboot.fresh.state
          obtain ⟨_, _, _, _, _, rfl⟩ := hboot
          obtain rfl := List.mem_singleton.mp ht
          exact hidle
      | @created _ task _ _ _ _ hadd =>
          apply Suspended.of_ready
          intro t ht
          have hnew := hadd.fresh.state
          obtain ⟨_, _, _, _, rfl⟩ := hadd
          rcases eq_or_ne t task with rfl | hne
          · exact hnew
          · rcases List.mem_append.mp ht with hold | hlast
            · simpa [hne] using hready t hold
            · exact absurd (List.mem_singleton.mp hlast) hne
      | placed _ _ _ => exact .of_ready hready
      | refusedStart _ => exact .of_ready hready
      | started hstart =>
          obtain ⟨_, _, first, _, _, _, _, rfl⟩ := hstart
          refine ⟨fun hoff => ?_, fun t ht hblocked => ?_⟩
          · simp at hoff
          · rcases eq_or_ne t first with rfl | hne
            · simp at hblocked
            · simp [hne, hready t ht] at hblocked
      | @terminated self _ hself _ _ =>
          apply Suspended.of_ready
          intro t ht
          have hne : t ≠ self := by
            rintro rfl
            simp [hready t ht] at hself
          simpa [hne] using hready t ht
      | switched hrunning _ => simp [hrun] at hrunning
      | wrote => exact .of_ready hready

theorem Suspended.step (h : Suspended w) {op : Op τ ι} (hop : op ≠ .tick)
    (hstep : SystemStep P w op w') : Suspended w' := by
  cases hstep with
  | ticked => exact absurd rfl hop
  | quiet _ hquiet => exact h.quiet hquiet
  | @returned mode call k' result _ _ heffect =>
      have hframe := heffect.frame
      constructor
      · intro hoff t ht
        have hoff' : w.running = false := hframe.running.symm.trans hoff
        have hready := h.ready hoff' t (hframe.tasks ▸ ht)
        have hcall : ¬ThreadCall (callEntered w.toKernel mode call) mode t := by
          intro hthread
          have hrunning : w.running = true := hthread.running
          simp [hoff'] at hrunning
        obtain ⟨_, _, hkept⟩ := heffect.untouched hcall
          (show (w.tcb t).state ≠ .blocked by simp [hready])
        show (k'.tcb t).state = .ready
        rw [hkept]
        exact hready
      · intro t ht hblocked
        rcases heffect.blocked hblocked with hbefore | ⟨_, _, hsuspended⟩
        · exact h.call t (hframe.tasks ▸ ht) hbefore
        · cases hsuspended
  | @suspended mode call k' self hruns hthread _ heffect =>
      have hframe := heffect.frame
      constructor
      · intro hoff
        have hoff' : w.running = false := hframe.running.symm.trans hoff
        simp [hthread.running] at hoff'
      · intro t ht hblocked
        rcases heffect.blocked hblocked with hbefore | ⟨hcall, hsleeps, _⟩
        · have hne : t ≠ self := by
            rintro rfl
            have hstate : (w.tcb t).state = .blocked := hbefore
            exact hruns.not_caller (by simp [hstate]) hthread
          simpa [hne] using h.call t (hframe.tasks ▸ ht) hbefore
        · obtain rfl : self = t := Option.some.inj (hthread.current.symm.trans hcall.current)
          exact ⟨call, by simp, hsleeps⟩
  | @resumed self call _ hstate _ =>
      refine ⟨h.ready, fun t ht hblocked => ?_⟩
      rcases eq_or_ne t self with rfl | hne
      · rw [show ((resumeStep w t call).tcb t).state = .running from hstate] at hblocked
        simp at hblocked
      · simpa [resumeStep, hne] using h.call t ht hblocked

end Suspension

section Returns

variable {P : Platform τ} {w w' : World τ ι} {t : τ} {call : Call ι}

theorem firstReturn_append (t : τ) (events more : List (Event τ ι)) :
    firstReturn t (events ++ more) = (firstReturn t events).or (firstReturn t more) :=
  List.findSome?_append

theorem firstReturn_none {events : List (Event τ ι)}
    (h : ∀ call result data, .returned (some t) call result data ∉ events) :
    firstReturn t events = none := by
  apply List.findSome?_eq_none_iff.mpr
  intro event hevent
  cases event with
  | returned caller call result data =>
      rcases eq_or_ne caller (some t) with rfl | hne
      · exact absurd hevent (h call result data)
      · simp [hne]
  | _ => rfl

/-- A task that was served has not yet returned from the call it slept in. -/
structure Granted (w : World τ ι) (t : τ) (call : Call ι) : Prop where
  running : w.running = true
  inCall : w.inCall t = some call
  sleeps : (callWait call).isSome = true
  awake : (w.tcb t).state ≠ .blocked
  result : (w.tcb t).waitResult = .ok

/-- The next return of a task after a stretch of history is still to come, or it is the
one of its call with RTOS_OK. -/
def OkNext (t : τ) (call : Call ι) (more : List (Event τ ι)) (later : Prop) : Prop :=
  (firstReturn t more = none ∧ later) ∨ firstReturn t more = some (call, .ok)

omit [DecidableEq τ] in
theorem Granted.same (h : Granted w t call) {k' : Kernel τ ι} (hrun : k'.running = true)
    (hstate : (k'.tcb t).state = .blocked → (w.tcb t).state = .blocked)
    (hresult : (k'.tcb t).waitResult = (w.tcb t).waitResult) :
    Granted { w with toKernel := k' } t call :=
  ⟨hrun, h.inCall, h.sleeps, fun hb => h.awake (hstate hb), hresult.trans h.result⟩

variable [DecidableEq ι]

/-- A call of somebody else leaves it alone: only a sleeping task is served. -/
theorem Granted.task (h : Granted w t call) {mode : Mode} {other : Call ι}
    {k' : Kernel τ ι} {outcome : Outcome} (hcaller : callerOf w.toKernel mode ≠ some t)
    (heffect : CallEffect (callEntered w.toKernel mode other) mode other k' outcome) :
    Kept (w.tcb t) (k'.tcb t) := by
  have hnot : ¬ThreadCall (callEntered w.toKernel mode other) mode t := fun hcall =>
    hcaller (callerOf_thread ⟨hcall.mode_eq, hcall.running, hcall.current⟩)
  exact heffect.untouched hnot h.awake

theorem Granted.step (h : Granted w t call) {op : Op τ ι} (hop : op ≠ .tick)
    (hstep : SystemStep P w op w') :
    ∃ more, w'.log = w.log ++ more ∧ OkNext t call more (Granted w' t call) := by
  cases hstep with
  | ticked => exact absurd rfl hop
  | quiet _ hquiet =>
      obtain ⟨hlog, _, hrun, hwait⟩ := QuietStep.sameWait hquiet h.running
      refine ⟨[], by simpa using hlog, Or.inl ⟨rfl, ?_⟩⟩
      exact h.same hrun (hwait t).blocked.mp (hwait t).waitResult
  | @returned mode other k' result hruns hfree heffect =>
      have hcaller : callerOf w.toKernel mode ≠ some t := by
        intro hself
        have hidle := hfree t hself
        simp [h.inCall] at hidle
      obtain ⟨events, htrace⟩ := CallEffect.trace (fun _ => ()) (hruns.record _) heffect
      have hkept := SameWait.of_kept (h.task hcaller heffect)
      refine ⟨.called (callerOf w.toKernel mode) other (callData w.toKernel other) ::
        (events ++ [.returned (callerOf w.toKernel mode) other result (callData k' other)]),
        ?_, Or.inl ⟨firstReturn_none ?_, ?_⟩⟩
      · simp [htrace.log]
      · intro call' result' data hmem
        have hcases : (.returned (some t) call' result' data : Event τ ι) ∈ events ∨
            some t = callerOf w.toKernel mode := by
          simp only [List.mem_cons, List.mem_append, reduceCtorEq, false_or,
            Event.returned.injEq, List.not_mem_nil, or_false] at hmem
          exact hmem.imp_right And.left
        rcases hcases with hevent | hself
        · exact htrace.unmarked _ hevent trivial
        · exact hcaller hself.symm
      · exact h.same (heffect.frame.running.trans h.running) hkept.blocked.mp hkept.waitResult
  | @suspended mode other k' self hruns hthread hfree heffect =>
      have hne : t ≠ self := by
        rintro rfl
        simp [h.inCall] at hfree
      have hcaller : callerOf w.toKernel mode ≠ some t := by
        rw [callerOf_thread hthread]
        simpa using hne.symm
      obtain ⟨events, htrace⟩ := CallEffect.trace (fun _ => ()) (hruns.record _) heffect
      have hkept := SameWait.of_kept (h.task hcaller heffect)
      refine ⟨.called (callerOf w.toKernel mode) other (callData w.toKernel other) :: events,
        ?_, Or.inl ⟨firstReturn_none ?_, ?_⟩⟩
      · simp [htrace.log]
      · intro call' result' data hmem
        rcases List.mem_cons.mp hmem with heq | hevent
        · cases heq
        · exact htrace.unmarked _ hevent trivial
      · have hsame := h.same (heffect.frame.running.trans h.running) hkept.blocked.mp
          hkept.waitResult
        exact ⟨hsame.running, by simpa [hne] using h.inCall, h.sleeps, hsame.awake, hsame.result⟩
  | @resumed self other _ _ hcall =>
      refine ⟨_, rfl, ?_⟩
      rcases eq_or_ne t self with rfl | hne
      · right
        obtain rfl := Option.some.inj (h.inCall.symm.trans hcall)
        have hresult : resumeResult (w.tcb t) call = .ok := by
          have hsleeps := h.sleeps
          cases call <;> simp_all [callWait, resumeResult, h.result]
        simp [firstReturn, hresult]
      · left
        refine ⟨by simp [firstReturn, hne.symm], h.running, ?_, h.sleeps, h.awake, h.result⟩
        simpa [resumeStep, hne] using h.inCall

end Returns

section Ticks

variable {P : Platform τ} {v v' : TickWorld τ ι} {t : τ} {call : Call ι}

theorem tickWritten_frame (task : τ) (acc : Kernel τ ι × Bool) (write : TickWrite) :
    ∃ tcb, (tickWritten task acc write).1 = { acc.1 with tcb := tcb } := by
  cases write <;> exact ⟨_, rfl⟩

/-- The only state a visit writes is READY. -/
theorem tickWritten_state (task : τ) (acc : Kernel τ ι × Bool) (write : TickWrite) (t : τ) :
    ((tickWritten task acc write).1.tcb t).state = .ready ∨
      ((tickWritten task acc write).1.tcb t).state = (acc.1.tcb t).state := by
  rcases eq_or_ne t task with rfl | hne
  · cases write <;> simp [tickWritten]
  · cases write <;> simp [tickWritten, hne]

theorem tickWritten_waitResult {task t : τ} {write : TickWrite}
    (h : (t, TickWrite.waitResult) ≠ (task, write)) (acc : Kernel τ ι × Bool) :
    ((tickWritten task acc write).1.tcb t).waitResult = (acc.1.tcb t).waitResult := by
  rcases eq_or_ne t task with rfl | hne
  · cases write <;> simp_all [tickWritten]
  · cases write <;> simp [tickWritten, hne]

theorem tickFinish_frame (acc : Kernel τ ι × Bool) :
    ∃ tcb, tickFinish acc = { acc.1 with tcb := tcb, pended := true } := by
  rw [tickFinish]
  split <;> exact ⟨_, rfl⟩

theorem kept_tickFinish (acc : Kernel τ ι × Bool) (t : τ) :
    Kept (acc.1.tcb t) ((tickFinish acc).tcb t) := by
  rw [tickFinish]
  split
  · exact kept_recompute acc.1 t
  · exact .refl _

variable [DecidableEq ι]

/-- What one step can do, with the tick in small steps. -/
inductive TickStep (P : Platform τ) (v : TickWorld τ ι) : TickOp τ ι → TickWorld τ ι → Prop
  | base {op : Op τ ι} {w' : World τ ι} : op ≠ .tick → SystemStep P v.toWorld op w' →
      TickStep P v (.base op) { v with toWorld := w' }
  | entered {run : Option (TickRun τ)} : (∀ r, run = some r → r.writes = []) →
      TickStep P v .enter
        { v with toKernel := { v.toKernel with tick := v.tick + 1 }, tickRun := run }
  | read {now : Word} {flag : Bool} {task : τ} {rest : List τ} :
      TickStep P v .read { v with
        tickRun := some ⟨now, flag, rest,
          (tickWrites (tickDecision now (v.tcb task))).map fun write => (task, write)⟩ }
  | wrote {now : Word} {flag flag' : Bool} {task : τ} {rest : List τ} {write : TickWrite}
      {writes : List (τ × TickWrite)} :
      v.tickRun = some ⟨now, flag, rest, (task, write) :: writes⟩ →
      TickStep P v .write { v with
        toKernel := (tickWritten task (v.toKernel, flag) write).1
        tickRun := some ⟨now, flag', rest, writes⟩ }
  | left {flag : Bool} :
      TickStep P v .exit { v with
        toKernel := tickFinish (v.toKernel, flag), tickRun := none }

theorem tickStep_cases {op : TickOp τ ι} (h : tickStep P v op = some v') :
    TickStep P v op v' := by
  cases op with
  | base op =>
      simp only [tickStep] at h
      split at h
      · next hallowed =>
          obtain ⟨w', hstep, rfl⟩ := Option.map_eq_some_iff.mp h
          refine .base ?_ (step_system hstep)
          rintro rfl
          cases hrun : v.tickRun <;> simp [admits, hrun, outsideTick, interrupts] at hallowed
      · simp at h
  | enter =>
      simp only [tickStep] at h
      split at h
      · simp at h
      · next hrun =>
          split at h
          · obtain rfl := Option.some.inj h
            exact .entered (by simp [hrun])
          · obtain rfl := Option.some.inj h
            exact .entered (by rintro r ⟨⟩; rfl)
  | read =>
      simp only [tickStep] at h
      split at h
      · obtain rfl := Option.some.inj h
        exact .read
      · simp at h
  | write =>
      simp only [tickStep] at h
      split at h
      · next hrun =>
          obtain rfl := Option.some.inj h
          exact .wrote hrun
      · simp at h
  | exit =>
      simp only [tickStep] at h
      split at h
      · obtain rfl := Option.some.inj h
        exact .left
      · simp at h

theorem tick_log {op : TickOp τ ι} (h : TickStep P v op v') :
    ∃ more, v'.log = v.log ++ more := by
  cases h with
  | base _ hstep => exact system_log hstep
  | entered _ => exact ⟨[], by simp⟩
  | read => exact ⟨[], by simp⟩
  | @wrote _ flag _ task _ write _ _ =>
      obtain ⟨_, hframe⟩ := tickWritten_frame task (v.toKernel, flag) write
      exact ⟨[], by simp [hframe]⟩
  | @left flag =>
      obtain ⟨_, hframe⟩ := tickFinish_frame (v.toKernel, flag)
      exact ⟨[], by simp [hframe]⟩

omit [DecidableEq τ] [DecidableEq ι] in
/-- Whatever keeps the tasks, and no state but for writing READY. -/
theorem Suspended.calm {w : World τ ι} (h : Suspended w) {k' : Kernel τ ι}
    (htasks : k'.tasks = w.tasks) (hrun : k'.running = w.running)
    (hstate : ∀ t, (k'.tcb t).state = .ready ∨ (k'.tcb t).state = (w.tcb t).state) :
    Suspended { w with toKernel := k' } := by
  constructor
  · intro hoff t ht
    have hready := h.ready (hrun.symm.trans hoff) t (htasks ▸ ht)
    rcases hstate t with hs | hs
    · exact hs
    · exact hs.trans hready
  · intro t ht hblocked
    rcases hstate t with hs | hs
    · rw [show (k'.tcb t).state = .blocked from hblocked] at hs
      simp at hs
    · exact h.call t (htasks ▸ ht) (hs.symm.trans hblocked)

theorem Suspended.tickStep {op : TickOp τ ι} (h : Suspended v.toWorld)
    (hstep : TickStep P v op v') : Suspended v'.toWorld := by
  cases hstep with
  | base hop hstep => exact h.step hop hstep
  | entered _ => exact ⟨h.ready, h.call⟩
  | read => exact h
  | @wrote _ flag _ task _ write _ _ =>
      obtain ⟨_, hframe⟩ := tickWritten_frame task (v.toKernel, flag) write
      exact h.calm (by simp [hframe]) (by simp [hframe]) (tickWritten_state task _ write)
  | @left flag =>
      obtain ⟨_, hframe⟩ := tickFinish_frame (v.toKernel, flag)
      refine h.calm (by simp [hframe]) (by simp [hframe]) fun t => Or.inr ?_
      obtain ⟨_, _, hkept⟩ := kept_tickFinish (v.toKernel, flag) t
      rw [hkept]

theorem reached_suspended {R : TickWorld τ ι → TickOp τ ι → TickWorld τ ι → Prop}
    (hR : ∀ v op v', R v op v' → tickStep P v op = some v') (h : Reachable R TickReset v) :
    Suspended v.toWorld := by
  apply h.invariant (I := fun v => Suspended v.toWorld)
  · rintro v ⟨hreset, _⟩
    apply Suspended.of_ready
    simp [hreset.tasks]
  · intro v op v' _ hv hstep
    exact hv.tickStep (tickStep_cases (hR v op v' hstep))

/-- A served task, and the tick has no result left to write to it. -/
structure HandedOff (v : TickWorld τ ι) (t : τ) (call : Call ι) : Prop where
  granted : Granted v.toWorld t call
  written : ∀ r, v.tickRun = some r → (t, .waitResult) ∉ r.writes

omit [DecidableEq ι] in
theorem tickDecision_awake {task : RtosTask ι} (h : task.state ≠ .blocked) (now : Word) :
    .waitResult ∉ tickWrites (tickDecision now task) := by
  unfold tickDecision
  split
  · simp [tickWrites]
  · rw [if_neg fun htimeOut => h htimeOut.1]
    simp [tickWrites]

theorem HandedOff.step (h : HandedOff v t call) {op : TickOp τ ι}
    (hstep : TickStep P v op v') :
    ∃ more, v'.log = v.log ++ more ∧ OkNext t call more (HandedOff v' t call) := by
  obtain ⟨hgranted, hwritten⟩ := h
  cases hstep with
  | base hop hstep =>
      obtain ⟨more, hlog, hnext⟩ := hgranted.step hop hstep
      refine ⟨more, hlog, hnext.imp_left fun hlater => ⟨hlater.1, hlater.2, hwritten⟩⟩
  | entered hrun =>
      refine ⟨[], by simp, Or.inl ⟨rfl, ?_, fun r hr => by simp [hrun r hr]⟩⟩
      exact ⟨hgranted.running, hgranted.inCall, hgranted.sleeps, hgranted.awake,
        hgranted.result⟩
  | @read now _ task _ =>
      refine ⟨[], by simp, Or.inl ⟨rfl, hgranted, ?_⟩⟩
      rintro r ⟨⟩ hmem
      obtain ⟨write, hwrite, heq⟩ := List.mem_map.mp hmem
      obtain ⟨rfl, rfl⟩ := Prod.mk.injEq .. ▸ heq
      exact tickDecision_awake hgranted.awake now hwrite
  | @wrote _ flag _ task _ write _ hrun =>
      obtain ⟨_, hframe⟩ := tickWritten_frame task (v.toKernel, flag) write
      have hpending := hwritten _ hrun
      rw [List.mem_cons, not_or] at hpending
      refine ⟨[], by simp [hframe], Or.inl ⟨rfl, ?_, ?_⟩⟩
      · refine hgranted.same (by simpa [hframe] using hgranted.running) (fun hblocked => ?_)
          (tickWritten_waitResult hpending.1 _)
        rcases tickWritten_state task (v.toKernel, flag) write t with hs | hs
        · simp [hs] at hblocked
        · exact hs.symm.trans hblocked
      · rintro r ⟨⟩
        exact hpending.2
  | @left flag =>
      obtain ⟨_, hframe⟩ := tickFinish_frame (v.toKernel, flag)
      have hkept := SameWait.of_kept (kept_tickFinish (v.toKernel, flag) t)
      refine ⟨[], by simp [hframe], Or.inl ⟨rfl, ?_, by simp⟩⟩
      exact hgranted.same (by simpa [hframe] using hgranted.running) hkept.blocked.mp
        hkept.waitResult

theorem HandedOff.run (h : HandedOff v t call)
    {R : TickWorld τ ι → TickOp τ ι → TickWorld τ ι → Prop}
    (hR : ∀ v op v', R v op v' → tickStep P v op = some v') {ops : List (TickOp τ ι)}
    (hrun : Run R v ops v') :
    ∃ more, v'.log = v.log ++ more ∧ OkNext t call more (HandedOff v' t call) := by
  induction hrun with
  | nil => exact ⟨[], by simp, Or.inl ⟨rfl, h⟩⟩
  | snoc _ hlast ih =>
      obtain ⟨more, hlog, hnext⟩ := ih
      have hstep := tickStep_cases (hR _ _ _ hlast)
      rcases hnext with ⟨hnone, hlater⟩ | hreturned
      · obtain ⟨last, hlog', hnext'⟩ := hlater.step hstep
        refine ⟨more ++ last, by rw [hlog', hlog, List.append_assoc], ?_⟩
        rw [OkNext, firstReturn_append, hnone]
        simpa [OkNext] using hnext'
      · obtain ⟨last, hlog'⟩ := tick_log hstep
        refine ⟨more ++ last, by rw [hlog', hlog, List.append_assoc], Or.inr ?_⟩
        rw [firstReturn_append, hreturned]
        rfl

end Ticks

variable [DecidableEq ι]

section HandOffs

variable {P : Platform τ} {k : Kernel τ ι} {w : World τ ι} {v v' : TickWorld τ ι}
variable {mode : Mode} {call : Call ι} {t : τ}

theorem callStep_tcb (w : World τ ι) (mode : Mode) (call : Call ι) :
    (callStep w mode call).tcb =
      (rtosCall (callEntered w.toKernel mode call) mode call).1.tcb := by
  unfold callStep callEntered
  dsimp only
  split <;> simp_all

theorem callStep_inCall (w : World τ ι) {exception : Word} {priority : Nat} (call : Call ι) :
    (callStep w (.handler exception priority) call).inCall = w.inCall := by
  unfold callStep
  dsimp only
  split <;> rfl

theorem callStep_running (w : World τ ι) {exception : Word} (hexception : exception ≠ 0)
    (priority : Nat) (call : Call ι) :
    (callStep w (.handler exception priority) call).running = w.running := by
  have hnumbered : HandlerNumbered (.handler exception priority) := by
    rintro _ _ ⟨⟩
    exact hexception
  have hframe := (rtosCall_effect
    (k := callEntered w.toKernel (.handler exception priority) call) hnumbered call).frame
  refine Eq.trans ?_ hframe.running
  unfold callStep callEntered
  dsimp only
  split <;> simp_all

theorem handlerCall_step {exception : Word} {priority : Nat}
    (h : tickStep P v (.base (.call (.handler exception priority) call)) = some v') :
    exception ≠ 0 ∧
      v' = { v with toWorld := callStep v.toWorld (.handler exception priority) call } := by
  simp only [tickStep] at h
  split at h
  · obtain ⟨w, hw, rfl⟩ := Option.map_eq_some_iff.mp h
    obtain ⟨hexception, rfl⟩ : exception ≠ 0 ∧
        callStep v.toWorld (.handler exception priority) call = w := by
      simpa [RtosSystem.step, modeRuns] using hw
    exact ⟨hexception, rfl⟩
  · simp at h

/-- The task that a handler's call wakes is the one it serves. -/
theorem wakes_served {exception : Word} {priority : Nat} (hexception : exception ≠ 0)
    (h : Wakes w (callStep w (.handler exception priority) call) t) :
    servedTask w.toKernel (.handler exception priority) call = some t := by
  by_contra hserved
  have hentered : servedTask (callEntered w.toKernel (.handler exception priority) call)
      (.handler exception priority) call ≠ some t := hserved
  have hkept := handler_servesOrKeeps
    (k := callEntered w.toKernel (.handler exception priority) call) hexception priority call t
  rw [ServesOrKeeps, if_neg hentered] at hkept
  obtain ⟨_, _, htcb⟩ := hkept
  have hblocked :
      ((callStep w (.handler exception priority) call).tcb t).state = .blocked := by
    rw [callStep_tcb, htcb]
    exact h.blocked
  rw [h.ready] at hblocked
  cases hblocked

theorem granted_of_served (h : Suspended w) {exception : Word} {priority : Nat}
    (hexception : exception ≠ 0)
    (hserved : servedTask w.toKernel (.handler exception priority) call = some t) :
    ∃ slept, w.inCall t = some slept ∧
      Granted (callStep w (.handler exception priority) call) t slept := by
  obtain ⟨_, hmem, hblocked⟩ := servedTask_waits hserved
  obtain ⟨slept, hslept, hsleeps⟩ := h.call t hmem hblocked
  obtain ⟨_, hkept⟩ := served_returns
    (k := callEntered w.toKernel (.handler exception priority) call) hexception hserved
  obtain ⟨_, _, htcb⟩ := hkept
  refine ⟨slept, hslept, ?_⟩
  constructor
  · exact (callStep_running w hexception priority call).trans (h.running hmem hblocked)
  · rw [callStep_inCall]
    exact hslept
  · exact hsleeps
  · rw [callStep_tcb, htcb]
    simp [leaveWait]
  · rw [callStep_tcb, htcb]
    rfl

/-- What an interrupt hands over arrives, when every task it serves is served in time. -/
theorem handOffs_kept (P : Platform τ) :
    HandOffsKept (Steps (timelyStep P : TickWorld τ ι → TickOp τ ι → _)) := by
  have htick : ∀ (v : TickWorld τ ι) (op : TickOp τ ι) (v' : TickWorld τ ι),
      Steps (timelyStep P) v op v' → tickStep P v op = some v' := fun _ _ _ h =>
    (timelyStep_eq_some.mp h).2
  intro v exception priority call v' t ops v'' call' result hv hfirst hwakes hrun hreturn
  obtain ⟨htimely, hstep⟩ := timelyStep_eq_some.mp hfirst
  have hsuspended := reached_suspended htick hv
  have hhanded : ∃ slept, v.inCall t = some slept ∧ HandedOff v' t slept := by
    obtain ⟨hexception, rfl⟩ := handlerCall_step hstep
    have hserved := wakes_served hexception hwakes
    obtain ⟨slept, hslept, hgranted⟩ := granted_of_served hsuspended hexception hserved
    exact ⟨slept, hslept, hgranted, fun r hr => htimely r hr t hserved⟩
  obtain ⟨slept, hslept, hhanded⟩ := hhanded
  obtain ⟨more, hlog, hnext⟩ := hhanded.run htick hrun
  rw [hlog, List.drop_left] at hreturn
  rcases hnext with ⟨hnone, _⟩ | hok
  · simp [hnone] at hreturn
  · obtain ⟨rfl, rfl⟩ := Prod.mk.inj (Option.some.inj (hok.symm.trans hreturn))
    exact ⟨hslept, rfl⟩

end HandOffs

section Demo

def demoStart : TickWorld Nat Nat where
  toWorld := demoReset
  tickRun := none

/-- Task 2 takes semaphore 1 with a timeout of one tick, and that tick decides to time it
out. -/
def demoDecided : List (TickOp Nat Nat) :=
  demoBoot.map .base ++
    [.base (.call .thread (.semaphoreTake (some 1) 1)), .base (.pendSV true), .enter, .read,
      .read, .read]

def demoGive : TickOp Nat Nat :=
  .base (.call (.handler 16 5) (.semaphoreGiveFromIsr (some 1)))

/-- The tick carries its decision out, and task 2 runs again. -/
def demoRest : List (TickOp Nat Nat) :=
  List.replicate 7 .write ++ [.exit, .base (.pendSV true), .base .resume]

abbrev DemoStep := TickWorld Nat Nat → TickOp Nat Nat → Option (TickWorld Nat Nat)

def demoTicks (step : DemoStep) (ops : List (TickOp Nat Nat)) : TickWorld Nat Nat :=
  (exec step demoStart ops).getD demoStart

theorem demoTicks_reached {step : DemoStep} {ops : List (TickOp Nat Nat)}
    (h : (exec step demoStart ops).isSome = true) :
    Reachable (Steps step) TickReset (demoTicks step ops) :=
  ⟨demoStart, ops, ⟨demoReset_reset, rfl⟩, exec_run h⟩

/-- The tick has also written the result of the take. -/
def demoWritten : List (TickOp Nat Nat) :=
  demoDecided ++ [.write, .write]

/-- The give comes once the result is written, so the take returns RTOS_OK. -/
theorem handOffs_kept_demo :
    let step : DemoStep := timelyStep demoPlatform
    let served := demoTicks step (demoWritten ++ [demoGive])
    let final := demoTicks step (demoWritten ++ [demoGive] ++ demoRest.drop 2)
    ∃ result, firstReturn 2 (final.log.drop served.log.length) =
      some (.semaphoreTake (some 1) 1, result) ∧ result = .ok := by
  intro step served final
  have hreturn : firstReturn 2 (final.log.drop served.log.length) =
      some (.semaphoreTake (some 1) 1, .ok) := by decide
  have hwakes : Wakes (demoTicks step demoWritten).toWorld served.toWorld 2 :=
    ⟨by decide, by decide, by decide⟩
  have hkept := handOffs_kept demoPlatform (demoTicks step demoWritten) 16 5
    (.semaphoreGiveFromIsr (some 1)) served 2 (demoRest.drop 2) final
    (.semaphoreTake (some 1) 1) .ok (demoTicks_reached (by decide)) (exec_step (by decide))
    hwakes (exec_run_append (by decide)) hreturn
  exact ⟨.ok, hreturn, hkept.2⟩

theorem handOffs_lost : ¬HandOffsKept (Steps (tickStep demoPlatform : DemoStep)) := by
  intro h
  have hlost := h (demoTicks (tickStep demoPlatform) demoDecided) 16 5
    (.semaphoreGiveFromIsr (some 1))
    (demoTicks (tickStep demoPlatform) (demoDecided ++ [demoGive])) 2 demoRest
    (demoTicks (tickStep demoPlatform) (demoDecided ++ [demoGive] ++ demoRest))
    (.semaphoreTake (some 1) 1) .errTimeout (demoTicks_reached (by decide))
    (exec_step (by decide)) ⟨by decide, by decide, by decide⟩ (exec_run_append (by decide))
    (by decide)
  exact absurd hlost.2 (by decide)

end Demo

end Stm32f411.InterruptedTick
