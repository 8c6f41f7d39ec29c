import Stm32f411.Preemption

/-!
The tasks of one priority take turns. Each selection scans the table in cyclic order from
the slot after the level's cursor, which is an 8-bit number, so the scan is fair for tables
of up to 256 slots.
-/

namespace Stm32f411.RoundRobin

open Stm32f411.LabelledRuns
open Stm32f411.CyclicScan
open Stm32f411.RtosTypes
open Stm32f411.RtosKernel
open Stm32f411.RtosIpc
open Stm32f411.RtosSystem
open Stm32f411.RtosKernelSpec
open Stm32f411.RtosBootSpec
open Stm32f411.RtosCallSpec
open Stm32f411.RtosStepSpec
open Stm32f411.KernelSoundness
open Stm32f411.PriorityInheritance
open Stm32f411.Preemption

variable {τ ι : Type} [DecidableEq τ]

/-- A selection of task `c` from the kernel `k`. -/
def Selection (k : Kernel τ ι) (c : τ) (k' : Kernel τ ι) : Prop :=
  ∃ stackValid, rtosScheduleFromPendsv k stackValid = .ok k' ∧ k'.currentTask = some c

/-- The next selection of a stretch in which `t` can run at level `priority` and every
selection returns a task of that level. Since the last one anything may have changed but
the table and the cursors. -/
def Selects (t : τ) (priority : Nat) (last : Kernel τ ι) (c : τ) (k' : Kernel τ ι) : Prop :=
  ∃ k : Kernel τ ι, k.tasks = last.tasks ∧ k.rrCursor = last.rrCursor ∧ Runnable k t ∧
    (k.tcb t).effectivePriority = priority ∧ Selection k c k' ∧
    (k.tcb c).effectivePriority = priority

section Selection

variable {k k' last : Kernel τ ι} {t c : τ} {priority : Nat}

theorem runsAt_switchedOut {index : Nat} {u : τ} :
    RunsAt (switchedOut k) priority index u ↔ RunsAt k priority index u := by
  rw [RunsAt, RunsAt, runnable_switchedOut, switchedOut_effectivePriority]
  rfl

/-- What a selection does to the cursor of the level it serves. -/
theorem selection_slot (h : Selection k c k') :
    k'.tasks = k.tasks ∧ ∃ index, RunsAt k (k.tcb c).effectivePriority index c ∧
      k'.rrCursor (k.tcb c).effectivePriority = BitVec.ofNat 8 index ∧
      ∀ i u, RunsAt k (k.tcb c).effectivePriority i u →
        distance k.tasks.length (k.rrCursor (k.tcb c).effectivePriority).toNat index ≤
          distance k.tasks.length (k.rrCursor (k.tcb c).effectivePriority).toNat i := by
  obtain ⟨stackValid, hschedule, hcurrent⟩ := h
  rw [schedule_eq] at hschedule
  split at hschedule
  · simp at hschedule
  · split at hschedule
    · simp at hschedule
    · next selected next hselect =>
        obtain ⟨index, hruns, rfl, hnear⟩ := selectNext_slot hselect
        obtain rfl := Except.ok.inj hschedule
        obtain rfl : next = c := Option.some.inj hcurrent
        simp only [runsAt_switchedOut, switchedOut_effectivePriority] at hruns hnear
        refine ⟨rfl, index, hruns, ?_, hnear⟩
        rw [← switchedOut_effectivePriority (k := k) next]
        exact Function.update_self _ _ _

/-- Selection succeeds when a task can run. -/
theorem exists_selection (ht : t ∈ k.tasks) (hrun : Runnable k t)
    (hlevel : (k.tcb t).effectivePriority < rtosPriorityLevels) :
    ∃ c k', Selection k c k' := by
  have hschedule := schedule_eq k true
  rw [Bool.not_true, Bool.and_false, if_neg Bool.false_ne_true] at hschedule
  rcases hselect : rtosSelectNext (switchedOut k) with ⟨selected, _ | next⟩
  · have hnone := selectNext_eq_none hselect ht (runnable_switchedOut.mpr hrun)
    rw [switchedOut_effectivePriority] at hnone
    exact absurd hlevel (not_lt.mpr hnone)
  · rw [hselect] at hschedule
    exact ⟨next, _, true, hschedule, rfl⟩

/-- A selection returns a task of the highest priority that can run. -/
theorem selection_highest (h : Selection k c k')
    (hlevels : ∀ u ∈ k.tasks, (k.tcb u).effectivePriority < rtosPriorityLevels) :
    c ∈ k.tasks ∧ Runnable k c ∧
      ∀ u ∈ k.tasks, Runnable k u →
        (k.tcb u).effectivePriority ≤ (k.tcb c).effectivePriority := by
  obtain ⟨stackValid, hschedule, hcurrent⟩ := h
  obtain ⟨next, hmem, hrun, hmax, cursor, rfl⟩ := schedule_ok hschedule
  obtain rfl : next = c := Option.some.inj hcurrent
  exact ⟨hmem, hrun, fun u hu hurun => hmax u hu hurun (hlevels u hu)⟩

end Selection

section Stretch

variable {k k' last : Kernel τ ι} {t c : τ} {priority : Nat}

theorem idxOf_of_slot {l : List τ} (hnodup : l.Nodup) {index : Nat} {u : τ}
    (h : l[index]? = some u) : l.idxOf u = index := by
  obtain ⟨hi, rfl⟩ := List.getElem?_eq_some_iff.mp h
  exact hnodup.idxOf_getElem index hi

theorem slot_of_mem {l : List τ} {u : τ} (h : u ∈ l) : l[l.idxOf u]? = some u := by
  rw [List.getElem?_eq_some_iff]
  exact ⟨List.idxOf_lt_length_of_mem h, List.getElem_idxOf _⟩

/-- A selection of the stretch is one scan of the table for the slot of `t`. -/
theorem Selects.serves (h : Selects t priority k c k') (hnodup : k.tasks.Nodup)
    (hsize : k.tasks.length ≤ 256) (ht : t ∈ k.tasks) :
    k'.tasks = k.tasks ∧ c ∈ k.tasks ∧
      Serves k.tasks.length (k.tasks.idxOf t) (k.rrCursor priority).toNat (k.tasks.idxOf c)
        (k'.rrCursor priority).toNat := by
  obtain ⟨m, htasks, hcursor, hrun, hprio, hselect, hlevel⟩ := h
  obtain ⟨hkept, index, hserved, hmoved, hnear⟩ := selection_slot hselect
  rw [hlevel, htasks, hcursor] at hnear
  rw [hlevel, RunsAt, htasks] at hserved
  rw [hlevel] at hmoved
  have hslot := idxOf_of_slot hnodup hserved.1
  have hindex : index < k.tasks.length := (List.getElem?_eq_some_iff.mp hserved.1).1
  refine ⟨hkept.trans htasks, List.mem_of_getElem? hserved.1, ?_, ?_, ?_⟩
  · rwa [hslot]
  · rw [hslot, hmoved, BitVec.toNat_ofNat]
    exact Nat.mod_eq_of_lt (hindex.trans_le hsize)
  · rw [hslot]
    refine hnear _ t ⟨?_, hrun, hprio⟩
    rw [htasks]
    exact slot_of_mem ht

/-- The stretch, seen as the slots that its selections serve. -/
theorem stretch_serves {stretch : List τ} (hnodup : last.tasks.Nodup)
    (hsize : last.tasks.length ≤ 256) (ht : t ∈ last.tasks)
    (hrun : Run (Selects t priority) last stretch k') :
    k'.tasks = last.tasks ∧ (∀ c ∈ stretch, c ∈ last.tasks) ∧
      Run (Serves last.tasks.length (last.tasks.idxOf t)) (last.rrCursor priority).toNat
        (stretch.map last.tasks.idxOf) (k'.rrCursor priority).toNat := by
  induction hrun with
  | nil => exact ⟨rfl, by simp, .nil⟩
  | @snoc stretch m m' c _ hlast ih =>
      obtain ⟨htasks, hmem, hslots⟩ := ih
      rw [← htasks] at hnodup hsize ht
      obtain ⟨hkept, hc, hserves⟩ := hlast.serves hnodup hsize ht
      rw [htasks] at hkept hc hserves
      refine ⟨hkept, ?_, ?_⟩
      · intro u hu
        rcases List.mem_append.mp hu with hu | hu
        · exact hmem u hu
        · rwa [List.mem_singleton.mp hu]
      · rw [List.map_append]
        exact .snoc hslots hserves

end Stretch

section Fairness

variable {k k' last : Kernel τ ι} {t : τ} {priority : Nat}

theorem stretch_once {stretch : List τ} (hnodup : last.tasks.Nodup)
    (hsize : last.tasks.length ≤ 256) (ht : t ∈ last.tasks)
    (hrun : Run (Selects t priority) last stretch k') :
    (stretch.takeWhile (· ≠ t)).Nodup := by
  obtain ⟨_, _, hslots⟩ := stretch_serves hnodup hsize ht hrun
  have hslot : last.tasks.idxOf t < last.tasks.length := List.idxOf_lt_length_of_mem ht
  have honce := served_once hslot hslots
  have hsame : (fun i => decide (i ≠ last.tasks.idxOf t)) ∘ last.tasks.idxOf =
      fun c => decide (c ≠ t) := by
    funext c
    have hinj := List.idxOf_inj (y := c) ht
    simp only [Function.comp_apply, ne_eq, decide_eq_decide, not_iff_not]
    rw [eq_comm, hinj, eq_comm]
  rw [List.takeWhile_map, hsame] at honce
  exact honce.of_map

/-- A task that can run waits for at most one turn of each other task. -/
theorem stretch_within {stretch : List τ} (hnodup : last.tasks.Nodup)
    (hsize : last.tasks.length ≤ 256) (ht : t ∈ last.tasks)
    (hrun : Run (Selects t priority) last stretch k')
    (hlong : last.tasks.length ≤ stretch.length) : t ∈ stretch.take last.tasks.length := by
  by_contra hnever
  obtain ⟨_, hmem, _⟩ := stretch_serves hnodup hsize ht hrun
  have hpass : ∀ c ∈ stretch.take last.tasks.length, decide (c ≠ t) = true := by
    intro c hc
    simpa using ne_of_mem_of_not_mem hc hnever
  have honce := stretch_once hnodup hsize ht hrun
  rw [← List.take_append_drop last.tasks.length stretch,
    List.takeWhile_append_of_pos hpass] at honce
  have hdistinct : (t :: stretch.take last.tasks.length).Nodup :=
    List.nodup_cons.mpr ⟨hnever, honce.of_append_left⟩
  have hsubset : t :: stretch.take last.tasks.length ⊆ last.tasks := by
    rintro c hc
    rcases List.mem_cons.mp hc with rfl | hc
    · exact ht
    · exact hmem c (List.mem_of_mem_take hc)
  have hlength := (List.subperm_of_subset hdistinct hsubset).length_le
  rw [List.length_cons, List.length_take_of_le hlong] at hlength
  omega

end Fairness

section System

variable {P : Platform τ} {w m w' : World τ ι} {t c : τ} {priority : Nat}

def isPendSV : Op τ ι → Bool
  | .pendSV _ => true
  | _ => false

/-- The steps between two selections. -/
def BetweenSwitches [DecidableEq ι]
    (P : Platform τ) (w : World τ ι) (op : Op τ ι) (w' : World τ ι) : Prop :=
  step P w op = some w' ∧ isPendSV op = false

structure SameTable (k k' : Kernel τ ι) : Prop where
  tasks : k'.tasks = k.tasks
  rrCursor : k'.rrCursor = k.rrCursor
  running : k'.running = k.running

omit [DecidableEq τ] in
theorem SameTable.trans {k k' k'' : Kernel τ ι} (h : SameTable k k') (h' : SameTable k' k'') :
    SameTable k k'' :=
  ⟨h'.tasks.trans h.tasks, h'.rrCursor.trans h.rrCursor, h'.running.trans h.running⟩

theorem sameTable_callEffect [DecidableEq ι] {k k' : Kernel τ ι} {mode : Mode} {call : Call ι}
    {outcome : Outcome} (h : CallEffect k mode call k' outcome) : SameTable k k' := by
  have hframe := h.frame
  refine ⟨hframe.tasks, ?_, hframe.running⟩
  cases h with
  | gaveTo _ _ _ => rw [maybePreempt_rrCursor]; rfl
  | unlockedTo _ _ _ _ => rw [maybePreempt_rrCursor]; rfl
  | sentTo _ _ _ => simp [handItem]
  | receivedFrom _ _ _ _ => rw [maybePreempt_rrCursor]; rfl
  | _ => rfl

theorem sameTable_tick (k : Kernel τ ι) : SameTable k (sysTickHandler k) := by
  obtain ⟨tcb, pended, htick⟩ := sysTickHandler_frame k
  constructor <;> rw [htick]

variable [DecidableEq ι]

omit [DecidableEq τ] in
/-- The running kernel ends no call of the start-up code with a changed table. -/
theorem sameTable_placed {k k' : Kernel τ ι} (h : ObjectPlaced k k') (hrun : k.running = true) :
    SameTable k k' := by
  rcases h with rfl | ⟨_, hstopped, _⟩
  · exact ⟨rfl, rfl, rfl⟩
  · simp [hrun] at hstopped

/-- Only a switch moves a cursor of the running kernel. -/
theorem BetweenSwitches.sameTable {op : Op τ ι} (h : BetweenSwitches P w op w')
    (hrun : w.running = true) : SameTable w.toKernel w'.toKernel := by
  obtain ⟨hstep, hop⟩ := h
  have hsame : SameTable w.toKernel w.toKernel := ⟨rfl, rfl, rfl⟩
  have hnot : ¬w.running = false := by simp [hrun]
  cases op with
  | pendSV _ => simp [isPendSV] at hop
  | init config =>
      obtain rfl := Option.some.inj hstep
      rcases init_cases P w.toKernel config with hk | hboot
      · rw [hk]
        exact hsame
      · exact absurd hboot.stopped hnot
  | taskCreate task function argument stack stackWords priority =>
      obtain rfl := Option.some.inj hstep
      rcases taskCreate_cases P w.toKernel task function argument stack stackWords priority
        with hk | ⟨_, hstopped, _⟩
      · rw [hk]
        exact hsame
      · exact absurd hstopped hnot
  | semaphoreInit semaphore initialCount maximumCount =>
      obtain rfl := Option.some.inj hstep
      exact sameTable_placed (semaphoreInit_cases _ _ _ _) hrun
  | mutexInit mutex =>
      obtain rfl := Option.some.inj hstep
      exact sameTable_placed (mutexInit_cases _ _) hrun
  | queueInit queue storage capacity itemSize =>
      obtain rfl := Option.some.inj hstep
      exact sameTable_placed (queueInit_cases _ _ _ _ _) hrun
  | start hookRegistered tickConfigured =>
      obtain rfl := Option.some.inj hstep
      rcases start_cases w.toKernel hookRegistered tickConfigured with
        hk | ⟨hstopped, _⟩ | hstart
      · rw [hk]
        exact hsame
      · exact absurd hstopped hnot
      · exact absurd hstart.stopped hnot
  | call mode call =>
      cases step_system hstep with
      | quiet hquiet _ => exact hquiet.elim
      | returned _ _ heffect =>
          have hcalled := sameTable_callEffect heffect
          exact ⟨hcalled.tasks, hcalled.rrCursor, hcalled.running⟩
      | suspended _ _ _ heffect =>
          have hcalled := sameTable_callEffect heffect
          exact ⟨hcalled.tasks, hcalled.rrCursor, hcalled.running⟩
  | resume =>
      cases step_system hstep with
      | quiet hquiet _ => exact hquiet.elim
      | resumed _ _ _ => exact ⟨rfl, rfl, rfl⟩
  | taskReturn =>
      obtain ⟨_, _, _, _, rfl⟩ := taskReturn_step hstep
      exact ⟨rfl, rfl, rfl⟩
  | tick =>
      obtain rfl := Option.some.inj hstep
      exact sameTable_tick _
  | write buffer bytes =>
      obtain rfl := Option.some.inj hstep
      exact ⟨rfl, rfl, rfl⟩

theorem sameTable_between {ops : List (Op τ ι)} (hrun : w.running = true)
    (hbetween : Run (BetweenSwitches P) w ops m) : SameTable w.toKernel m.toKernel := by
  induction hbetween with
  | nil => exact ⟨rfl, rfl, rfl⟩
  | snoc _ hlast ih => exact ih.trans (hlast.sameTable (ih.running.trans hrun))

/-- A PendSV of a running system is the next selection of a stretch. -/
theorem selects_of_system {ops : List (Op τ ι)} {stackValid : Bool} (hrun : w.running = true)
    (hbetween : Run (BetweenSwitches P) w ops m) (hready : Runnable m.toKernel t)
    (hprio : (m.tcb t).effectivePriority = priority)
    (hswitch : step P m (.pendSV stackValid) = some w') (hnext : w'.currentTask = some c)
    (hlevel : (m.tcb c).effectivePriority = priority) :
    Selects t priority w.toKernel c w'.toKernel := by
  have htable := sameTable_between hrun hbetween
  refine ⟨m.toKernel, htable.tasks, htable.rrCursor, hready, hprio, ⟨stackValid, ?_, hnext⟩,
    hlevel⟩
  have hrunning : m.running = true := htable.running.trans hrun
  simp only [step, hrunning, if_true] at hswitch
  split at hswitch
  · next k hk =>
      rw [hk, ← Option.some.inj hswitch]
  · simp at hswitch

end System

section Fair

/-- In every stretch of selections at the level of a task that can run, no other task is
returned twice before it, so it is returned within as many selections as the table has
slots; and every selection returns a task of the highest priority that can run. -/
theorem round_robin_fair {last k' : Kernel τ ι} {t : τ} {priority : Nat} {stretch : List τ}
    (hnodup : last.tasks.Nodup) (hsize : last.tasks.length ≤ 256) (ht : t ∈ last.tasks)
    (hrun : Run (Selects t priority) last stretch k') :
    (stretch.takeWhile (· ≠ t)).Nodup ∧
    (last.tasks.length ≤ stretch.length → t ∈ stretch.take last.tasks.length) ∧
    ∀ (k next : Kernel τ ι) (c : τ),
      (∀ u ∈ k.tasks, (k.tcb u).effectivePriority < rtosPriorityLevels) →
      Selection k c next → c ∈ k.tasks ∧ Runnable k c ∧
        ∀ u ∈ k.tasks, Runnable k u →
          (k.tcb u).effectivePriority ≤ (k.tcb c).effectivePriority :=
  ⟨stretch_once hnodup hsize ht hrun, stretch_within hnodup hsize ht hrun,
    fun _ _ _ hlevels hselect => selection_highest hselect hlevels⟩

/-- Tasks 1 and 2 take turns. -/
theorem round_robin_fair_demo :
    ∃ k', Run (Selects 1 3) (demoRun demoPair).toKernel [2, 1, 2] k' ∧
      ([2, 1, 2].takeWhile (· ≠ 1)).Nodup ∧
      1 ∈ [2, 1, 2].take (demoRun demoPair).tasks.length := by
  have hswitch := fun ops hops => demoRun_step (demoPair ++ ops) (.pendSV true) hops
  have hfirst : Selects 1 3 (demoRun demoPair).toKernel 2
      (demoRun (demoPair ++ [] ++ [.pendSV true])).toKernel :=
    selects_of_system (by decide) .nil (Or.inr (by decide)) (by decide)
      (hswitch [] (by decide)) (by decide) (by decide)
  have hsecond : Selects 1 3 (demoRun (demoPair ++ [.pendSV true])).toKernel 1
      (demoRun (demoPair ++ [.pendSV true] ++ [.pendSV true])).toKernel :=
    selects_of_system (by decide) .nil (Or.inl (by decide)) (by decide)
      (hswitch [.pendSV true] (by decide)) (by decide) (by decide)
  have hthird : Selects 1 3 (demoRun (demoPair ++ [.pendSV true, .pendSV true])).toKernel 2
      (demoRun (demoPair ++ [.pendSV true, .pendSV true] ++ [.pendSV true])).toKernel :=
    selects_of_system (by decide) .nil (Or.inr (by decide)) (by decide)
      (hswitch [.pendSV true, .pendSV true] (by decide)) (by decide) (by decide)
  have hrun := Run.snoc (.snoc (.single hfirst) hsecond) hthird
  have hfair := round_robin_fair (by decide) (by decide) (by decide) hrun
  exact ⟨_, hrun, hfair.1, hfair.2.1 (by decide)⟩

end Fair

section WideTable

/-- A table of 257 slots of which the first and the last can run. -/
structure Wide (k : Kernel Nat Nat) : Prop where
  tasks : k.tasks = List.range 257
  runnable : ∀ u, Runnable k u ↔ u = 0 ∨ u = 256
  level : ∀ u, (k.tcb u).effectivePriority = 3
  cursor : k.rrCursor 3 = 0

def wideTable : Kernel Nat Nat :=
  { demoReset.toKernel with
    tasks := List.range 257
    tcb := fun t =>
      { demoReset.tcb t with
        state := if t = 0 ∨ t = 256 then .ready else .delayed
        effectivePriority := 3 } }

theorem wideTable_wide : Wide wideTable where
  tasks := by rw [wideTable]
  runnable u := by
    unfold Runnable
    simp only [wideTable]
    split <;> simp_all
  level u := by simp only [wideTable]
  cursor := by simp only [wideTable, demoReset]

/-- The cursor cannot tell the last slot from the first, so the last one is served again. -/
theorem Wide.select {k : Kernel Nat Nat} (h : Wide k) :
    ∃ k', Selection k 256 k' ∧ Wide k' := by
  have hslot : ∀ u, u = 0 ∨ u = 256 → RunsAt k 3 u u := by
    rintro u hu
    refine ⟨?_, (h.runnable u).mpr hu, h.level u⟩
    rw [h.tasks, List.getElem?_range (by omega)]
  have hzero : (0 : Nat) ∈ k.tasks := by simp [h.tasks]
  obtain ⟨c, k', hselect⟩ := exists_selection hzero (hslot 0 (Or.inl rfl)).2.1
    (by rw [h.level]; decide)
  obtain ⟨htasks, index, hserved, hcursor, hnear⟩ := selection_slot hselect
  rw [h.level] at hserved hcursor hnear
  have hindex : index = c := by
    obtain ⟨hi, hget⟩ := List.getElem?_eq_some_iff.mp hserved.1
    simpa [h.tasks] using hget
  have hlast := hnear 256 256 (hslot 256 (Or.inr rfl))
  rw [h.cursor, h.tasks, List.length_range] at hlast
  obtain rfl : c = 256 := by
    rcases (h.runnable c).mp hserved.2.1 with rfl | rfl
    · rw [hindex] at hlast
      exact absurd hlast (by decide)
    · rfl
  refine ⟨k', hselect, ?_⟩
  obtain ⟨stackValid, hschedule, _⟩ := hselect
  obtain ⟨next, hswitch⟩ := schedule_ok hschedule
  constructor
  · rw [htasks, h.tasks]
  · intro u
    rw [hswitch.runnable_iff, h.runnable]
  · intro u
    rw [hswitch.tcb_eq]
    exact h.level u
  · rw [hcursor, hindex]
    rfl

/-- In a table of 257 slots a task that can run is passed over while another one of its
level is returned twice. -/
theorem wide_table_unfair : ∃ k', wideTable.tasks.Nodup ∧ 0 ∈ wideTable.tasks ∧
    Run (Selects 0 3) wideTable [256, 256] k' ∧
    ¬([256, 256].takeWhile (· ≠ 0)).Nodup := by
  obtain ⟨k₁, hfirst, hwide⟩ := wideTable_wide.select
  obtain ⟨k₂, hsecond, _⟩ := hwide.select
  have hselects : ∀ {k k' : Kernel Nat Nat}, Wide k → Selection k 256 k' →
      Selects 0 3 k 256 k' := fun hk hselect =>
    ⟨_, rfl, rfl, (hk.runnable 0).mpr (Or.inl rfl), hk.level 0, hselect, hk.level 256⟩
  refine ⟨k₂, ?_, ?_, ?_, by decide⟩
  · rw [wideTable_wide.tasks]
    exact List.nodup_range
  · simp [wideTable_wide.tasks]
  · exact .snoc (.single (hselects wideTable_wide hfirst)) (hselects hwide hsecond)

end WideTable

end Stm32f411.RoundRobin
