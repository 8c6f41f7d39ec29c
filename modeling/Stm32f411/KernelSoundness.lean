import Stm32f411.RtosStepSpec

/-!
The structural invariant of the kernel state. Every write the kernel makes to its tasks
and objects preserves it on its own, so it holds also between the writes of one step.
-/

namespace Stm32f411.KernelSoundness

open Stm32f411.RtosTypes
open Stm32f411.RtosKernel
open Stm32f411.RtosIpc
open Stm32f411.RtosSystem
open Stm32f411.RtosKernelSpec
open Stm32f411.RtosBootSpec
open Stm32f411.RtosCallSpec
open Stm32f411.RtosStepSpec

variable {τ ι : Type}

structure Sound (P : Platform τ) (k : Kernel τ ι) : Prop where
  nodup : k.tasks.Nodup
  idle_mem : k.initialized = true → P.idle ∈ k.tasks
  idle_base : k.initialized = true → (k.tcb P.idle).basePriority = rtosIdlePriority
  idle_runs : k.initialized = true → Runnable k P.idle
  initialized : k.running = true → k.initialized = true
  current : k.running = true → ∃ c ∈ k.tasks, k.currentTask = some c
  stopped_current : k.running = false → k.currentTask = none
  stopped_pended : k.running = false → k.pended = false
  stopped_ready : k.running = false → ∀ t ∈ k.tasks, (k.tcb t).state = .ready
  stopped_priority : k.running = false →
    ∀ t ∈ k.tasks, (k.tcb t).effectivePriority = (k.tcb t).basePriority
  stopped_owner : k.running = false → ∀ p, (k.objects p).owner? = none
  running_current : ∀ t ∈ k.tasks, (k.tcb t).state = .running → k.currentTask = some t
  switch_pended : ∀ c, k.currentTask = some c → (k.tcb c).state ≠ .running → k.pended = true
  blocked_iff : ∀ t ∈ k.tasks, (k.tcb t).state = .blocked ↔ (k.tcb t).waitType ≠ .none
  wait_object : ∀ t ∈ k.tasks, (k.tcb t).state = .blocked →
    ∃ p, (k.tcb t).waitObject = some p ∧ (k.tcb t).waitType.matches (k.objects p)
  wait_buffer : ∀ t ∈ k.tasks, (k.tcb t).state = .blocked →
    (k.tcb t).waitType = .queueSend ∨ (k.tcb t).waitType = .queueReceive →
    ∃ buffer, (k.tcb t).waitBuffer = some buffer
  owner_task : ∀ p t, (k.objects p).owner? = some t → t ∈ k.tasks ∧ t ≠ P.idle
  base_lt : ∀ t ∈ k.tasks, (k.tcb t).basePriority < rtosPriorityLevels

/-- The fields of a TCB that the invariant reads. -/
structure SameTask (t t' : RtosTask ι) : Prop where
  state : t'.state = t.state
  waitType : t'.waitType = t.waitType
  waitObject : t'.waitObject = t.waitObject
  waitBuffer : t'.waitBuffer = t.waitBuffer
  basePriority : t'.basePriority = t.basePriority

theorem SameTask.refl (t : RtosTask ι) : SameTask t t :=
  ⟨rfl, rfl, rfl, rfl, rfl⟩

/-- The kernel changes in nothing the invariant reads. -/
structure SameShape (k k' : Kernel τ ι) : Prop where
  tasks : k'.tasks = k.tasks
  currentTask : k'.currentTask = k.currentTask
  initialized : k'.initialized = k.initialized
  running : k'.running = k.running
  pended : k.pended = true → k'.pended = true
  stopped : k.running = false → k'.pended = k.pended ∧
    ∀ t ∈ k.tasks, (k'.tcb t).effectivePriority = (k.tcb t).effectivePriority
  owner : ∀ p, (k'.objects p).owner? = (k.objects p).owner?
  matching : ∀ (waitType : WaitType) p,
    waitType.matches (k.objects p) → waitType.matches (k'.objects p)
  task : ∀ t, SameTask (k.tcb t) (k'.tcb t)

section Preservation

variable {P : Platform τ} {k k' : Kernel τ ι}

theorem Sound.sameShape (h : Sound P k) (hs : SameShape k k') : Sound P k' := by
  constructor
  · rw [hs.tasks]
    exact h.nodup
  · rw [hs.initialized, hs.tasks]
    exact h.idle_mem
  · rw [hs.initialized, (hs.task _).basePriority]
    exact h.idle_base
  · rw [hs.initialized, Runnable, (hs.task _).state]
    exact h.idle_runs
  · rw [hs.running, hs.initialized]
    exact h.initialized
  · rw [hs.running, hs.tasks, hs.currentTask]
    exact h.current
  · rw [hs.running, hs.currentTask]
    exact h.stopped_current
  · intro hr
    rw [hs.running] at hr
    rw [(hs.stopped hr).1]
    exact h.stopped_pended hr
  · intro hr t ht
    rw [hs.running] at hr
    rw [hs.tasks] at ht
    rw [(hs.task t).state]
    exact h.stopped_ready hr t ht
  · intro hr t ht
    rw [hs.running] at hr
    rw [hs.tasks] at ht
    rw [(hs.stopped hr).2 t ht, (hs.task t).basePriority]
    exact h.stopped_priority hr t ht
  · intro hr p
    rw [hs.running] at hr
    rw [hs.owner]
    exact h.stopped_owner hr p
  · intro t ht
    rw [hs.tasks] at ht
    rw [(hs.task t).state, hs.currentTask]
    exact h.running_current t ht
  · intro c hc
    rw [hs.currentTask] at hc
    rw [(hs.task c).state]
    exact fun hstate => hs.pended (h.switch_pended c hc hstate)
  · intro t ht
    rw [hs.tasks] at ht
    rw [(hs.task t).state, (hs.task t).waitType]
    exact h.blocked_iff t ht
  · intro t ht hblocked
    rw [hs.tasks] at ht
    rw [(hs.task t).state] at hblocked
    obtain ⟨p, hp, hmatch⟩ := h.wait_object t ht hblocked
    refine ⟨p, ?_, ?_⟩
    · rw [(hs.task t).waitObject, hp]
    · rw [(hs.task t).waitType]
      exact hs.matching _ _ hmatch
  · intro t ht
    rw [hs.tasks] at ht
    rw [(hs.task t).state, (hs.task t).waitType, (hs.task t).waitBuffer]
    exact h.wait_buffer t ht
  · intro p t
    rw [hs.owner, hs.tasks]
    exact h.owner_task p t
  · intro t ht
    rw [hs.tasks] at ht
    rw [(hs.task t).basePriority]
    exact h.base_lt t ht

theorem Sound.record (h : Sound P k) (event : Event τ ι) : Sound P (k.record event) :=
  { h with }

theorem Sound.setBuffer (h : Sound P k) (buffer : BufferPtr) (bytes : Nat → Byte) :
    Sound P (k.setBuffer buffer bytes) :=
  { h with }

theorem Sound.pend (h : Sound P k) (hrun : k.running = true) :
    Sound P (rtosPortPendContextSwitch k) :=
  { h with
    stopped_pended := fun hr => absurd hrun (by simpa using hr)
    switch_pended := fun _ _ _ => rfl }

/-- A preemption test changes nothing but the pending bit, and only once the kernel runs. -/
theorem Sound.maybePreempt (h : Sound P k) (t : Option τ) : Sound P (rtosMaybePreempt k t) := by
  unfold rtosMaybePreempt
  split
  · next hpre =>
      cases hrun : k.running with
      | true => exact h.pend hrun
      | false =>
          have hcur := h.stopped_current hrun
          cases t <;> simp [rtosKernelShouldPreempt, hcur] at hpre
  · exact h

/-- An object is replaced by one of the same kind with the same owner. -/
theorem Sound.setObject [DecidableEq ι] (h : Sound P k) {p : ι} {object : Object τ}
    (howner : object.owner? = (k.objects p).owner?)
    (hmatch : ∀ waitType : WaitType,
      waitType.matches (k.objects p) → waitType.matches object) :
    Sound P (k.setObject p object) := by
  refine h.sameShape ⟨rfl, rfl, rfl, rfl, id, fun _ => ⟨rfl, fun _ _ => rfl⟩, ?_, ?_,
    fun t => .refl _⟩
  · intro q
    rcases eq_or_ne q p with rfl | hq
    · simpa using howner
    · simp [hq]
  · intro waitType q hm
    rcases eq_or_ne q p with rfl | hq
    · simpa using hmatch waitType hm
    · simpa [hq] using hm

theorem Sound.setOwner [DecidableEq ι]
    (h : Sound P k) (hrun : k.running = true) {p : ι} {m : Mutex τ}
    (hobj : k.objects p = .mutex m) {owner : Option τ}
    (howner : ∀ t, owner = some t → t ∈ k.tasks ∧ t ≠ P.idle) :
    Sound P (k.setObject p (.mutex ⟨owner⟩)) :=
  { h with
    stopped_owner := fun hr => absurd hrun (by simpa using hr)
    wait_object := by
      intro t ht hblocked
      obtain ⟨q, hq, hmatch⟩ := h.wait_object t ht hblocked
      refine ⟨q, hq, ?_⟩
      rcases eq_or_ne q p with rfl | hqp
      · rw [hobj] at hmatch
        simpa using hmatch
      · simpa [hqp] using hmatch
    owner_task := by
      intro q t hq
      rcases eq_or_ne q p with rfl | hqp
      · exact howner t (by simpa using hq)
      · exact h.owner_task q t (by simpa [hqp] using hq) }

/-- Rewriting fields of one TCB that the invariant does not read. -/
theorem Sound.modifyTask [DecidableEq τ] (h : Sound P k) (t : τ) {f : RtosTask ι → RtosTask ι}
    (hsame : SameTask (k.tcb t) (f (k.tcb t)))
    (hprio : (f (k.tcb t)).effectivePriority = (k.tcb t).effectivePriority) :
    Sound P (k.modifyTask t f) := by
  refine h.sameShape ⟨rfl, rfl, rfl, rfl, id, fun _ => ⟨rfl, ?_⟩, fun _ => rfl,
    fun _ _ hm => hm, ?_⟩
  · intro u _
    rcases eq_or_ne u t with rfl | hu
    · simpa using hprio
    · simp [hu]
  · intro u
    rcases eq_or_ne u t with rfl | hu
    · simpa using hsame
    · simpa [hu] using SameTask.refl _

theorem Sound.recompute [DecidableEq τ] (h : Sound P k) (hrun : k.running = true) :
    Sound P (rtosKernelRecomputePriorities k) :=
  h.sameShape ⟨rfl, rfl, rfl, rfl, id, fun hr => absurd hrun (by simpa using hr),
    fun _ => rfl, fun _ _ hm => hm, fun _ => ⟨rfl, rfl, rfl, rfl, rfl⟩⟩

theorem Sound.running_of_asleep (h : Sound P k) {t : τ} (ht : t ∈ k.tasks)
    (hstate : (k.tcb t).state ≠ .ready) : k.running = true := by
  cases hrun : k.running with
  | true => rfl
  | false => exact absurd (h.stopped_ready hrun t ht) hstate

theorem Sound.ne_idle_of_state (h : Sound P k) (hinit : k.initialized = true) {t : τ}
    (hready : (k.tcb t).state ≠ .ready) (hrunning : (k.tcb t).state ≠ .running) :
    t ≠ P.idle := by
  rintro rfl
  rcases h.idle_runs hinit with hs | hs
  · exact hready hs
  · exact hrunning hs

/-- A task that sleeps waits for an object of the right kind, with a buffer if it needs
one. -/
structure WaitFields (k : Kernel τ ι) (t : RtosTask ι) : Prop where
  blocked : t.state = .blocked ↔ t.waitType ≠ .none
  object : t.state = .blocked →
    ∃ p, t.waitObject = some p ∧ t.waitType.matches (k.objects p)
  buffer : t.state = .blocked → t.waitType = .queueSend ∨ t.waitType = .queueReceive →
    ∃ buffer, t.waitBuffer = some buffer

/-- The invariant of one registered task. -/
structure TaskSound (k : Kernel τ ι) (t : τ) (task : RtosTask ι) : Prop where
  running : task.state = .running → k.currentTask = some t
  wait : WaitFields k task
  base_lt : task.basePriority < rtosPriorityLevels

theorem Sound.task (h : Sound P k) {t : τ} (ht : t ∈ k.tasks) : TaskSound k t (k.tcb t) where
  running := h.running_current t ht
  wait := ⟨h.blocked_iff t ht, h.wait_object t ht, h.wait_buffer t ht⟩
  base_lt := h.base_lt t ht

/-- While the kernel runs, any TCB but the idle one's may change, as long as a switch is
pended when the current task stops running. -/
theorem Sound.changeTask [DecidableEq τ] (h : Sound P k) (hrun : k.running = true) {w : τ}
    (hidle : w ≠ P.idle) {f : RtosTask ι → RtosTask ι} {pended : Bool}
    (htask : w ∈ k.tasks → TaskSound k w (f (k.tcb w)))
    (hpended : k.pended = true → pended = true)
    (hswitch : k.currentTask = some w → (f (k.tcb w)).state ≠ .running → pended = true) :
    Sound P { k.modifyTask w f with pended := pended } := by
  have hstopped : ∀ {p : Prop}, k.running = false → p := fun hr => absurd hrun (by simp [hr])
  have hidle' : (k.modifyTask w f).tcb P.idle = k.tcb P.idle := by simp [hidle.symm]
  have hall : ∀ t ∈ k.tasks, TaskSound k t ((k.modifyTask w f).tcb t) := by
    intro t ht
    rcases eq_or_ne t w with rfl | hne
    · simpa using htask ht
    · simpa [hne] using h.task ht
  refine { h with
    idle_base := ?_, idle_runs := ?_, stopped_pended := hstopped, stopped_ready := hstopped,
    stopped_priority := hstopped, running_current := fun t ht => (hall t ht).running,
    switch_pended := ?_, blocked_iff := fun t ht => (hall t ht).wait.blocked,
    wait_object := fun t ht => (hall t ht).wait.object,
    wait_buffer := fun t ht => (hall t ht).wait.buffer,
    base_lt := fun t ht => (hall t ht).base_lt }
  · intro hi
    rw [hidle']
    exact h.idle_base hi
  · intro hi
    rw [Runnable, hidle']
    exact h.idle_runs hi
  · intro c hc hs
    rcases eq_or_ne c w with rfl | hne
    · exact hswitch hc (by simpa using hs)
    · exact hpended (h.switch_pended c hc (by simpa [hne] using hs))

/-- A sleeping task is made READY, with nothing left of its wait. -/
theorem Sound.makeReady [DecidableEq τ] (h : Sound P k) {w : τ} (hw : w ∈ k.tasks)
    (hasleep : (k.tcb w).state = .blocked ∨ (k.tcb w).state = .delayed)
    {f : RtosTask ι → RtosTask ι} (hstate : (f (k.tcb w)).state = .ready)
    (htype : (f (k.tcb w)).waitType = .none)
    (hbase : (f (k.tcb w)).basePriority = (k.tcb w).basePriority) :
    Sound P (k.modifyTask w f) := by
  have hready : (k.tcb w).state ≠ .ready := by rcases hasleep with hs | hs <;> simp [hs]
  have hrunning : (k.tcb w).state ≠ .running := by rcases hasleep with hs | hs <;> simp [hs]
  have hrun := h.running_of_asleep hw hready
  have hidle : w ≠ P.idle := h.ne_idle_of_state (h.initialized hrun) hready hrunning
  have htask : TaskSound k w (f (k.tcb w)) := by
    refine ⟨?_, ⟨by simp [hstate, htype], ?_, ?_⟩, by simpa [hbase] using h.base_lt w hw⟩
    · simp [hstate]
    · simp [hstate]
    · simp [hstate]
  have hchanged : Sound P { k.modifyTask w f with pended := k.pended } :=
    h.changeTask hrun hidle (fun _ => htask) id fun hc _ => h.switch_pended w hc hrunning
  exact hchanged

theorem Sound.wake [DecidableEq τ] (h : Sound P k) {w : τ} (hw : w ∈ k.tasks)
    (hblocked : (k.tcb w).state = .blocked) (result : Status) :
    Sound P (k.modifyTask w (leaveWait result)) :=
  h.makeReady hw (Or.inl hblocked) rfl rfl rfl

/-- The current task stops running and a switch is pended. -/
theorem Sound.stop [DecidableEq τ] (h : Sound P k) (hrun : k.running = true) {self : τ}
    (hidle : self ≠ P.idle) {f : RtosTask ι → RtosTask ι}
    (hstate : (f (k.tcb self)).state ≠ .running) (hwait : WaitFields k (f (k.tcb self)))
    (hbase : (f (k.tcb self)).basePriority = (k.tcb self).basePriority) :
    Sound P (rtosPortPendContextSwitch (k.modifyTask self f)) := by
  refine h.changeTask hrun hidle (fun hself => ⟨?_, hwait, ?_⟩) (fun _ => rfl) fun _ _ => rfl
  · exact fun hs => absurd hs hstate
  · simpa [hbase] using h.base_lt self hself

theorem Sound.sleepOn [DecidableEq τ] (h : Sound P k) (hrun : k.running = true) {self : τ}
    (hidle : self ≠ P.idle) {waitType : WaitType} {p : ι} {buffer : Option BufferPtr}
    (hmatch : waitType.matches (k.objects p))
    (hbuffer : waitType = .queueSend ∨ waitType = .queueReceive → ∃ b, buffer = some b)
    (timeoutTicks : Word) : Sound P (sleepOn k self waitType p buffer timeoutTicks) := by
  have htype : waitType ≠ .none := by
    rintro rfl
    cases hobj : k.objects p <;> simp [WaitType.matches] at hmatch
  exact { h.stop hrun hidle (f := enterWait k waitType p buffer timeoutTicks)
    (by simp [enterWait])
    ⟨by simp [enterWait, htype], fun _ => ⟨p, rfl, hmatch⟩, fun _ => hbuffer⟩ rfl with }

theorem Sound.waitType_none (h : Sound P k) {t : τ} (ht : t ∈ k.tasks)
    (hstate : (k.tcb t).state ≠ .blocked) : (k.tcb t).waitType = .none := by
  by_contra htype
  exact hstate ((h.blocked_iff t ht).mpr htype)

theorem Sound.current_mem (h : Sound P k) (hrun : k.running = true) {self : τ}
    (hcur : k.currentTask = some self) : self ∈ k.tasks := by
  obtain ⟨c, hc, hcc⟩ := h.current hrun
  obtain rfl : self = c := by simpa [hcur] using hcc
  exact hc

theorem Sound.running_of_current (h : Sound P k) {self : τ}
    (hcur : k.currentTask = some self) : k.running = true := by
  cases hrun : k.running with
  | true => rfl
  | false => simp [h.stopped_current hrun] at hcur

variable [DecidableEq τ]

/-- The current task stops for a reason other than an object. -/
theorem Sound.stopUnblocked (h : Sound P k) (hrun : k.running = true) {self : τ}
    (hcur : k.currentTask = some self) (hidle : self ≠ P.idle)
    (hself : (k.tcb self).state = .running) {f : RtosTask ι → RtosTask ι}
    (hrunning : (f (k.tcb self)).state ≠ .running)
    (hblocked : (f (k.tcb self)).state ≠ .blocked)
    (htype : (f (k.tcb self)).waitType = (k.tcb self).waitType)
    (hbase : (f (k.tcb self)).basePriority = (k.tcb self).basePriority) :
    Sound P (rtosPortPendContextSwitch (k.modifyTask self f)) := by
  have hnone := h.waitType_none (h.current_mem hrun hcur) (by simp [hself])
  refine h.stop hrun hidle hrunning ⟨?_, ?_, ?_⟩ hbase
  · simp [htype, hnone, hblocked]
  · exact fun hs => absurd hs hblocked
  · exact fun hs => absurd hs hblocked

theorem Sound.switched (h : Sound P k) (hrun : k.running = true) {next : τ}
    (hswitch : Switched k next k') : Sound P k' := by
  have htcb := hswitch.tcb_eq
  have hblocked := hswitch.blocked
  have hrunnable := hswitch.runnable_iff
  obtain ⟨hmem, _, _, cursor, hk'⟩ := hswitch
  have htasks : k'.tasks = k.tasks := by simp [hk']
  have hobjects : k'.objects = k.objects := by
    funext p
    simp [hk']
  have hcurrent : k'.currentTask = some next := by simp [hk']
  have hrun' : k'.running = true := by simpa [hk'] using hrun
  have hinit : k'.initialized = k.initialized := by simp [hk']
  have hstopped : ∀ {p : Prop}, k'.running = false → p := fun hr => absurd hrun' (by simp [hr])
  have honly : ∀ t ∈ k.tasks, (k'.tcb t).state = .running → next = t := by
    intro t ht hs
    by_contra hne
    rw [htcb] at hs
    simp only [Ne.symm hne, if_false] at hs
    split at hs
    · simp at hs
    · next hother => exact hother ⟨h.running_current t ht hs, hs⟩
  refine ⟨by rw [htasks]; exact h.nodup, by rw [htasks, hinit]; exact h.idle_mem, ?_, ?_,
    fun _ => by rw [hinit]; exact h.initialized hrun,
    fun _ => ⟨next, by rwa [htasks], hcurrent⟩, hstopped, hstopped, hstopped, hstopped,
    hstopped, ?_, ?_, ?_, ?_, ?_, ?_, ?_⟩
  · rw [hinit, htcb]
    exact h.idle_base
  · intro hi
    rw [hinit] at hi
    exact (hrunnable _).mpr (h.idle_runs hi)
  · intro t ht hs
    rw [htasks] at ht
    rw [hcurrent, honly t ht hs]
  · intro c hc hs
    obtain rfl : next = c := by simpa [hcurrent] using hc
    exact absurd (by rw [htcb]; simp) hs
  · intro t ht
    rw [htasks] at ht
    rw [hblocked, htcb]
    exact h.blocked_iff t ht
  · intro t ht hs
    rw [htasks] at ht
    rw [htcb, hobjects]
    exact h.wait_object t ht ((hblocked t).mp hs)
  · intro t ht hs
    rw [htasks] at ht
    rw [htcb]
    exact h.wait_buffer t ht ((hblocked t).mp hs)
  · intro p t ht
    rw [hobjects] at ht
    rw [htasks]
    exact h.owner_task p t ht
  · intro t ht
    rw [htasks] at ht
    rw [htcb]
    exact h.base_lt t ht

end Preservation

section Boot

variable {P : Platform τ} {k k' : Kernel τ ι}

theorem Sound.reset {w : World τ ι} (h : Reset w) : Sound P w.toKernel := by
  constructor <;> simp [h.tasks, h.initialized, h.running, h.currentTask, h.pended, h.objects]

theorem Sound.booted [DecidableEq τ] (h : Sound P k) (hboot : Booted P k k') : Sound P k' := by
  obtain ⟨hstopped, hfresh, t, config, mask, rfl⟩ := hboot
  simp only [Function.update_self] at hfresh
  have hpended := h.stopped_pended hstopped
  have howner := h.stopped_owner hstopped
  constructor <;>
    simp [hstopped, hpended, howner, hfresh.state, hfresh.waitType, hfresh.basePriority,
      hfresh.effectivePriority, Runnable]
  decide

theorem Sound.created [DecidableEq τ] (h : Sound P k) (hinit : k.initialized = true)
    (hstopped : k.running = false) {task : τ} {priority : Nat}
    (hadd : Added k task priority k') :
    Sound P { k' with applicationTaskCount := k'.applicationTaskCount + 1 } := by
  obtain ⟨hnew, hlt, hfresh, t, rfl⟩ := hadd
  simp only [Function.update_self] at hfresh
  have hidle := h.idle_mem hinit
  have hne : P.idle ≠ task := fun he => hnew (he ▸ hidle)
  have hold : ∀ u ∈ k.tasks, u ≠ task := fun u hu he => hnew (he ▸ hu)
  have hready : ∀ u ∈ k.tasks ++ [task],
      (Function.update k.tcb task t u).state = .ready := by
    intro u hu
    rcases List.mem_append.mp hu with hu | hu
    · simpa [hold u hu] using h.stopped_ready hstopped u hu
    · obtain rfl : u = task := by simpa using hu
      simpa using hfresh.state
  constructor
  · refine List.nodup_append.mpr ⟨h.nodup, by simp, ?_⟩
    rintro u hu v hv rfl
    obtain rfl : u = task := by simpa using hv
    exact hnew hu
  · intro _
    exact List.mem_append_left _ hidle
  · intro _
    simpa [hne] using h.idle_base hinit
  · intro _
    simpa [hne, Runnable] using h.idle_runs hinit
  · intro hr
    simp [hstopped] at hr
  · intro hr
    simp [hstopped] at hr
  · exact fun _ => h.stopped_current hstopped
  · exact fun _ => h.stopped_pended hstopped
  · exact fun _ => hready
  · intro _ u hu
    rcases List.mem_append.mp hu with hu | hu
    · simpa [hold u hu] using h.stopped_priority hstopped u hu
    · obtain rfl : u = task := by simpa using hu
      simp [hfresh.effectivePriority, hfresh.basePriority]
  · exact fun _ => h.stopped_owner hstopped
  · intro u hu hs
    exact absurd (hready u hu) (by rw [hs]; simp)
  · intro c hc
    simp [h.stopped_current hstopped] at hc
  · intro u hu
    rcases List.mem_append.mp hu with hu | hu
    · simpa [hold u hu] using h.blocked_iff u hu
    · obtain rfl : u = task := by simpa using hu
      simp [hfresh.state, hfresh.waitType]
  · intro u hu hs
    exact absurd (hready u hu) (by rw [hs]; simp)
  · intro u hu hs
    exact absurd (hready u hu) (by rw [hs]; simp)
  · intro p u hu
    simp [h.stopped_owner hstopped] at hu
  · intro u hu
    rcases List.mem_append.mp hu with hu | hu
    · simpa [hold u hu] using h.base_lt u hu
    · obtain rfl : u = task := by simpa using hu
      simpa [hfresh.basePriority] using hlt

theorem initialised_owner {object : Object τ} {kind : ObjectInit}
    (h : Initialised object kind) : object.owner? = none := by
  cases h <;> rfl

theorem Sound.placed [DecidableEq ι] (h : Sound P k) (hstopped : k.running = false) {p : ι}
    {object : Object τ} {kind : ObjectInit} (hobj : Initialised object kind) :
    Sound P ((k.setObject p object).record (.initialised p kind)) := by
  have howner : ∀ q, ((k.setObject p object).objects q).owner? = none := by
    intro q
    rcases eq_or_ne q p with rfl | hq
    · simpa using initialised_owner hobj
    · simpa [hq] using h.stopped_owner hstopped q
  refine { h with stopped_owner := fun _ => howner, wait_object := ?_, owner_task := ?_ }
  · intro t ht hs
    exact absurd (h.stopped_ready hstopped t ht) (by rw [show (k.tcb t).state = _ from hs]; simp)
  · intro q t hq
    exact absurd (hq.symm.trans (howner q)) (by simp)

variable [DecidableEq τ]

theorem Sound.started (h : Sound P k) (hstart : Started k k') : Sound P k' := by
  obtain ⟨hinit, hstopped, first, cursor, hmem, _, _, hk'⟩ := hstart
  have hready := h.stopped_ready hstopped
  have hsame : ∀ t, k'.tcb t = { k.tcb t with
      state := if t = first then .running else (k.tcb t).state } := by
    intro t
    rw [hk']
    rcases eq_or_ne t first with rfl | htf
    · simp
    · simp [htf]
  have hblocked : ∀ t ∈ k.tasks, (k'.tcb t).state ≠ .blocked := by
    intro t ht
    rw [hsame]
    dsimp only
    split <;> simp [hready t ht]
  subst hk'
  refine { h with
    idle_base := ?_, idle_runs := ?_, initialized := fun _ => hinit,
    current := fun _ => ⟨first, hmem, rfl⟩, stopped_current := by simp,
    stopped_pended := by simp, stopped_ready := by simp, stopped_priority := by simp,
    stopped_owner := by simp, running_current := ?_, switch_pended := ?_, blocked_iff := ?_,
    wait_object := fun t ht hs => absurd hs (hblocked t ht),
    wait_buffer := fun t ht hs => absurd hs (hblocked t ht), base_lt := ?_ }
  · intro hi
    rw [hsame]
    exact h.idle_base hi
  · intro _
    rw [Runnable, hsame]
    dsimp only
    split
    · exact Or.inr rfl
    · exact Or.inl (hready _ (h.idle_mem hinit))
  · intro t ht hs
    rw [hsame] at hs
    dsimp only at hs
    split at hs
    · next he => rw [he]
    · simp [hready t ht] at hs
  · intro c hc hs
    obtain rfl : first = c := by simpa using hc
    simp at hs
  · intro t ht
    apply iff_of_false (hblocked t ht)
    rw [hsame]
    simpa using h.waitType_none ht (by simp [hready t ht])
  · intro t ht
    rw [hsame]
    exact h.base_lt t ht

end Boot

section Tick

variable [DecidableEq τ]
variable {P : Platform τ} {k : Kernel τ ι}

/-- Whatever the tick decides for one task, carrying it out keeps the invariant. -/
theorem Sound.tickVisit {acc : Kernel τ ι × Bool} (h : Sound P acc.1) {t : τ}
    (ht : t ∈ acc.1.tasks) (now : Word) : Sound P (tickVisit now acc t).1 := by
  unfold RtosKernel.tickVisit tickApply
  cases hd : tickDecision now (acc.1.tcb t) with
  | skip => exact h
  | ready =>
      have hdelayed := tickDecision_ready hd
      exact h.makeReady (f := fun u => { u with state := .ready }) ht (Or.inr hdelayed) rfl
        (h.waitType_none ht (by simp [hdelayed])) rfl
  | timeOut => exact h.wake ht (tickDecision_timeOut hd).1 .errTimeout

theorem Sound.foldl_tickVisit (now : Word) {l : List τ} (acc : Kernel τ ι × Bool)
    (h : Sound P acc.1) (hl : ∀ t ∈ l, t ∈ acc.1.tasks) :
    Sound P (l.foldl (RtosKernel.tickVisit now) acc).1 := by
  induction l generalizing acc with
  | nil => exact h
  | cons t l ih =>
      apply ih _ (h.tickVisit (hl t (by simp)) now)
      intro u hu
      rw [show acc = (acc.1, acc.2) from rfl, tickVisit_eq]
      exact hl u (List.mem_cons_of_mem _ hu)

theorem Sound.ticked (h : Sound P k) : Sound P (ticked { k with tick := k.tick + 1 }) := by
  have hfold := Sound.foldl_tickVisit (k.tick + 1)
    ({ k with tick := k.tick + 1 }, false) { h with } fun t (ht : t ∈ k.tasks) => ht
  rwa [RtosKernelSpec.foldl_tickVisit _ h.nodup] at hfold

theorem Sound.tick (h : Sound P k) : Sound P (sysTickHandler k) := by
  cases hrun : k.running with
  | false =>
      rw [sysTickHandler_stopped hrun]
      exact { h with }
  | true =>
      rw [sysTickHandler_eq hrun h.nodup]
      split
      · exact (h.ticked.recompute hrun).pend hrun
      · exact h.ticked.pend hrun

end Tick

section Calls

variable {P : Platform τ} {k k' : Kernel τ ι}

theorem Sound.setWaitBytes (h : Sound P k) (t : τ) (bytes : Nat → Byte) :
    Sound P (setWaitBytes k t bytes) := by
  unfold RtosIpc.setWaitBytes
  split
  · exact h.setBuffer _ _
  · exact h

variable [DecidableEq ι]

theorem Sound.setQueue (h : Sound P k) {p : ι} {q : Queue} (hobj : k.objects p = .queue q)
    (q' : Queue) : Sound P (k.setObject p (.queue q')) :=
  h.setObject (by simp [hobj]) (by simp [hobj])

theorem Sound.setSemaphore (h : Sound P k) {p : ι} {s : Semaphore}
    (hobj : k.objects p = .semaphore s) (s' : Semaphore) :
    Sound P (k.setObject p (.semaphore s')) :=
  h.setObject (by simp [hobj]) (by simp [hobj])

theorem Sound.pushItem (h : Sound P k) {p : ι} {q : Queue} (hobj : ∃ q, k.objects p = .queue q)
    (sender : Option τ) (bytes : Nat → Byte) : Sound P (pushItem k sender p q bytes) := by
  obtain ⟨_, hobj⟩ := hobj
  exact (h.setQueue hobj _).record _

theorem Sound.popItem (h : Sound P k) {p : ι} {q : Queue} (hobj : k.objects p = .queue q)
    (caller : Option τ) (item : BufferPtr) : Sound P (popItem k caller p q item) :=
  ((h.setBuffer _ _).setQueue hobj _).record _

variable [DecidableEq τ]

omit [DecidableEq ι] in
theorem Sound.releaseHold (h : Sound P k) (p : ι) (self : τ) :
    Sound P (releaseHold k p self) :=
  (h.modifyTask self ⟨rfl, rfl, rfl, rfl, rfl⟩ rfl).record _

theorem Sound.grantHold (h : Sound P k) (hrun : k.running = true) {p : ι} {m : Mutex τ}
    (hobj : k.objects p = .mutex m) {waiter : τ} (hw : waiter ∈ k.tasks)
    (hblocked : (k.tcb waiter).state = .blocked) : Sound P (grantHold k p waiter) := by
  have hidle : waiter ≠ P.idle :=
    h.ne_idle_of_state (h.initialized hrun) (by simp [hblocked]) (by simp [hblocked])
  have howned : Sound P (k.setObject p (.mutex ⟨some waiter⟩)) :=
    h.setOwner hrun hobj (by rintro t ⟨⟩; exact ⟨hw, hidle⟩)
  exact ((howned.modifyTask waiter ⟨rfl, rfl, rfl, rfl, rfl⟩ rfl).record
    (.locked p waiter)).wake hw (by simpa using hblocked) .ok

theorem Sound.callEffect (h : Sound P k) {mode : Mode} (hcaller : CallerRuns P k mode)
    {call : Call ι} {outcome : Outcome} (heffect : CallEffect k mode call k' outcome) :
    Sound P k' := by
  cases heffect with
  | refused _ _ => exact h
  | ignored _ => exact h
  | yielded _ hrun => exact h.pend hrun
  | delayed hthread _ _ =>
      obtain ⟨hstate, hidle⟩ := hcaller.thread hthread.mode_eq _ hthread.current
      exact h.stopUnblocked hthread.running hthread.current hidle hstate (by simp) (by simp)
        rfl rfl
  | slept hthread hwait _ _ hmust =>
      obtain ⟨hstate, hidle⟩ := hcaller.thread hthread.mode_eq _ hthread.current
      refine h.sleepOn hthread.running hidle (mustWait_matches hmust) ?_ _
      exact callWait_buffer hwait
  | sleptOnMutex hthread _ _ hobj _ _ =>
      obtain ⟨hstate, hidle⟩ := hcaller.thread hthread.mode_eq _ hthread.current
      exact (h.sleepOn hthread.running hidle (by simp [hobj]) (by simp)
        _).recompute hthread.running
  | took _ hobj _ => exact (h.setSemaphore hobj _).record _
  | gave _ hobj _ _ => exact h.setSemaphore hobj _
  | gaveTo _ _ hfind =>
      obtain ⟨hw, hwaits, _⟩ := findWaiter_eq_some hfind
      exact ((h.wake hw (isWaiter_iff.mp hwaits).1 .ok).record _).maybePreempt _
  | locked hthread _ hobj _ =>
      obtain ⟨hstate, hidle⟩ := hcaller.thread hthread.mode_eq _ hthread.current
      have hself := h.current_mem hthread.running hthread.current
      refine ((h.setOwner hthread.running hobj ?_).modifyTask _ ⟨rfl, rfl, rfl, rfl, rfl⟩
        rfl).record _
      rintro t ⟨⟩
      exact ⟨hself, hidle⟩
  | unlocked hthread hobj _ _ =>
      exact ((h.releaseHold _ _).setOwner hthread.running (m := _) hobj (by simp)).recompute
        hthread.running
  | unlockedTo hthread hobj _ hfind =>
      obtain ⟨hw, hwaits, _⟩ := findWaiter_eq_some hfind
      exact (((h.releaseHold _ _).grantHold hthread.running hobj hw
        (isWaiter_iff.mp hwaits).1).recompute hthread.running).maybePreempt _
  | sent _ hobj _ _ => exact h.pushItem ⟨_, hobj⟩ _ _
  | sentTo _ hobj hfind =>
      obtain ⟨hw, hwaits, _⟩ := findWaiter_eq_some hfind
      refine Sound.maybePreempt ?_ _
      refine (((h.setWaitBytes _ _).record _).record _).wake ?_ ?_ .ok
      · simpa using hw
      · simpa using (isWaiter_iff.mp hwaits).1
  | received _ hobj _ _ => exact h.popItem hobj _ _
  | receivedFrom _ hobj _ hfind =>
      obtain ⟨hw, hwaits, _⟩ := findWaiter_eq_some hfind
      refine Sound.maybePreempt ?_ _
      exact ((h.popItem hobj _ _).pushItem ⟨_, popItem_object _ _ _ _ _⟩ _ _).wake hw
        (isWaiter_iff.mp hwaits).1 .ok

end Calls

variable [DecidableEq τ] [DecidableEq ι]

section Reached

variable {P : Platform τ} {k k' : Kernel τ ι}

theorem Sound.quiet (h : Sound P k) (hquiet : QuietStep P k k') : Sound P k' := by
  cases hquiet with
  | unchanged => exact h
  | booted hboot => exact h.booted hboot
  | created hinit hstopped _ hadd => exact h.created hinit hstopped hadd
  | placed _ hstopped hobj => exact h.placed hstopped hobj
  | refusedStart _ => exact { h with }
  | started hstart => exact h.started hstart
  | terminated hcur hstate hidle _ =>
      exact h.stopUnblocked (h.running_of_current hcur) hcur hidle hstate (by simp) (by simp)
        rfl rfl
  | switched hrun hswitch => exact h.switched hrun hswitch
  | wrote => exact h.setBuffer _ _

theorem Sound.step (h : Sound P k) (hstep : KernelStep P k k') : Sound P k' := by
  cases hstep with
  | quiet hquiet => exact h.quiet hquiet
  | marked _ => exact h.record _
  | call hcaller heffect => exact h.callEffect hcaller heffect
  | ticked => exact h.tick

theorem reached_sound {w : World τ ι} (h : Reached P w) : Sound P w.toKernel :=
  reached_kernel (fun _ => Sound.reset) (fun _ _ => Sound.step) h

end Reached

end Stm32f411.KernelSoundness
