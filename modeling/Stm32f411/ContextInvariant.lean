import Mathlib.Data.List.Pairwise
import Stm32f411.ContextFrames

/-!
Every task that does not run is dormant: the invariant that the start-up calls, the plain
operations, SVC and PendSV keep.
-/

namespace Stm32f411.ContextInvariant

open Stm32f411.RtosTypes
open Stm32f411.RtosKernel
open Stm32f411.RtosSystem
open Stm32f411.RtosBootSpec
open Stm32f411.RtosStepSpec
open Stm32f411.WordBlocks
open Stm32f411.TaskStacks
open Stm32f411.TaskRegistry
open Stm32f411.ContextSwitch
open Stm32f411.ContextSaves
open Stm32f411.ContextFrames

variable {τ ι : Type}

/-- The registered stacks end within the 32-bit addresses and are pairwise disjoint. -/
structure StacksApart (k : Kernel τ ι) : Prop where
  fits : ∀ t ∈ k.tasks, stackEnd (k.tcb t) < 2 ^ 32
  apart : k.tasks.Pairwise fun t u => Disjoint (stackAddresses (k.tcb t)) (stackAddresses (k.tcb u))

/-- The registers at the last interruption of a task, if it was interrupted. -/
def lastInterrupted [DecidableEq τ] (happenings : List (Happening τ ι)) (t : τ) : Option Cpu :=
  happenings.foldl (fun last happening => match happening with
    | .switched out saved _ _ => if out = t then some saved else last
    | _ => last) none

/-- Every task that does not run is dormant. -/
structure Sound (B : Board τ) (last : τ → Option Cpu) (m : Mcu τ ι) : Prop where
  apart : StacksApart m.world.toKernel
  shape : ∀ t ∈ m.world.tasks, StackShape (m.world.tcb t)
  stopped : m.world.running = false → m.world.currentTask = none ∧ ∀ t, last t = none
  current : ∀ t, m.world.currentTask = some t → t ∈ m.world.tasks
  dormant : ∀ t ∈ m.world.tasks, m.world.currentTask ≠ some t →
    Dormant B m.ram t (m.world.tcb t) (last t)

variable {B : Board τ} {last : τ → Option Cpu} {m : Mcu τ ι} {k k' : Kernel τ ι}

theorem mem_addresses {t : RtosTask ι} {a : Word} :
    ¬Outside t.stackBase.toNat (stackEnd t) a ↔ a.toNat ∈ stackAddresses t := by
  rw [Outside, stackAddresses, Set.mem_Ico]
  omega

theorem StacksApart.same (h : StacksApart k) (htasks : k'.tasks = k.tasks)
    (hcontext : ∀ t, SameContext (k.tcb t) (k'.tcb t)) : StacksApart k' := by
  refine ⟨fun t ht => ?_, ?_⟩
  · rw [htasks] at ht
    rw [(hcontext t).sameStack.stackEnd]
    exact h.fits t ht
  · rw [htasks]
    refine h.apart.imp fun hdisjoint => ?_
    rwa [(hcontext _).sameStack.addresses, (hcontext _).sameStack.addresses]

/-- Writes in one stack leave the others alone. -/
theorem StacksApart.outside (h : StacksApart k) {t u : τ} (ht : t ∈ k.tasks) (hu : u ∈ k.tasks)
    (hne : t ≠ u) {a : Word}
    (ha : ¬Outside (k.tcb t).stackBase.toNat (stackEnd (k.tcb t)) a) :
    Outside (k.tcb u).stackBase.toNat (stackEnd (k.tcb u)) a := by
  have : Std.Symm fun t u => Disjoint (stackAddresses (k.tcb t)) (stackAddresses (k.tcb u)) :=
    ⟨fun _ _ h => h.symm⟩
  have hdisjoint := h.apart.forall ht hu hne
  by_contra hinside
  exact Set.disjoint_left.mp hdisjoint (mem_addresses.mp ha) (mem_addresses.mp hinside)

/-- A step in which no context changes and nobody writes another task's stack. -/
theorem Sound.same (h : Sound B last m) {w : World τ ι} {ram : Ram} {cpu : Cpu}
    (hsame : SameContexts m.world.toKernel w.toKernel)
    (hram : ∀ t ∈ m.world.tasks, m.world.currentTask ≠ some t → ∀ a,
      ¬Outside (m.world.tcb t).stackBase.toNat (stackEnd (m.world.tcb t)) a →
        ram a = m.ram a) : Sound B last ⟨w, ram, cpu⟩ := by
  refine ⟨h.apart.same hsame.tasks hsame.context, fun t ht => ?_, fun hstopped => ?_,
    fun t ht => ?_, fun t ht hcurrent => ?_⟩
  · dsimp only at ht
    rw [hsame.tasks] at ht
    exact (hsame.context t).sameStack.shape (h.shape t ht)
  · dsimp only at hstopped ⊢
    rw [hsame.running] at hstopped
    rw [hsame.currentTask]
    exact h.stopped hstopped
  · dsimp only at ht ⊢
    rw [hsame.currentTask] at ht
    rw [hsame.tasks]
    exact h.current t ht
  · dsimp only at ht hcurrent ⊢
    rw [hsame.tasks] at ht
    rw [hsame.currentTask] at hcurrent
    exact (h.dormant t ht hcurrent).congr (h.shape t ht) (hsame.context t) (hram t ht hcurrent)

variable [DecidableEq τ]

/-- A new task is dormant in its initial frame, and the others stay as they are. -/
theorem registered_dormant {task : τ} {stack stackWords : Word} {ram : Ram}
    (h : Registered B.toPlatform k task stack stackWords k')
    (hshape : ∀ t : RtosTask ι, t.stackBase = stack → t.stackWords = stackWords →
      stackEnd t < 2 ^ 32 → StackShape t)
    (hapart : StacksApart k') (hshapes : ∀ t ∈ k.tasks, StackShape (k.tcb t))
    (hdormant : ∀ t ∈ k.tasks, Dormant B ram t (k.tcb t) none) :
    (∀ t ∈ k'.tasks, StackShape (k'.tcb t)) ∧
      ∀ t ∈ k'.tasks, Dormant B (rtosStackInitializeRam B task (k'.tcb task) ram).1 t
        (k'.tcb t) none := by
  obtain ⟨tcb, ⟨hbase, hwords, hpointer, hexc⟩, hk'⟩ := h.rest
  have hself : k'.tcb task = tcb := by simp [hk']
  have hmem : task ∈ k'.tasks := by simp [hk']
  have hnew : StackShape (k'.tcb task) := by
    rw [hself]
    exact hshape tcb hbase hwords (hself ▸ hapart.fits task hmem)
  have hold : ∀ t ∈ k'.tasks, t ≠ task → t ∈ k.tasks ∧ k'.tcb t = k.tcb t := by
    intro t ht hne
    rw [hk'] at ht ⊢
    refine ⟨?_, Function.update_of_ne hne ..⟩
    exact (List.mem_append.mp ht).resolve_right fun h => hne (List.mem_singleton.mp h)
  constructor
  · intro t ht
    rcases eq_or_ne t task with rfl | hne
    · exact hnew
    · obtain ⟨hmem', hsame⟩ := hold t ht hne
      rw [hsame]
      exact hshapes t hmem'
  · intro t ht
    rcases eq_or_ne t task with rfl | hne
    · rw [hself] at hnew ⊢
      refine .fresh hpointer hexc fun i hi => ?_
      rw [hpointer]
      exact hnew.frame hi
    · obtain ⟨hmem', hsame⟩ := hold t ht hne
      rw [hsame]
      refine (hdormant t hmem').congr (hshapes t hmem') (.refl _) fun a ha => ?_
      rw [← hsame] at ha
      exact hnew.initialize_outside (hapart.outside ht hmem hne ha)

theorem Sound.boot (h : Sound B last m) {call : BootCall τ} {result : Machine τ ι × Status}
    (hcall : bootCall B ⟨m.world.toKernel, m.ram⟩ call = result)
    (hapart : StacksApart result.1.kernel) :
    Sound B last { m with
      world := { m.world with toKernel := result.1.kernel }
      ram := result.1.ram } := by
  subst hcall
  have heffect := bootKernel_effect B m.world.toKernel call
  unfold bootCall at hapart ⊢
  dsimp only at hapart ⊢
  generalize bootKernel B m.world.toKernel call = result at heffect hapart ⊢
  cases heffect with
  | @refused _ status hfail =>
      rw [ramAfterAdd_failed B _ _ _ hfail]
      exact h
  | @booted config cleared k' hoff hempty _ hstopped hcurrent hregistered =>
      have hnone : ∀ t, t ∉ cleared.tasks := fun t ht => by simp [hempty] at ht
      have hdormant₀ : ∀ t ∈ cleared.tasks, Dormant B m.ram t (cleared.tcb t) none :=
        fun t ht => absurd ht (hnone t)
      obtain ⟨hshape, hdormant⟩ := registered_dormant hregistered
        (fun t hbase hwords _ => shape_of_idle hbase hwords) ⟨hapart.fits, hapart.apart⟩
        (fun t ht => absurd ht (hnone t)) hdormant₀
      obtain ⟨_, _, hk'⟩ := hregistered.rest
      have hcurrent' : k'.currentTask = none := by rw [hk', hcurrent]
      obtain ⟨-, hlast⟩ := h.stopped hoff
      refine ⟨hapart, hshape, fun _ => ⟨hcurrent', hlast⟩, fun t ht => ?_, fun t ht _ => ?_⟩
      · exact absurd (hcurrent'.symm.trans ht) (by simp)
      · dsimp only [BootCall.task]
        rw [hlast t, ramAfterAdd_ok]
        exact hdormant t ht
  | @created task function argument stack stackWords priority k' hpasses hregistered =>
      obtain ⟨hcurrent, hlast⟩ := h.stopped hpasses.stopped
      have hold : ∀ t ∈ m.world.tasks, Dormant B m.ram t (m.world.tcb t) none := by
        intro t ht
        rw [← hlast t]
        exact h.dormant t ht (by simp [hcurrent])
      obtain ⟨hshape, hdormant⟩ := registered_dormant hregistered
        (fun t hbase hwords hfits => shape_of_acceptable hpasses.arguments hbase hwords
          (by rwa [stackEnd, hbase, hwords] at hfits)) ⟨hapart.fits, hapart.apart⟩ h.shape hold
      obtain ⟨_, _, hk'⟩ := hregistered.rest
      have hcurrent' : k'.currentTask = none := by rw [hk', hcurrent]
      refine ⟨hapart, hshape, fun _ => ⟨hcurrent', hlast⟩, fun t ht => ?_, fun t ht _ => ?_⟩
      · exact absurd (hcurrent'.symm.trans ht) (by simp)
      · dsimp only [BootCall.task]
        rw [hlast t, ramAfterAdd_ok]
        exact hdormant t ht

/-- The kernel in which PendSV selects, with the pointer and LR of the interrupted task in its
TCB. -/
def savedIn (k : Kernel τ ι) (out : τ) (cpu : Cpu) (ram : Ram) : Kernel τ ι :=
  k.modifyTask out fun t => { t with stackPointer := (saveContext cpu ram).2, excReturn := cpu.lr }

/-- What a successful PendSV did. -/
theorem pendSV_ok {k k' : Kernel τ ι} {ram ram' : Ram} {cpu found : Cpu} {out next : τ}
    (h : pendSVHandler k ram cpu = .ok (k', ram', found)) (hout : k.currentTask = some out)
    (hnext : k'.currentTask = some next) :
    ram' = (saveContext cpu ram).1 ∧ found = restoreContext ram' (k'.tcb next) cpu ∧
      Switched (savedIn k out cpu ram) next k' ∧
        (rtosSelectNext (switchedOut (savedIn k out cpu ram))).2 = some next := by
  unfold pendSVHandler at h
  rw [hout] at h
  dsimp only at h
  cases hschedule : rtosScheduleFromPendsv (k.modifyTask out fun t =>
      { t with stackPointer := (saveContext cpu ram).2, excReturn := cpu.lr })
      (rtosTaskStackValid (saveContext cpu ram).1 (k.modifyTask out fun t =>
        { t with stackPointer := (saveContext cpu ram).2, excReturn := cpu.lr }) (some out)) with
  | error fault =>
      rw [hschedule] at h
      cases h
  | ok k₁ =>
      rw [hschedule] at h
      dsimp only [bind, Except.bind] at h
      split at h
      · cases h
      · next next₁ hnext₁ =>
          obtain ⟨rfl, rfl, rfl⟩ : k₁ = k' ∧ (saveContext cpu ram).1 = ram' ∧
              restoreContext (saveContext cpu ram).1 (k₁.tcb next₁) cpu = found := by
            simpa using h
          obtain rfl : next₁ = next := Option.some.inj (hnext₁.symm.trans hnext)
          obtain ⟨next₂, hswitched⟩ := schedule_ok hschedule
          obtain ⟨cursor, hk₁⟩ := hswitched.rest
          rw [hk₁] at hnext₁
          obtain rfl : next₂ = next₁ := Option.some.inj hnext₁
          exact ⟨rfl, rfl, hswitched, (schedule_selects hschedule).trans hnext⟩

section Switching

variable {cpu : Cpu} {ram : Ram} {out next t : τ}

theorem switched_context (h : Switched (savedIn k out cpu ram) next k') (hne : t ≠ out) :
    SameContext (k.tcb t) (k'.tcb t) := by
  rw [h.tcb_eq t]
  simp only [savedIn, Kernel.modifyTask_tcb, Function.update_of_ne hne]
  exact ⟨rfl, rfl, rfl, rfl⟩

theorem switched_out (h : Switched (savedIn k out cpu ram) next k') :
    (k'.tcb out).stackPointer = (saveContext cpu ram).2 ∧ (k'.tcb out).excReturn = cpu.lr ∧
      SameStack (k.tcb out) (k'.tcb out) := by
  rw [h.tcb_eq out]
  simp only [savedIn, Kernel.modifyTask_tcb, Function.update_self, true_and]
  exact ⟨rfl, rfl⟩

theorem switched_stack (h : Switched (savedIn k out cpu ram) next k') (t : τ) :
    SameStack (k.tcb t) (k'.tcb t) := by
  rcases eq_or_ne t out with rfl | hne
  · exact (switched_out h).2.2
  · exact (switched_context h hne).sameStack

theorem switched_rest (h : Switched (savedIn k out cpu ram) next k') :
    k'.tasks = k.tasks ∧ k'.running = k.running := by
  obtain ⟨cursor, hk'⟩ := h.rest
  constructor <;> rw [hk'] <;> rfl

end Switching

/-- The context that PendSV saves joins those of the tasks that were dormant before. -/
theorem Sound.dormant_switched (h : Sound B last m) {out next : τ}
    (hout : m.world.currentTask = some out) (hroom : RoomToSave (m.world.tcb out) m.cpu)
    (hswitched : Switched (savedIn m.world.toKernel out m.cpu m.ram) next k) {t : τ}
    (ht : t ∈ m.world.tasks) :
    Dormant B (saveContext m.cpu m.ram).1 t (k.tcb t)
      (Function.update last out (some m.cpu) t) := by
  rcases eq_or_ne t out with rfl | hne
  · obtain ⟨hpointer, hexc, hstack⟩ := switched_out hswitched
    rw [Function.update_self]
    exact dormant_saved hroom hpointer hexc hstack
  · rw [Function.update_of_ne hne]
    have hmem : out ∈ m.world.tasks := h.current out hout
    have hother : m.world.currentTask ≠ some t := by
      rw [hout]
      exact fun heq => hne (Option.some.inj heq).symm
    refine (h.dormant t ht hother).congr (h.shape t ht) (switched_context hswitched hne)
      fun a ha => ?_
    have houtside := h.apart.outside ht hmem hne ha
    refine saveContext_outside (room_le hroom) (houtside.mono ?_ hroom.high)
    exact Nat.le_sub_of_add_le hroom.low

/-- PendSV saves one task and finds another. -/
theorem Sound.switch (h : Sound B last m) {ram : Ram} {out next : τ} {found : Cpu}
    (hrunning : m.world.running = true) (hout : m.world.currentTask = some out)
    (hroom : RoomToSave (m.world.tcb out) m.cpu)
    (hswitch : pendSVHandler m.world.toKernel m.ram m.cpu = .ok (k, ram, found))
    (hnext : k.currentTask = some next) :
    Sound B (Function.update last out (some m.cpu))
        { world := { m.world with toKernel := k }, ram := ram, cpu := found } ∧
      Finds B ram next (k.tcb next) found (Function.update last out (some m.cpu) next) := by
  obtain ⟨rfl, rfl, hswitched, -⟩ := pendSV_ok hswitch hout hnext
  obtain ⟨htasks, hrun⟩ := switched_rest hswitched
  have hstack := switched_stack hswitched
  have hshape : ∀ t ∈ m.world.tasks, StackShape (k.tcb t) :=
    fun t ht => (hstack t).shape (h.shape t ht)
  have hdormant : ∀ t ∈ m.world.tasks, Dormant B (saveContext m.cpu m.ram).1 t (k.tcb t)
      (Function.update last out (some m.cpu) t) :=
    fun t ht => h.dormant_switched hout hroom hswitched ht
  have hnextMem : next ∈ m.world.tasks := hswitched.mem
  refine ⟨⟨⟨fun t ht => ?_, ?_⟩, fun t ht => ?_, fun hstopped => ?_, fun t ht => ?_,
    fun t ht _ => ?_⟩, ?_⟩
  · dsimp only at ht
    rw [htasks] at ht
    exact (hshape t ht).fits
  · dsimp only
    rw [htasks]
    refine h.apart.apart.imp fun hdisjoint => ?_
    rwa [(hstack _).addresses, (hstack _).addresses]
  · dsimp only at ht
    rw [htasks] at ht
    exact hshape t ht
  · dsimp only at hstopped
    rw [hrun, hrunning] at hstopped
    cases hstopped
  · dsimp only at ht ⊢
    rw [htasks]
    rw [← Option.some.inj (hnext.symm.trans ht)]
    exact hnextMem
  · dsimp only at ht ⊢
    rw [htasks] at ht
    exact hdormant t ht
  · exact (hdormant next hnextMem).restored (hshape next hnextMem) m.cpu

/-- SVC finds the frame of the first task. -/
theorem Sound.start (h : Sound B last m) {first : τ} {found : Cpu}
    (hstart : Started m.world.toKernel k) (hfirst : k.currentTask = some first)
    (hfound : found = svcHandler m.ram (k.tcb first) m.cpu) :
    Sound B last { m with world := { m.world with toKernel := k }, cpu := found } ∧
      Finds B m.ram first (k.tcb first) found (last first) := by
  obtain ⟨hcurrent, hlast⟩ := h.stopped hstart.stopped
  obtain ⟨first', cursor, hmem, _, _, hk⟩ := hstart.rest
  obtain rfl : first' = first := by
    rw [hk] at hfirst
    exact Option.some.inj hfirst
  have hcontext : ∀ t, SameContext (m.world.tcb t) (k.tcb t) := by
    intro t
    rw [hk]
    rcases eq_or_ne t first' with rfl | hne
    · dsimp only
      rw [Function.update_self]
      exact ⟨rfl, rfl, rfl, rfl⟩
    · dsimp only
      rw [Function.update_of_ne hne]
      exact .refl _
  have htasks : k.tasks = m.world.tasks := by rw [hk]
  have hdormant : ∀ t ∈ m.world.tasks, Dormant B m.ram t (k.tcb t) (last t) := fun t ht =>
    (h.dormant t ht (by simp [hcurrent])).congr (h.shape t ht) (hcontext t) fun _ _ => rfl
  refine ⟨⟨h.apart.same htasks hcontext, fun t ht => ?_, fun hstopped => ?_, fun t ht => ?_,
    fun t ht _ => ?_⟩, ?_⟩
  · dsimp only at ht
    rw [htasks] at ht
    exact (hcontext t).sameStack.shape (h.shape t ht)
  · dsimp only at hstopped
    rw [hk] at hstopped
    cases hstopped
  · dsimp only at ht ⊢
    rw [htasks, ← Option.some.inj (hfirst.symm.trans ht)]
    exact hmem
  · dsimp only at ht ⊢
    rw [htasks] at ht
    exact hdormant t ht
  · have hfresh := hdormant first' hmem
    rw [hlast] at hfresh ⊢
    rw [hfound]
    exact hfresh.firstFound ((hcontext first').sameStack.shape (h.shape first' hmem)) m.cpu

end Stm32f411.ContextInvariant
