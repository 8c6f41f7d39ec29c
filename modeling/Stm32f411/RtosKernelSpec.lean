import Stm32f411.CyclicScan
import Stm32f411.RtosIpc

/-!
What each kernel function does, in the form its callers use. After this module no proof
unfolds a scan, a selection or a loop over the task table.
-/

namespace Stm32f411.RtosKernelSpec

open Stm32f411.CyclicScan
open Stm32f411.RtosTypes
open Stm32f411.RtosKernel
open Stm32f411.RtosIpc
open Stm32f411.InheritanceRelaxation

variable {τ ι : Type}

section Words

variable {n : Nat} {x y : BitVec n}

theorem toNat_ne_zero (h : x ≠ 0) : x.toNat ≠ 0 :=
  fun he => h (BitVec.eq_of_toNat_eq (by simpa using he))

theorem toNat_one (h : 0 < x.toNat) : (1 : BitVec n).toNat = 1 :=
  Nat.mod_eq_of_lt (Nat.lt_of_le_of_lt h x.isLt)

theorem toNat_pred (h : x ≠ 0) : (x - 1).toNat = x.toNat - 1 := by
  have hpos := Nat.pos_of_ne_zero (toNat_ne_zero h)
  have hone := toNat_one hpos
  rw [BitVec.toNat_sub_of_le (by rw [BitVec.le_def, hone]; exact hpos), hone]

theorem toNat_succ (h : x < y) : (x + 1).toNat = x.toNat + 1 := by
  have hlt : x.toNat < y.toNat := h
  have hone := toNat_one (Nat.zero_lt_of_lt hlt)
  have hmax := y.isLt
  rw [BitVec.toNat_add_of_lt (by omega), hone]

end Words

section FindWaiter

variable {k : Kernel τ ι} {waitType : WaitType} {object : ι}

theorem isWaiter_iff [DecidableEq ι] {t : τ} :
    isWaiter k waitType object t = true ↔
      (k.tcb t).state = .blocked ∧ (k.tcb t).waitType = waitType ∧
        (k.tcb t).waitObject = some object := by
  simp [isWaiter, and_assoc]

theorem outranks_le {c b : τ} (h : outranks k c b = true) :
    (k.tcb b).effectivePriority ≤ (k.tcb c).effectivePriority := by
  simp only [outranks, Bool.or_eq_true, Bool.and_eq_true, decide_eq_true_eq] at h
  omega

theorem not_outranks_le {c b : τ} (h : ¬outranks k c b = true) :
    (k.tcb c).effectivePriority ≤ (k.tcb b).effectivePriority := by
  simp only [outranks, Bool.or_eq_true, Bool.and_eq_true, decide_eq_true_eq] at h
  omega

variable [DecidableEq ι]

theorem foldl_preferWaiter_none {l : List τ} {best : Option τ} :
    l.foldl (preferWaiter k waitType object) best = none ↔
      best = none ∧ ∀ t ∈ l, ¬isWaiter k waitType object t = true := by
  induction l generalizing best with
  | nil => simp
  | cons t l ih =>
      rw [List.foldl_cons, ih]
      by_cases ht : isWaiter k waitType object t = true
      · cases best with
        | none => simp [preferWaiter, ht]
        | some b =>
            simp only [preferWaiter, ht, if_true]
            split <;> simp
      · simp [preferWaiter, ht]

/-- One task of the table waits. -/
def WaitsIn (k : Kernel τ ι) (waitType : WaitType) (object : ι) (t : τ) : Prop :=
  t ∈ k.tasks ∧ isWaiter k waitType object t = true

/-- The scan keeps a best waiter by any order that `outranks` respects among waiters. -/
theorem foldl_preferWaiter_some {κ : Type} [Preorder κ] {key : τ → κ}
    (hout : ∀ c b, WaitsIn k waitType object c → WaitsIn k waitType object b →
      outranks k c b = true → key b ≤ key c)
    (hnot : ∀ c b, WaitsIn k waitType object c → WaitsIn k waitType object b →
      ¬outranks k c b = true → key c ≤ key b)
    {l : List τ} {best : Option τ} {w : τ} (hl : ∀ t ∈ l, t ∈ k.tasks)
    (hbest : ∀ b, best = some b → WaitsIn k waitType object b)
    (h : l.foldl (preferWaiter k waitType object) best = some w) :
    WaitsIn k waitType object w ∧ (∀ b, best = some b → key b ≤ key w) ∧
      ∀ t ∈ l, isWaiter k waitType object t = true → key t ≤ key w := by
  induction l generalizing best with
  | nil =>
      obtain rfl : best = some w := by simpa using h
      simpa using hbest w rfl
  | cons t l ih =>
      have htail : ∀ u ∈ l, u ∈ k.tasks := fun u hu => hl u (List.mem_cons_of_mem t hu)
      by_cases hwaits : isWaiter k waitType object t = true
      · have ht : WaitsIn k waitType object t := ⟨hl t List.mem_cons_self, hwaits⟩
        have hkeep : ∃ c, preferWaiter k waitType object best t = some c ∧
            WaitsIn k waitType object c ∧ key t ≤ key c ∧
            ∀ b, best = some b → key b ≤ key c := by
          cases best with
          | none => exact ⟨t, by simp [preferWaiter, hwaits], ht, le_rfl, by simp⟩
          | some b =>
              have hb := hbest b rfl
              by_cases hrank : outranks k t b = true
              · refine ⟨t, by simp [preferWaiter, hwaits, hrank], ht, le_rfl, ?_⟩
                simpa using hout t b ht hb hrank
              · exact ⟨b, by simp [preferWaiter, hwaits, hrank], hb,
                  hnot t b ht hb hrank, by simp⟩
        obtain ⟨c, hc, hcw, htc, hbc⟩ := hkeep
        rw [List.foldl_cons, hc] at h
        obtain ⟨hw, hle, hrest⟩ := ih htail (by simpa using hcw) h
        have hcle : key c ≤ key w := hle c rfl
        refine ⟨hw, fun b hb => (hbc b hb).trans hcle, fun u hu huw => ?_⟩
        rcases List.mem_cons.mp hu with rfl | hu
        · exact htc.trans hcle
        · exact hrest u hu huw
      · rw [List.foldl_cons, show preferWaiter k waitType object best t = best by
          simp [preferWaiter, hwaits]] at h
        obtain ⟨hw, hle, hrest⟩ := ih htail hbest h
        refine ⟨hw, hle, fun u hu huw => ?_⟩
        rcases List.mem_cons.mp hu with rfl | hu
        · exact absurd huw hwaits
        · exact hrest u hu huw

theorem findWaiter_eq_none :
    rtosKernelFindWaiter k waitType object = none ↔
      ∀ t ∈ k.tasks, ¬isWaiter k waitType object t = true := by
  simp [rtosKernelFindWaiter, foldl_preferWaiter_none]

/-- The waiter found waits, and is best by any order that `outranks` respects. -/
theorem findWaiter_best {κ : Type} [Preorder κ] {key : τ → κ}
    (hout : ∀ c b, WaitsIn k waitType object c → WaitsIn k waitType object b →
      outranks k c b = true → key b ≤ key c)
    (hnot : ∀ c b, WaitsIn k waitType object c → WaitsIn k waitType object b →
      ¬outranks k c b = true → key c ≤ key b)
    {w : τ} (h : rtosKernelFindWaiter k waitType object = some w) :
    w ∈ k.tasks ∧ isWaiter k waitType object w = true ∧
      ∀ t ∈ k.tasks, isWaiter k waitType object t = true → key t ≤ key w := by
  obtain ⟨⟨hw, hwaits⟩, _, hmax⟩ :=
    foldl_preferWaiter_some hout hnot (fun _ ht => ht) (by simp) h
  exact ⟨hw, hwaits, hmax⟩

/-- No waiter has a higher effective priority than the one found. -/
theorem findWaiter_eq_some {w : τ} (h : rtosKernelFindWaiter k waitType object = some w) :
    w ∈ k.tasks ∧ isWaiter k waitType object w = true ∧
      ∀ t ∈ k.tasks, isWaiter k waitType object t = true →
        (k.tcb t).effectivePriority ≤ (k.tcb w).effectivePriority :=
  findWaiter_best (fun _ _ _ _ => outranks_le) (fun _ _ _ _ => not_outranks_le) h

/-- The scan reads the table, the states, the wait fields and the priorities only. -/
theorem findWaiter_congr {k' : Kernel τ ι} (htasks : k'.tasks = k.tasks)
    (hwait : ∀ t, isWaiter k' waitType object t = isWaiter k waitType object t)
    (hrank : ∀ s t, outranks k' s t = outranks k s t) :
    rtosKernelFindWaiter k' waitType object = rtosKernelFindWaiter k waitType object := by
  have hstep : preferWaiter k' waitType object = preferWaiter k waitType object := by
    funext best t
    simp only [preferWaiter, hwait, hrank]
  rw [rtosKernelFindWaiter, rtosKernelFindWaiter, htasks, hstep]

end FindWaiter

section Select

variable {k : Kernel τ ι}

/-- The states `rtos_select_next` picks from. -/
def Runnable (k : Kernel τ ι) (t : τ) : Prop :=
  (k.tcb t).state = .ready ∨ (k.tcb t).state = .running

theorem scan_slots (start n : Nat) :
    ((List.range n).map fun offset => (start + (offset + 1)) % n).Pairwise fun i j =>
      distance n start i < distance n start j := by
  rw [List.pairwise_map]
  refine List.pairwise_lt_range.imp_of_mem fun {a b} ha hb hlt => ?_
  rw [distance_slot (List.mem_range.mp ha), distance_slot (List.mem_range.mp hb)]
  exact hlt

theorem mem_scan_slots {start n i : Nat} (hi : i < n) :
    i ∈ (List.range n).map fun offset => (start + (offset + 1)) % n :=
  List.mem_map.mpr ⟨distance n start i, List.mem_range.mpr (distance_lt hi),
    slot_distance hi⟩

/-- The task in a slot can run at a level. -/
def RunsAt (k : Kernel τ ι) (priority index : Nat) (t : τ) : Prop :=
  k.tasks[index]? = some t ∧ Runnable k t ∧ (k.tcb t).effectivePriority = priority

theorem runsAt_iff {priority index : Nat} :
    (k.tasks[index]?.any fun task =>
      (decide ((k.tcb task).state = .ready) || decide ((k.tcb task).state = .running)) &&
        decide ((k.tcb task).effectivePriority = priority)) = true ↔
      ∃ t, RunsAt k priority index t := by
  rw [Option.any_eq_true]
  simp [RunsAt, Runnable]

/-- The scan of a level stops at the nearest slot after the cursor. -/
theorem scanLevel_eq_some {priority index : Nat} (h : scanLevel k priority = some index) :
    (∃ t, RunsAt k priority index t) ∧ ∀ i u, RunsAt k priority i u →
      distance k.tasks.length (k.rrCursor priority).toNat index ≤
        distance k.tasks.length (k.rrCursor priority).toNat i := by
  obtain ⟨hpick, before, after, hslots, hbefore⟩ := List.find?_eq_some_iff_append.mp h
  refine ⟨runsAt_iff.mp hpick, fun i u hu => ?_⟩
  have hi : i < k.tasks.length := (List.getElem?_eq_some_iff.mp hu.1).1
  have hmem : i ∈ (List.range k.tasks.length).map fun offset =>
      ((k.rrCursor priority).toNat + (offset + 1)) % k.tasks.length := mem_scan_slots hi
  have hsorted := scan_slots (k.rrCursor priority).toNat k.tasks.length
  rw [hslots] at hmem hsorted
  rcases List.mem_append.mp hmem with hin | hin
  · have hnot := hbefore i hin
    rw [runsAt_iff.mpr ⟨u, hu⟩] at hnot
    simp at hnot
  · rcases List.mem_cons.mp hin with rfl | hin
    · exact le_rfl
    · have htail := (List.pairwise_append.mp hsorted).2.1
      exact ((List.pairwise_cons.mp htail).1 i hin).le

theorem scanLevel_eq_none {priority : Nat} (h : scanLevel k priority = none) {t : τ}
    (ht : t ∈ k.tasks) (hrun : Runnable k t) :
    (k.tcb t).effectivePriority ≠ priority := by
  intro hprio
  obtain ⟨i, hi, rfl⟩ := List.mem_iff_getElem.mp ht
  have hnot := List.find?_eq_none.mp h i (mem_scan_slots hi)
  exact hnot (runsAt_iff.mpr ⟨_, List.getElem?_eq_getElem hi, hrun, hprio⟩)

/-- Selection finds the nearest runnable slot of a level and moves that level's cursor
to it. -/
theorem selectNext_slot {k' : Kernel τ ι} {next : τ} (h : rtosSelectNext k = (k', some next)) :
    ∃ index, RunsAt k (k.tcb next).effectivePriority index next ∧
      k' = { k with
        rrCursor := Function.update k.rrCursor (k.tcb next).effectivePriority
          (BitVec.ofNat 8 index) } ∧
      ∀ i u, RunsAt k (k.tcb next).effectivePriority i u →
        distance k.tasks.length (k.rrCursor (k.tcb next).effectivePriority).toNat index ≤
          distance k.tasks.length (k.rrCursor (k.tcb next).effectivePriority).toNat i := by
  unfold rtosSelectNext at h
  split at h
  · simp at h
  · next priority index hfind =>
      simp only [Prod.mk.injEq] at h
      obtain ⟨hk, hnext⟩ := h
      obtain ⟨level, _, hlevel⟩ := List.exists_of_findSome?_eq_some hfind
      obtain ⟨index', hscan, hpair⟩ := Option.map_eq_some_iff.mp hlevel
      simp only [Prod.mk.injEq] at hpair
      obtain ⟨rfl, rfl⟩ := hpair
      obtain ⟨⟨t, ht⟩, hnear⟩ := scanLevel_eq_some hscan
      obtain rfl : t = next := Option.some.inj (ht.1.symm.trans hnext)
      rw [ht.2.2]
      exact ⟨index', ht, hk.symm, hnear⟩

/-- Selection moves one cursor and returns a runnable task of the highest level that
has one. -/
theorem selectNext_eq_some {k' : Kernel τ ι} {next : τ}
    (h : rtosSelectNext k = (k', some next)) :
    (∃ cursor, k' = { k with rrCursor := cursor }) ∧ next ∈ k.tasks ∧ Runnable k next ∧
      ∀ t ∈ k.tasks, Runnable k t → (k.tcb t).effectivePriority < rtosPriorityLevels →
        (k.tcb t).effectivePriority ≤ (k.tcb next).effectivePriority := by
  unfold rtosSelectNext at h
  split at h
  · simp at h
  · next priority index hfind =>
      simp only [Prod.mk.injEq] at h
      obtain ⟨hk, hnext⟩ := h
      obtain ⟨before, level, after, hsplit, hlevel, hbefore⟩ :=
        List.findSome?_eq_some_iff.mp hfind
      obtain ⟨index', hscan, hpair⟩ := Option.map_eq_some_iff.mp hlevel
      simp only [Prod.mk.injEq] at hpair
      obtain ⟨rfl, rfl⟩ := hpair
      obtain ⟨⟨t, hget, hrun, hprio⟩, _⟩ := scanLevel_eq_some hscan
      obtain rfl : t = next := Option.some.inj (hget.symm.trans hnext)
      refine ⟨⟨_, hk.symm⟩, List.mem_of_getElem? hget, hrun, ?_⟩
      intro u hu hurun hlt
      rw [hprio]
      by_contra hhigher
      have hmem : (k.tcb u).effectivePriority ∈ (List.range rtosPriorityLevels).reverse := by
        simpa using hlt
      have hsorted : (List.range rtosPriorityLevels).reverse.Pairwise (· > ·) :=
        List.pairwise_reverse.mpr List.pairwise_lt_range
      rw [hsplit] at hmem hsorted
      rcases List.mem_append.mp hmem with hin | hin
      · have hnone := Option.map_eq_none_iff.mp (hbefore _ hin)
        exact scanLevel_eq_none hnone hu hurun rfl
      · have htail := (List.pairwise_append.mp hsorted).2.1
        rcases List.mem_cons.mp hin with heq | hin
        · omega
        · have := (List.pairwise_cons.mp htail).1 _ hin
          omega

theorem selectNext_eq_none {k' : Kernel τ ι} (h : rtosSelectNext k = (k', none)) {t : τ}
    (ht : t ∈ k.tasks) (hrun : Runnable k t) :
    rtosPriorityLevels ≤ (k.tcb t).effectivePriority := by
  by_contra hlt
  unfold rtosSelectNext at h
  split at h
  · next hfind =>
      have hlevel := List.findSome?_eq_none_iff.mp hfind (k.tcb t).effectivePriority
        (by simpa using hlt)
      exact scanLevel_eq_none (Option.map_eq_none_iff.mp hlevel) ht hrun rfl
  · next priority index hfind =>
      obtain ⟨level, _, hlevel⟩ := List.exists_of_findSome?_eq_some hfind
      obtain ⟨index', hscan, hpair⟩ := Option.map_eq_some_iff.mp hlevel
      simp only [Prod.mk.injEq] at hpair
      obtain ⟨rfl, rfl⟩ := hpair
      obtain ⟨⟨u, hget, _, _⟩, _⟩ := scanLevel_eq_some hscan
      simp [hget] at h

end Select

section Tick

variable [DecidableEq τ]

theorem tickDecision_ready {now : Word} {t : RtosTask ι} (h : tickDecision now t = .ready) :
    t.state = .delayed := by
  unfold tickDecision at h
  split at h
  · next hd => exact hd.1
  · split at h <;> simp at h

theorem tickDecision_timeOut {now : Word} {t : RtosTask ι}
    (h : tickDecision now t = .timeOut) :
    t.state = .blocked ∧ t.waitForever = false ∧
      rtosDeadlineReached now t.wakeTick = true := by
  unfold tickDecision at h
  split at h
  · simp at h
  · split at h
    · next hb => exact hb
    · simp at h

/-- What one tick does to one TCB. -/
def tickTask (now : Word) (t : RtosTask ι) : RtosTask ι :=
  match tickDecision now t with
  | .skip => t
  | .ready => { t with state := .ready }
  | .timeOut => leaveWait .errTimeout t

def mutexTimesOut (now : Word) (t : RtosTask ι) : Bool :=
  decide (tickDecision now t = .timeOut) && decide (t.waitType = .mutex)

/-- Every registered task ticked once. -/
@[simps -fullyApplied]
def ticked (k : Kernel τ ι) : Kernel τ ι :=
  { k with tcb := fun t => if t ∈ k.tasks then tickTask k.tick (k.tcb t) else k.tcb t }

theorem tickVisit_eq (now : Word) (k : Kernel τ ι) (flag : Bool) (t : τ) :
    tickVisit now (k, flag) t =
      ({ k with tcb := Function.update k.tcb t (tickTask now (k.tcb t)) },
        flag || mutexTimesOut now (k.tcb t)) := by
  unfold tickVisit tickApply tickTask mutexTimesOut
  cases h : tickDecision now (k.tcb t) <;>
    simp [rtosKernelWakeTask, Kernel.modifyTask]

theorem foldl_tickVisit (now : Word) {l : List τ} (hl : l.Nodup) (k : Kernel τ ι)
    (flag : Bool) :
    l.foldl (tickVisit now) (k, flag) =
      ({ k with tcb := fun t => if t ∈ l then tickTask now (k.tcb t) else k.tcb t },
        flag || l.any fun t => mutexTimesOut now (k.tcb t)) := by
  induction l generalizing k flag with
  | nil => simp
  | cons u l ih =>
      obtain ⟨hu, hl⟩ := List.nodup_cons.mp hl
      rw [List.foldl_cons, tickVisit_eq, ih hl]
      simp only [Prod.mk.injEq, Kernel.mk.injEq, and_true]
      constructor
      · funext t
        rcases eq_or_ne t u with rfl | htu
        · simp [hu]
        · simp [htu]
      · have hany : (l.any fun t => mutexTimesOut now
            (Function.update k.tcb u (tickTask now (k.tcb u)) t)) =
            l.any fun t => mutexTimesOut now (k.tcb t) := by
          rw [Bool.eq_iff_iff, List.any_eq_true, List.any_eq_true]
          refine exists_congr fun t => and_congr_right fun ht => ?_
          have htu : t ≠ u := fun h => hu (h ▸ ht)
          simp [htu]
        rw [hany, List.any_cons, Bool.or_assoc]

/-- A tick advances the counter, treats every task once, recomputes the priorities if a
mutex wait timed out, and asks for a switch. -/
theorem sysTickHandler_eq {k : Kernel τ ι} (hrun : k.running = true)
    (hnodup : k.tasks.Nodup) :
    sysTickHandler k = rtosPortPendContextSwitch
      (if k.tasks.any fun t => mutexTimesOut (k.tick + 1) (k.tcb t) then
        rtosKernelRecomputePriorities (ticked { k with tick := k.tick + 1 })
      else ticked { k with tick := k.tick + 1 }) := by
  simp only [sysTickHandler, rtosTickIsr, hrun, Bool.true_eq_false, if_false, tickFinish]
  rw [foldl_tickVisit _ hnodup]
  rfl

/-- A tick of a running kernel changes TCBs and the pending bit, task by task as
`tickTask` says but for the effective priorities. -/
theorem sysTickHandler_running {k : Kernel τ ι} (hrun : k.running = true)
    (hnodup : k.tasks.Nodup) :
    (∃ tcb, sysTickHandler k = { k with tick := k.tick + 1, tcb := tcb, pended := true }) ∧
      ∀ t ∈ k.tasks, ∃ priority, (sysTickHandler k).tcb t =
        { tickTask (k.tick + 1) (k.tcb t) with effectivePriority := priority } := by
  have hticked : ∀ t ∈ k.tasks, (ticked { k with tick := k.tick + 1 }).tcb t =
      tickTask (k.tick + 1) (k.tcb t) := fun t ht => by simp [ht]
  rw [sysTickHandler_eq hrun hnodup]
  split
  · refine ⟨⟨_, rfl⟩, fun t ht => ?_⟩
    rw [← hticked t ht]
    exact ⟨_, rfl⟩
  · refine ⟨⟨_, rfl⟩, fun t ht => ?_⟩
    rw [← hticked t ht]
    exact ⟨_, rfl⟩

/-- A task whose mutex wait does not time out keeps its place in the waiting graph. -/
theorem tickTask_edge {now : Word} {t : RtosTask ι} (h : mutexTimesOut now t = false) :
    tickTask now t = t ∨ ((t.state ≠ .blocked ∨ t.waitType ≠ .mutex) ∧
      ((tickTask now t).state ≠ .blocked ∨ (tickTask now t).waitType ≠ .mutex)) := by
  unfold tickTask
  cases hd : tickDecision now t with
  | skip => exact Or.inl rfl
  | ready => exact Or.inr ⟨Or.inl (by simp [tickDecision_ready hd]), Or.inl (by simp)⟩
  | timeOut =>
      refine Or.inr ⟨Or.inr ?_, Or.inl (by simp [leaveWait])⟩
      simpa [mutexTimesOut, hd] using h

theorem tickTask_priorities (now : Word) (t : RtosTask ι) :
    (tickTask now t).basePriority = t.basePriority ∧
      (tickTask now t).effectivePriority = t.effectivePriority := by
  unfold tickTask
  split
  · exact ⟨rfl, rfl⟩
  · exact ⟨rfl, rfl⟩
  · exact ⟨rfl, rfl⟩

/-- A task that a tick leaves BLOCKED was not touched. -/
theorem tickTask_blocked {now : Word} {t : RtosTask ι}
    (h : (tickTask now t).state = .blocked) : tickTask now t = t := by
  unfold tickTask at h ⊢
  cases hd : tickDecision now t with
  | skip => rfl
  | ready => simp [hd] at h
  | timeOut => simp [hd, leaveWait] at h

theorem sysTickHandler_stopped {k : Kernel τ ι} (hrun : k.running = false) :
    sysTickHandler k = { k with tick := k.tick + 1 } := by
  simp [sysTickHandler, rtosTickIsr, hrun]

theorem foldl_tickVisit_frame (now : Word) (l : List τ) (acc : Kernel τ ι × Bool) :
    ∃ tcb flag, l.foldl (tickVisit now) acc = ({ acc.1 with tcb := tcb }, flag) := by
  induction l generalizing acc with
  | nil => exact ⟨acc.1.tcb, acc.2, rfl⟩
  | cons t l ih =>
      obtain ⟨tcb, flag, h⟩ := ih (tickVisit now acc t)
      refine ⟨tcb, flag, ?_⟩
      rw [List.foldl_cons, h, show acc = (acc.1, acc.2) from rfl, tickVisit_eq]

/-- A tick writes the counter, TCBs and the pending bit only. -/
theorem sysTickHandler_frame (k : Kernel τ ι) :
    ∃ tcb pended, sysTickHandler k =
      { k with tick := k.tick + 1, tcb := tcb, pended := pended } := by
  unfold sysTickHandler rtosTickIsr
  split
  · exact ⟨_, _, rfl⟩
  · obtain ⟨tcb, flag, h⟩ := foldl_tickVisit_frame (k.tick + 1) k.tasks
      ({ k with tick := k.tick + 1 }, false)
    dsimp only
    rw [h, tickFinish]
    split
    · exact ⟨_, _, rfl⟩
    · exact ⟨_, _, rfl⟩

end Tick

section Writes

variable {k : Kernel τ ι}

/-- What a write to one object keeps of that object, it keeps of all. -/
theorem setObject_view [DecidableEq ι] {α : Type} (view : Object τ → α) {p : ι} {object : Object τ}
    (h : view object = view (k.objects p)) (q : ι) :
    view ((k.setObject p object).objects q) = view (k.objects q) := by
  rcases eq_or_ne q p with rfl | hne
  · simpa using h
  · simp [hne]

/-- An object of another kind is put in place of `p`. -/
theorem setObject_kind [DecidableEq ι] {α : Type} {kind : α → Object τ} {p : ι} {object : Object τ}
    (h : ∀ a, object ≠ kind a) (q : ι) (a : α)
    (ha : (k.setObject p object).objects q = kind a) : k.objects q = kind a := by
  rcases eq_or_ne q p with rfl | hne
  · exact absurd (by simpa using ha) (h a)
  · simpa [hne] using ha

@[simp] theorem wakeTask_some [DecidableEq τ] (k : Kernel τ ι) (w : τ) (result : Status) :
    rtosKernelWakeTask k (some w) result = k.modifyTask w (leaveWait result) := rfl

theorem leaveWait_effectivePriority [DecidableEq τ]
    (k : Kernel τ ι) (w : τ) (result : Status) (t : τ) :
    ((k.modifyTask w (leaveWait result)).tcb t).effectivePriority =
      (k.tcb t).effectivePriority := by
  rcases eq_or_ne t w with rfl | ht
  · simp [leaveWait]
  · simp [ht]

theorem maybePreempt_eq (k : Kernel τ ι) (t : Option τ) :
    rtosMaybePreempt k t = { k with pended := k.pended || rtosKernelShouldPreempt k t } := by
  unfold rtosMaybePreempt
  cases h : rtosKernelShouldPreempt k t <;> simp [rtosPortPendContextSwitch]

@[simp] theorem maybePreempt_tcb (t : Option τ) : (rtosMaybePreempt k t).tcb = k.tcb := by
  rw [maybePreempt_eq]

@[simp] theorem maybePreempt_objects (t : Option τ) :
    (rtosMaybePreempt k t).objects = k.objects := by
  rw [maybePreempt_eq]

@[simp] theorem maybePreempt_memory (t : Option τ) :
    (rtosMaybePreempt k t).memory = k.memory := by
  rw [maybePreempt_eq]

@[simp] theorem maybePreempt_currentTask (t : Option τ) :
    (rtosMaybePreempt k t).currentTask = k.currentTask := by
  rw [maybePreempt_eq]

@[simp] theorem maybePreempt_tasks (t : Option τ) :
    (rtosMaybePreempt k t).tasks = k.tasks := by
  rw [maybePreempt_eq]

@[simp] theorem maybePreempt_running (t : Option τ) :
    (rtosMaybePreempt k t).running = k.running := by
  rw [maybePreempt_eq]

@[simp] theorem maybePreempt_tick (t : Option τ) :
    (rtosMaybePreempt k t).tick = k.tick := by
  rw [maybePreempt_eq]

@[simp] theorem maybePreempt_waitSequence (t : Option τ) :
    (rtosMaybePreempt k t).waitSequence = k.waitSequence := by
  rw [maybePreempt_eq]

@[simp] theorem maybePreempt_rrCursor (t : Option τ) :
    (rtosMaybePreempt k t).rrCursor = k.rrCursor := by
  rw [maybePreempt_eq]

@[simp] theorem maybePreempt_log (t : Option τ) : (rtosMaybePreempt k t).log = k.log := by
  rw [maybePreempt_eq]

theorem maybePreempt_pended (t : Option τ) :
    (rtosMaybePreempt k t).pended = (k.pended || rtosKernelShouldPreempt k t) := by
  rw [maybePreempt_eq]

/-- Only the memory changes when a sleeping caller's buffer is filled. -/
theorem setWaitBytes_eq (k : Kernel τ ι) (t : τ) (bytes : Nat → Byte) :
    ∃ memory, setWaitBytes k t bytes = { k with memory := memory } := by
  unfold setWaitBytes
  split
  · exact ⟨_, rfl⟩
  · exact ⟨k.memory, rfl⟩

@[simp] theorem setWaitBytes_tasks (t : τ) (bytes : Nat → Byte) :
    (setWaitBytes k t bytes).tasks = k.tasks := by
  obtain ⟨_, h⟩ := setWaitBytes_eq k t bytes
  rw [h]

@[simp] theorem setWaitBytes_tcb (t : τ) (bytes : Nat → Byte) :
    (setWaitBytes k t bytes).tcb = k.tcb := by
  obtain ⟨_, h⟩ := setWaitBytes_eq k t bytes
  rw [h]

@[simp] theorem setWaitBytes_log (t : τ) (bytes : Nat → Byte) :
    (setWaitBytes k t bytes).log = k.log := by
  obtain ⟨_, h⟩ := setWaitBytes_eq k t bytes
  rw [h]

@[simp] theorem setWaitBytes_currentTask (t : τ) (bytes : Nat → Byte) :
    (setWaitBytes k t bytes).currentTask = k.currentTask := by
  obtain ⟨_, h⟩ := setWaitBytes_eq k t bytes
  rw [h]

@[simp] theorem setWaitBytes_running (t : τ) (bytes : Nat → Byte) :
    (setWaitBytes k t bytes).running = k.running := by
  obtain ⟨_, h⟩ := setWaitBytes_eq k t bytes
  rw [h]

@[simp] theorem setWaitBytes_tick (t : τ) (bytes : Nat → Byte) :
    (setWaitBytes k t bytes).tick = k.tick := by
  obtain ⟨_, h⟩ := setWaitBytes_eq k t bytes
  rw [h]

@[simp] theorem setWaitBytes_waitSequence (t : τ) (bytes : Nat → Byte) :
    (setWaitBytes k t bytes).waitSequence = k.waitSequence := by
  obtain ⟨_, h⟩ := setWaitBytes_eq k t bytes
  rw [h]

@[simp] theorem setWaitBytes_rrCursor (t : τ) (bytes : Nat → Byte) :
    (setWaitBytes k t bytes).rrCursor = k.rrCursor := by
  obtain ⟨_, h⟩ := setWaitBytes_eq k t bytes
  rw [h]

@[simp] theorem setWaitBytes_pended (t : τ) (bytes : Nat → Byte) :
    (setWaitBytes k t bytes).pended = k.pended := by
  obtain ⟨_, h⟩ := setWaitBytes_eq k t bytes
  rw [h]

@[simp] theorem setWaitBytes_objects (t : τ) (bytes : Nat → Byte) :
    (setWaitBytes k t bytes).objects = k.objects := by
  obtain ⟨_, h⟩ := setWaitBytes_eq k t bytes
  rw [h]

@[simp] theorem popItem_tcb [DecidableEq ι] (k : Kernel τ ι) (caller : Option τ) (p : ι) (q : Queue)
    (item : BufferPtr) : (popItem k caller p q item).tcb = k.tcb := rfl

@[simp] theorem pushItem_tcb [DecidableEq ι]
    (k : Kernel τ ι) (sender : Option τ) (p : ι) (q : Queue)
    (bytes : Nat → Byte) : (pushItem k sender p q bytes).tcb = k.tcb := rfl

theorem popItem_object [DecidableEq ι] (k : Kernel τ ι) (caller : Option τ) (p : ι) (q : Queue)
    (item : BufferPtr) :
    (popItem k caller p q item).objects p = .queue (rtosQueuePop q (k.memory item)).1 := by
  simp [popItem]

theorem pushItem_object [DecidableEq ι] (k : Kernel τ ι) (sender : Option τ) (p : ι) (q : Queue)
    (bytes : Nat → Byte) :
    (pushItem k sender p q bytes).objects p = .queue (rtosQueuePush q bytes) := by
  simp [pushItem]

/-- What a direct hand-off leaves in the receiver's buffer. -/
def handedBytes (k : Kernel τ ι) (q : Queue) (item : BufferPtr) (receiver : τ) :
    Nat → Byte :=
  waitBytes (setWaitBytes k receiver
    (rtosCopyBytes (waitBytes k receiver) 0 (k.memory item) 0 q.itemSize.toNat)) receiver

theorem handedBytes_eq {q : Queue} {item buffer : BufferPtr} {receiver : τ}
    (hbuffer : (k.tcb receiver).waitBuffer = some buffer) :
    handedBytes k q item receiver =
      rtosCopyBytes (k.memory buffer) 0 (k.memory item) 0 q.itemSize.toNat := by
  simp [handedBytes, setWaitBytes, waitBytes, hbuffer]

variable [DecidableEq τ]

theorem handItem_memory {q : Queue} {item buffer : BufferPtr} {receiver : τ}
    (hbuffer : (k.tcb receiver).waitBuffer = some buffer) (caller : Option τ) (p : ι) :
    (handItem k caller p q item receiver).memory buffer = handedBytes k q item receiver := by
  rw [handedBytes_eq hbuffer]
  simp [handItem, setWaitBytes, waitBytes, hbuffer]

theorem handItem_objects (k : Kernel τ ι) (caller : Option τ) (p : ι) (q : Queue)
    (item : BufferPtr) (receiver : τ) :
    (handItem k caller p q item receiver).objects = k.objects := by
  simp [handItem]

theorem handItem_log (k : Kernel τ ι) (caller : Option τ) (p : ι) (q : Queue)
    (item : BufferPtr) (receiver : τ) :
    (handItem k caller p q item receiver).log = k.log ++
      [.accepted p caller (Kernel.itemBytes (k.memory item) q),
        .delivered p (some receiver) (Kernel.itemBytes (handedBytes k q item receiver) q)] := by
  simp [handItem, handedBytes]

omit [DecidableEq τ] in
/-- A receive that makes room for a sleeping sender's item. -/
theorem refill_log [DecidableEq ι] (k : Kernel τ ι) (caller : Option τ) (p : ι) (q : Queue)
    (item : BufferPtr) (sender : τ) (bytes : Nat → Byte) :
    (pushItem (popItem k caller p q item) (some sender) p
      (rtosQueuePop q (k.memory item)).1 bytes).log = k.log ++
      [.delivered p caller (Kernel.itemBytes (rtosQueuePop q (k.memory item)).2 q),
        .accepted p (some sender) (Kernel.itemBytes bytes q)] := by
  simp [pushItem, popItem, Kernel.itemBytes, rtosQueuePop]

theorem blockCurrent_eq {self : τ} (hcur : k.currentTask = some self) {timeoutTicks : Word}
    (htime : rtosTimeoutValid timeoutTicks = true) (waitType : WaitType) (object : ι)
    (buffer : Option BufferPtr) :
    (rtosKernelBlockCurrent k waitType object buffer timeoutTicks).1 =
      rtosPortPendContextSwitch
        { k.modifyTask self (enterWait k waitType object buffer timeoutTicks) with
          waitSequence := k.waitSequence + 1 } := by
  simp [rtosKernelBlockCurrent, hcur, htime]

end Writes

section Inheritance

variable {k : Kernel τ ι}

theorem blockingOwner_eq_some {t owner : τ} :
    blockingOwner k t = some owner ↔
      ∃ p m, (k.tcb t).state = .blocked ∧ (k.tcb t).waitType = .mutex ∧
        (k.tcb t).waitObject = some p ∧ k.objects p = .mutex m ∧ m.owner = some owner := by
  unfold blockingOwner
  split
  · next h =>
      simp only [Option.bind_eq_some_iff, Object.owner?_eq_some, h.1, h.2, true_and]
      constructor
      · rintro ⟨p, hp, m, hm, ho⟩
        exact ⟨p, m, hp, hm, ho⟩
      · rintro ⟨p, m, hp, hm, ho⟩
        exact ⟨p, hp, m, hm, ho⟩
  · next h =>
      simp only [reduceCtorEq, false_iff]
      rintro ⟨p, m, hs, ht, _⟩
      exact h ⟨hs, ht⟩

variable [DecidableEq τ]

/-- The recomputed priorities are exact, whatever the old ones were. -/
theorem recomputedPriority_exact
    (hclosed : ∀ t ∈ k.tasks, ∀ owner, blockingOwner k t = some owner → owner ∈ k.tasks) :
    Exact (blockingOwner k) k.tasks (fun t => (k.tcb t).basePriority)
      (recomputedPriority k) := by
  apply passes_exact
  · rintro u v ⟨hu, huv⟩
    exact hclosed u hu v huv
  · intro t ht
    simp [ht]

end Inheritance

end Stm32f411.RtosKernelSpec
