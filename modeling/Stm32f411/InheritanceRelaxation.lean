import Mathlib.Data.Finset.Card
import Mathlib.Data.Nat.Find
import Mathlib.Logic.Relation
import Mathlib.Order.Bounds.Basic

/-!
In-place relaxation of a value along a functional graph. Every node of a finite
table has a base value and at most one successor; a pass visits the table in order
and raises each successor to the value of its predecessor. Bounded by the length of
the table, the passes compute the greatest base value over everything that reaches
a node, whatever the order of the table and whether or not the graph has cycles.
-/

namespace Stm32f411.InheritanceRelaxation

variable {τ α : Type*} [LinearOrder α]

section Loops

variable [DecidableEq τ]

/-- Visit one node: raise its successor to its own value, and note a change. -/
def relax (next : τ → Option τ) (acc : (τ → α) × Bool) (u : τ) : (τ → α) × Bool :=
  match next u with
  | none => acc
  | some v =>
      if acc.1 v < acc.1 u then (Function.update acc.1 v (acc.1 u), true) else acc

/-- One pass over the table. -/
def pass (next : τ → Option τ) (table : List τ) (f : τ → α) : (τ → α) × Bool :=
  table.foldl (relax next) (f, false)

/-- At most `n` passes, leaving as soon as a pass changes nothing. -/
def passes (next : τ → Option τ) (table : List τ) : Nat → (τ → α) → τ → α
  | 0, f => f
  | n + 1, f =>
      if (pass next table f).2 then passes next table n (pass next table f).1
      else (pass next table f).1

end Loops

def Edge (next : τ → Option τ) (table : List τ) (u v : τ) : Prop :=
  u ∈ table ∧ next u = some v

/-- `f` is, at every node of the table, the greatest base value over the nodes that
reach it. -/
def Exact (next : τ → Option τ) (table : List τ) (base f : τ → α) : Prop :=
  ∀ t ∈ table,
    IsGreatest {b | ∃ u ∈ table, Relation.ReflTransGen (Edge next table) u t ∧ base u = b} (f t)

/-- `f` is above the base values and does not fall along an edge. -/
def Bounds (next : τ → Option τ) (table : List τ) (base f : τ → α) : Prop :=
  (∀ t ∈ table, base t ≤ f t) ∧ ∀ u v, Edge next table u v → f u ≤ f v

def Closed (next : τ → Option τ) (table : List τ) : Prop :=
  ∀ u v, Edge next table u v → v ∈ table

section Exact

variable {next next' : τ → Option τ} {table : List τ} {base f g : τ → α}

theorem Exact.base_le (h : Exact next table base f) {t : τ} (ht : t ∈ table) :
    base t ≤ f t :=
  (h t ht).2 ⟨t, ht, .refl, rfl⟩

theorem Exact.edge_le (h : Exact next table base f) {u v : τ}
    (huv : Edge next table u v) (hv : v ∈ table) : f u ≤ f v := by
  obtain ⟨w, hw, hreach, hbase⟩ := (h u huv.1).1
  exact (h v hv).2 ⟨w, hw, hreach.tail huv, hbase⟩

theorem Exact.bounds (h : Exact next table base f) (hclosed : Closed next table) :
    Bounds next table base f :=
  ⟨fun _ ht => h.base_le ht, fun u v huv => h.edge_le huv (hclosed u v huv)⟩

theorem Bounds.le_of_reaches (hg : Bounds next table base g) {u t : τ}
    (hreach : Relation.ReflTransGen (Edge next table) u t) : g u ≤ g t := by
  induction hreach with
  | refl => exact le_rfl
  | tail _ hedge ih => exact ih.trans (hg.2 _ _ hedge)

/-- The exact assignment is below every assignment that bounds the graph. -/
theorem Exact.le_of_bounds (h : Exact next table base f) (hg : Bounds next table base g)
    {t : τ} (ht : t ∈ table) : f t ≤ g t := by
  obtain ⟨u, hu, hreach, hbase⟩ := (h t ht).1
  rw [← hbase]
  exact (hg.1 u hu).trans (hg.le_of_reaches hreach)

theorem Exact.unique (h : Exact next table base f) (hg : Exact next table base g)
    {t : τ} (ht : t ∈ table) : f t = g t :=
  (h t ht).unique (hg t ht)

/-- `f` solves the equation of the graph: every value is the greatest among the base value and
the values of the predecessors. -/
def Solves (next : τ → Option τ) (table : List τ) (base f : τ → α) : Prop :=
  ∀ t ∈ table, IsGreatest (insert (base t) {b | ∃ u, Edge next table u t ∧ f u = b}) (f t)

theorem Solves.bounds (h : Solves next table base f) (hclosed : Closed next table) :
    Bounds next table base f := by
  constructor
  · intro t ht
    exact (h t ht).2 (Set.mem_insert _ _)
  · intro u v huv
    exact (h v (hclosed u v huv)).2 (Set.mem_insert_of_mem _ ⟨u, huv, rfl⟩)

/-- The exact assignment is a solution. -/
theorem Exact.solves (h : Exact next table base f) : Solves next table base f := by
  intro t ht
  constructor
  · obtain ⟨u, hu, hreach, hbase⟩ := (h t ht).1
    rcases Relation.ReflTransGen.cases_tail hreach with rfl | ⟨v, hreach, hedge⟩
    · rw [← hbase]
      exact Set.mem_insert _ _
    · refine Set.mem_insert_of_mem _ ⟨v, hedge, le_antisymm (h.edge_le hedge ht) ?_⟩
      rw [← hbase]
      exact (h v hedge.1).2 ⟨u, hu, hreach, rfl⟩
  · rintro b (rfl | ⟨u, hedge, rfl⟩)
    · exact h.base_le ht
    · exact h.edge_le hedge ht

/-- Only the members of the table matter, not their order. -/
theorem Exact.of_mem_iff {table' : List τ} (h : Exact next table base f)
    (hmem : ∀ t, t ∈ table ↔ t ∈ table') : Exact next table' base f := by
  have hedge : Edge next table = Edge next table' := by
    funext u v
    exact propext (and_congr_left fun _ => hmem u)
  intro t ht
  have hset : {b | ∃ u ∈ table, Relation.ReflTransGen (Edge next table) u t ∧ base u = b} =
      {b | ∃ u ∈ table', Relation.ReflTransGen (Edge next table') u t ∧ base u = b} := by
    simp only [hedge, hmem]
  rw [← hset]
  exact h t ((hmem t).mpr ht)

theorem edge_congr (hnext : ∀ u ∈ table, next u = next' u) {u v : τ} :
    Edge next table u v ↔ Edge next' table u v := by
  constructor
  · rintro ⟨hu, huv⟩
    exact ⟨hu, by rw [← hnext u hu, huv]⟩
  · rintro ⟨hu, huv⟩
    exact ⟨hu, by rw [hnext u hu, huv]⟩

/-- Nothing has to be recomputed where the edges and the base values stay. -/
theorem Exact.congr {base' : τ → α} (h : Exact next table base f)
    (hnext : ∀ u ∈ table, next u = next' u) (hbase : ∀ u ∈ table, base u = base' u)
    (hf : ∀ u ∈ table, f u = g u) : Exact next' table base' g := by
  have hedge : Edge next table = Edge next' table := by
    funext u v
    exact propext (edge_congr hnext)
  intro t ht
  have hset : {b | ∃ u ∈ table, Relation.ReflTransGen (Edge next table) u t ∧ base u = b} =
      {b | ∃ u ∈ table, Relation.ReflTransGen (Edge next' table) u t ∧ base' u = b} := by
    ext b
    constructor
    · rintro ⟨u, hu, hreach, hb⟩
      exact ⟨u, hu, hedge ▸ hreach, by rw [← hbase u hu, hb]⟩
    · rintro ⟨u, hu, hreach, hb⟩
      exact ⟨u, hu, hedge ▸ hreach, by rw [hbase u hu, hb]⟩
  rw [← hset, ← hf t ht]
  exact h t ht

/-- Hand the predecessors of `c` over to one of them. Node `c` has no successor; `w`,
the greatest predecessor in the group handed over, loses its edge to `c` and the others
of the group now point to `w`. Only the value of `c` can change, and it cannot fall
unless `w` ends up above it. -/
theorem Exact.handOver [DecidableEq τ] {c w : τ} (hf : Exact next table base f)
    (hg : Exact next' table base g)
    (hclosed : Closed next table) (hclosed' : Closed next' table)
    (hc : next c = none) (hcTable : c ∈ table) (hw : w ∈ table) (hwc : w ≠ c)
    (hstep : ∀ u ∈ table, next' u = next u ∨
      next u = some c ∧ f u ≤ f w ∧ (next' u = some w ∨ u = w ∧ next' u = none)) :
    (∀ t ∈ table, t ≠ c → g t = f t) ∧ (g w ≤ g c → f c ≤ g c) := by
  have hfb := hf.bounds hclosed
  have hgb := hg.bounds hclosed'
  have hle : ∀ t ∈ table, g t ≤ f t := by
    intro t ht
    refine hg.le_of_bounds ⟨hfb.1, ?_⟩ ht
    rintro u v ⟨hu, huv⟩
    rcases hstep u hu with hsame | ⟨_, hfu, hto | ⟨_, hnone⟩⟩
    · exact hfb.2 u v ⟨hu, hsame ▸ huv⟩
    · have : v = w := by simpa [hto] using huv.symm
      exact this ▸ hfu
    · simp [hnone] at huv
  have hedge : ∀ u v, Edge next table u v → v ≠ c → g u ≤ g v := by
    rintro u v ⟨hu, huv⟩ hv
    rcases hstep u hu with hsame | ⟨hto, _, _⟩
    · exact hgb.2 u v ⟨hu, hsame ▸ huv⟩
    · exact absurd (by simpa [huv] using hto) hv
  have hge : ∀ t ∈ table, t ≠ c → f t ≤ g t := by
    -- `g` with the old value at `c` still bounds the old graph
    have hbound : Bounds next table base (Function.update g c (f c)) := by
      refine ⟨fun t ht => ?_, ?_⟩
      · rcases eq_or_ne t c with rfl | htc
        · simpa using hfb.1 t ht
        · simpa [htc] using hgb.1 t ht
      · rintro u v huv
        have huc : u ≠ c := by
          rintro rfl
          simp [Edge, hc] at huv
        rcases eq_or_ne v c with rfl | hvc
        · simpa [huc] using (hle u huv.1).trans (hfb.2 u v huv)
        · simpa [huc, hvc] using hedge u v huv hvc
    intro t ht htc
    simpa [htc] using hf.le_of_bounds hbound ht
  refine ⟨fun t ht htc => le_antisymm (hle t ht) (hge t ht htc), fun hwle => ?_⟩
  refine hf.le_of_bounds ⟨hgb.1, ?_⟩ hcTable
  rintro u v huv
  rcases eq_or_ne v c with rfl | hvc
  · rcases hstep u huv.1 with hsame | ⟨_, hfu, _⟩
    · exact hgb.2 u v ⟨huv.1, hsame ▸ huv.2⟩
    · calc
        g u ≤ f u := hle u huv.1
        _ ≤ f w := hfu
        _ ≤ g w := hge w hw hwc
        _ ≤ g v := hwle
  · exact hedge u v huv hvc

end Exact

section Follow

/-- The node reached from `u` after `k` edges. -/
def follow (next : τ → Option τ) : Nat → τ → Option τ
  | 0, u => some u
  | k + 1, u => (follow next k u).bind next

variable {next : τ → Option τ} {table : List τ}

theorem follow_add (i j : Nat) (u : τ) :
    follow next (i + j) u = (follow next i u).bind (follow next j) := by
  induction j with
  | zero => cases follow next i u <;> rfl
  | succ j ih =>
      rw [← Nat.add_assoc]
      simp only [follow, ih]
      cases follow next i u <;> rfl

theorem follow_mem (hclosed : Closed next table) {k : Nat} {u t : τ} (hu : u ∈ table)
    (h : follow next k u = some t) : t ∈ table := by
  induction k generalizing t with
  | zero => simpa [follow] using (Option.some.inj h) ▸ hu
  | succ k ih =>
      obtain ⟨w, hw, hwt⟩ := Option.bind_eq_some_iff.mp h
      exact hclosed w t ⟨ih hw, hwt⟩

theorem exists_follow_of_reaches {u t : τ}
    (h : Relation.ReflTransGen (Edge next table) u t) : ∃ k, follow next k u = some t := by
  induction h with
  | refl => exact ⟨0, rfl⟩
  | tail _ hedge ih =>
      obtain ⟨k, hk⟩ := ih
      exact ⟨k + 1, by simp [follow, hk, hedge.2]⟩

/-- A node that is reached at all is reached along fewer edges than the table is long:
a longer walk visits some node twice and can be cut there. -/
theorem exists_follow_lt [DecidableEq τ] (hclosed : Closed next table) {u t : τ} (hu : u ∈ table)
    (h : Relation.ReflTransGen (Edge next table) u t) :
    ∃ k < table.length, follow next k u = some t := by
  classical
  have hex := exists_follow_of_reaches h
  refine ⟨Nat.find hex, ?_, Nat.find_spec hex⟩
  by_contra hlong
  have hk := Nat.find_spec hex
  have hvisit : ∀ i ≤ Nat.find hex, ∃ v ∈ table, follow next i u = some v := by
    intro i hi
    obtain ⟨j, hj⟩ := Nat.exists_eq_add_of_le hi
    rw [hj, follow_add] at hk
    obtain ⟨v, hv, _⟩ := Option.bind_eq_some_iff.mp hk
    exact ⟨v, follow_mem hclosed hu hv, hv⟩
  have : Nonempty τ := ⟨u⟩
  choose! node hnode hfollow using hvisit
  have hcard : table.toFinset.card < (Finset.range (Nat.find hex + 1)).card := by
    have := List.toFinset_card_le table
    simp only [Finset.card_range]
    omega
  obtain ⟨i, hi, j, hj, hij, hsame⟩ :=
    Finset.exists_ne_map_eq_of_card_lt_of_maps_to (f := node) hcard (by
      intro i hi
      simp only [Finset.coe_range, Set.mem_Iio] at hi
      simpa using hnode i (by omega))
  have hcut : ∀ i j, i < j → j ≤ Nat.find hex → node i = node j → False := by
    intro i j hlt hj hsame
    obtain ⟨d, hd⟩ := Nat.exists_eq_add_of_le hj
    have htail : follow next d (node j) = some t := by
      rw [hd, follow_add, hfollow j hj] at hk
      simpa using hk
    have hshort : follow next (i + d) u = some t := by
      rw [follow_add, hfollow i (by omega), hsame]
      simpa using htail
    exact Nat.find_min hex (by omega) hshort
  simp only [Finset.mem_range] at hi hj
  rcases Nat.lt_or_gt_of_ne hij with hlt | hlt
  · exact hcut i j hlt (by omega) hsame
  · exact hcut j i hlt (by omega) hsame.symm

end Follow

section Passes

variable [DecidableEq τ] {next : τ → Option τ} {table : List τ} {base : τ → α}

/-- Every value is the base value of some node that reaches it. -/
def Attained (next : τ → Option τ) (table : List τ) (base f : τ → α) : Prop :=
  ∀ t ∈ table, ∃ u ∈ table, Relation.ReflTransGen (Edge next table) u t ∧ base u = f t

/-- The base values have travelled along every walk of at most `j` edges. -/
def Travelled (next : τ → Option τ) (table : List τ) (base : τ → α) (j : Nat)
    (f : τ → α) : Prop :=
  ∀ k ≤ j, ∀ u ∈ table, ∀ t, follow next k u = some t → base u ≤ f t

theorem le_relax (acc : (τ → α) × Bool) (u t : τ) : acc.1 t ≤ (relax next acc u).1 t := by
  unfold relax
  split
  · exact le_rfl
  · next v _ =>
      split
      · next hlt =>
          rcases eq_or_ne t v with rfl | htv
          · simpa using hlt.le
          · simp [htv]
      · exact le_rfl

theorem relax_edge (acc : (τ → α) × Bool) {u v : τ} (huv : next u = some v) :
    acc.1 u ≤ (relax next acc u).1 v := by
  simp only [relax, huv]
  split
  · simp
  · next hle => exact not_lt.mp hle

theorem Attained.relax {acc : (τ → α) × Bool} {u : τ} (hu : u ∈ table)
    (h : Attained next table base acc.1) :
    Attained next table base (relax next acc u).1 := by
  intro t ht
  cases huv : next u with
  | none => simpa [InheritanceRelaxation.relax, huv] using h t ht
  | some v =>
      simp only [InheritanceRelaxation.relax, huv]
      split
      · rcases eq_or_ne t v with rfl | htv
        · obtain ⟨w, hw, hreach, hbase⟩ := h u hu
          exact ⟨w, hw, hreach.tail ⟨hu, huv⟩, by simpa using hbase⟩
        · simpa [htv] using h t ht
      · exact h t ht

theorem relax_unchanged {acc : (τ → α) × Bool} {u : τ} (h : (relax next acc u).2 = false) :
    relax next acc u = acc := by
  unfold relax at h ⊢
  split
  · rfl
  · split
    · simp_all
    · rfl

theorem le_foldl_relax (l : List τ) (acc : (τ → α) × Bool) (t : τ) :
    acc.1 t ≤ (l.foldl (relax next) acc).1 t := by
  induction l generalizing acc with
  | nil => exact le_rfl
  | cons u l ih => exact (le_relax acc u t).trans (ih _)

theorem foldl_relax_edge {l : List τ} (acc : (τ → α) × Bool) {u v : τ} (hu : u ∈ l)
    (huv : next u = some v) : acc.1 u ≤ (l.foldl (relax next) acc).1 v := by
  induction l generalizing acc with
  | nil => simp at hu
  | cons w l ih =>
      rcases List.mem_cons.mp hu with rfl | hu
      · exact (relax_edge acc huv).trans (le_foldl_relax l _ v)
      · exact (le_relax acc w u).trans (ih _ hu)

theorem Attained.foldl_relax {l : List τ} (hl : ∀ u ∈ l, u ∈ table)
    {acc : (τ → α) × Bool} (h : Attained next table base acc.1) :
    Attained next table base (l.foldl (InheritanceRelaxation.relax next) acc).1 := by
  induction l generalizing acc with
  | nil => exact h
  | cons u l ih =>
      exact ih (fun v hv => hl v (List.mem_cons_of_mem _ hv)) (h.relax (hl u (by simp)))

theorem foldl_relax_unchanged {l : List τ} {acc : (τ → α) × Bool}
    (h : (l.foldl (relax next) acc).2 = false) : l.foldl (relax next) acc = acc := by
  induction l generalizing acc with
  | nil => rfl
  | cons u l ih =>
      have hrest := ih h
      rw [List.foldl_cons] at h ⊢
      rw [hrest]
      exact relax_unchanged (hrest ▸ h)

theorem le_pass (f : τ → α) (t : τ) : f t ≤ (pass next table f).1 t :=
  le_foldl_relax table (f, false) t

theorem pass_edge (f : τ → α) {u v : τ} (huv : Edge next table u v) :
    f u ≤ (pass next table f).1 v :=
  foldl_relax_edge (f, false) huv.1 huv.2

theorem Travelled.pass (hclosed : Closed next table) {j : Nat} {f : τ → α}
    (h : Travelled next table base j f) :
    Travelled next table base (j + 1) (pass next table f).1 := by
  intro k hk u hu t hut
  cases k with
  | zero => exact (h 0 (by omega) u hu t hut).trans (le_pass f t)
  | succ k =>
      obtain ⟨w, hw, hwt⟩ := Option.bind_eq_some_iff.mp hut
      exact (h k (by omega) u hu w hw).trans
        (pass_edge f ⟨follow_mem hclosed hu hw, hwt⟩)

/-- A pass that changes nothing has nothing left to carry. -/
theorem Travelled.of_unchanged (hclosed : Closed next table) {j : Nat} {f : τ → α}
    (h : Travelled next table base j f)
    (hsame : (InheritanceRelaxation.pass next table f).2 = false) (m : Nat) :
    Travelled next table base m f := by
  have hpass : (InheritanceRelaxation.pass next table f).1 = f := by
    exact congrArg Prod.fst (foldl_relax_unchanged hsame)
  intro k _ u hu
  induction k with
  | zero => exact h 0 (by omega) u hu
  | succ k ih =>
      intro t hut
      obtain ⟨w, hw, hwt⟩ := Option.bind_eq_some_iff.mp hut
      have hedge := pass_edge f (⟨follow_mem hclosed hu hw, hwt⟩ : Edge next table w t)
      rw [hpass] at hedge
      exact (ih (by omega) w hw).trans hedge

theorem Travelled.passes (hclosed : Closed next table) (n : Nat) {j : Nat} {f : τ → α}
    (h : Travelled next table base j f) :
    Travelled next table base (j + n) (passes next table n f) := by
  induction n generalizing j f with
  | zero => exact h
  | succ n ih =>
      unfold InheritanceRelaxation.passes
      split
      · have hnext := ih (h.pass hclosed)
        rwa [Nat.add_assoc, Nat.add_comm 1 n] at hnext
      · next hsame =>
          have hfalse : (InheritanceRelaxation.pass next table f).2 = false := by
            simpa using hsame
          have hpass : (InheritanceRelaxation.pass next table f).1 = f :=
            congrArg Prod.fst (foldl_relax_unchanged hfalse)
          rw [hpass]
          exact h.of_unchanged hclosed hfalse _

theorem Attained.passes (n : Nat) {f : τ → α}
    (h : Attained next table base f) : Attained next table base (passes next table n f) := by
  induction n generalizing f with
  | zero => exact h
  | succ n ih =>
      have hpass : Attained next table base (InheritanceRelaxation.pass next table f).1 :=
        Attained.foldl_relax (fun _ hu => hu) h
      unfold InheritanceRelaxation.passes
      split
      · exact ih hpass
      · exact hpass

/-- As many passes as the table is long are enough, for any graph on the table, any
order of the table and any early exit. -/
theorem passes_exact (hclosed : Closed next table) {f : τ → α}
    (hstart : ∀ t ∈ table, f t = base t) :
    Exact next table base (passes next table table.length f) := by
  have hattained : Attained next table base f := fun t ht =>
    ⟨t, ht, .refl, (hstart t ht).symm⟩
  have htravelled : Travelled next table base 0 f := by
    intro k hk u hu t hut
    obtain rfl : k = 0 := by omega
    obtain rfl : u = t := by simpa [follow] using hut
    exact (hstart u hu).ge
  intro t ht
  refine ⟨hattained.passes _ t ht, ?_⟩
  rintro b ⟨u, hu, hreach, rfl⟩
  obtain ⟨k, hk, hfollow⟩ := exists_follow_lt hclosed hu hreach
  exact htravelled.passes hclosed table.length k (by omega) u hu t hfollow

end Passes

end Stm32f411.InheritanceRelaxation
