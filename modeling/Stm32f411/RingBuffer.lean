import Mathlib.Data.Int.ModEq
import Mathlib.Logic.Function.Basic

/-!
A bounded ring of slots, read from its head. Pushing appends to the contents and popping
removes their first element, wherever the head stands.
-/

namespace Stm32f411.RingBuffer

/-- A ring in which at least one slot exists and no slot is counted twice. -/
structure SlotRing (α : Type*) where
  capacity : Nat
  slots : Nat → α
  head : Nat
  count : Nat
  head_lt : head < capacity
  count_le : count ≤ capacity

namespace SlotRing

variable {α : Type*}

/-- The slot that holds the element `i` places behind the head. -/
def index (r : SlotRing α) (i : Nat) : Nat :=
  (r.head + i) % r.capacity

def tail (r : SlotRing α) : Nat :=
  r.index r.count

def contents (r : SlotRing α) : List α :=
  (List.range r.count).map fun i => r.slots (r.index i)

def push (r : SlotRing α) (a : α) (h : r.count < r.capacity) : SlotRing α :=
  { r with
    slots := Function.update r.slots r.tail a
    count := r.count + 1
    count_le := h }

def pop (r : SlotRing α) : SlotRing α :=
  { r with
    head := (r.head + 1) % r.capacity
    count := r.count - 1
    head_lt := Nat.mod_lt _ (Nat.zero_lt_of_lt r.head_lt)
    count_le := (Nat.sub_le _ _).trans r.count_le }

theorem index_zero (r : SlotRing α) : r.index 0 = r.head :=
  Nat.mod_eq_of_lt r.head_lt

theorem index_injective (r : SlotRing α) {i j : Nat} (hi : i < r.capacity) (hj : j < r.capacity)
    (h : r.index i = r.index j) : i = j := by
  have hmod : i ≡ j [MOD r.capacity] := Nat.ModEq.add_left_cancel' r.head h
  exact hmod.eq_of_lt_of_lt hi hj

theorem index_pop (r : SlotRing α) (i : Nat) : r.pop.index i = r.index (i + 1) := by
  simp only [index, pop, Nat.mod_add_mod]
  congr 1
  omega

/-- A pop moves the head and shortens the count, so the tail stays. -/
theorem tail_pop (r : SlotRing α) (h : r.count ≠ 0) : r.pop.tail = r.tail := by
  rw [tail, index_pop]
  show r.index (r.count - 1 + 1) = r.tail
  rw [Nat.sub_add_cancel (Nat.pos_of_ne_zero h), tail]

theorem contents_push (r : SlotRing α) (a : α) (h : r.count < r.capacity) :
    (r.push a h).contents = r.contents ++ [a] := by
  have hold : ∀ i ∈ List.range r.count,
      (r.push a h).slots ((r.push a h).index i) = r.slots (r.index i) := by
    intro i hi
    have hlt : i < r.count := List.mem_range.mp hi
    refine Function.update_of_ne (fun he => ?_) _ _
    exact absurd (r.index_injective (hlt.trans h) h he) (Nat.ne_of_lt hlt)
  have hnew : (r.push a h).slots ((r.push a h).index r.count) = a :=
    Function.update_self _ _ _
  calc
    (r.push a h).contents
        = (List.range r.count).map (fun i => (r.push a h).slots ((r.push a h).index i)) ++
            [(r.push a h).slots ((r.push a h).index r.count)] := by
          show (List.range (r.count + 1)).map _ = _
          rw [List.range_succ, List.map_append, List.map_singleton]
    _ = r.contents ++ [a] := by rw [List.map_congr_left hold, hnew, contents]

theorem contents_pop (r : SlotRing α) (h : r.count ≠ 0) :
    r.contents = r.slots r.head :: r.pop.contents := by
  obtain ⟨n, hn⟩ := Nat.exists_eq_succ_of_ne_zero h
  have hpop : r.pop.count = n := by simp [pop, hn]
  rw [contents, contents, hn, hpop, List.range_succ_eq_map, List.map_cons, List.map_map,
    index_zero]
  simp only [index_pop]
  rfl

end SlotRing

end Stm32f411.RingBuffer
