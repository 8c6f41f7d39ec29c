import Mathlib.Logic.Function.Basic
import Stm32f411.LabelledRuns

/-!
Sequential code over a state that others can reach too: a tree of single looks at the
state and single writes to it. Code may also never return.
-/

namespace Stm32f411.StatementPrograms

inductive Code (σ α : Type)
  | done (a : α)
  | stuck
  | look (next : σ → Code σ α)
  | write (f : σ → σ) (next : Code σ α)

variable {σ α β γ : Type}

namespace Code

def bind : Code σ α → (α → Code σ β) → Code σ β
  | .done a, f => f a
  | .stuck, _ => .stuck
  | .look next, f => .look fun s => (next s).bind f
  | .write g next, f => .write g (next.bind f)

instance : Monad (Code σ) where
  pure := .done
  bind := bind

/-- What the code does when nobody else acts: its result and the state it leaves. -/
def run : Code σ α → σ → Option (α × σ)
  | .done a, s => some (a, s)
  | .stuck, _ => none
  | .look next, s => (next s).run s
  | .write f next, s => next.run (f s)

/-- The next access. -/
def step : Code σ α → σ → Option (Code σ α × σ)
  | .done _, _ => none
  | .stuck, _ => none
  | .look next, s => some (next s, s)
  | .write f next, s => some (next, f s)

def get (f : σ → α) : Code σ α := .look fun s => .done (f s)

def modify (f : σ → σ) : Code σ Unit := .write f (.done ())

/-- Code over a part of a larger state. -/
def onPart {ω : Type} (part : ω → σ) (put : ω → σ → ω) : Code σ α → Code ω α
  | .done a => .done a
  | .stuck => .stuck
  | .look next => .look fun w => (next (part w)).onPart part put
  | .write f next => .write (fun w => put w (f (part w))) (next.onPart part put)

/-- The body once for each item, in order. -/
def forEach (body : β → Code σ Unit) : List β → Code σ Unit
  | [] => .done ()
  | item :: rest => body item >>= fun _ => forEach body rest

/-- The same with a local variable that the body updates. -/
def foldOver (body : α → β → Code σ α) (acc : α) : List β → Code σ α
  | [] => .done acc
  | item :: rest => body acc item >>= fun acc => foldOver body acc rest

/-- The body for one item after the other until it returns a value. -/
def firstOf (body : β → Code σ (Option α)) : List β → Code σ (Option α)
  | [] => .done none
  | item :: rest => body item >>= fun found => match found with
      | some a => .done (some a)
      | none => firstOf body rest

end Code

open Code

section Meaning

variable {c c' : Code σ α} {s s' : σ}

@[simp] theorem run_pure (a : α) (s : σ) : (pure a : Code σ α).run s = some (a, s) := rfl

@[simp] theorem run_done (a : α) (s : σ) : (Code.done a).run s = some (a, s) := rfl

@[simp] theorem run_stuck (s : σ) : (Code.stuck : Code σ α).run s = none := rfl

@[simp] theorem run_get (f : σ → α) (s : σ) : (Code.get f).run s = some (f s, s) := rfl

@[simp] theorem run_modify (f : σ → σ) (s : σ) : (Code.modify f).run s = some ((), f s) := rfl

@[simp] theorem run_bind (c : Code σ α) (f : α → Code σ β) (s : σ) :
    (c >>= f).run s = (c.run s).bind fun result => (f result.1).run result.2 := by
  change (c.bind f).run s = _
  induction c generalizing s with
  | done a => rfl
  | stuck => rfl
  | look next ih => exact ih s s
  | write g next ih => exact ih (g s)

@[simp] theorem run_ite {p : Prop} [Decidable p] (c c' : Code σ α) (s : σ) :
    (if p then c else c').run s = if p then c.run s else c'.run s := by
  split <;> rfl

theorem run_onPart {ω : Type} (part : ω → σ) (put : ω → σ → ω)
    (hpart : ∀ w s, part (put w s) = s) (hself : ∀ w, put w (part w) = w)
    (hput : ∀ w s s', put (put w s) s' = put w s') (c : Code σ α) (w : ω) :
    (c.onPart part put).run w =
      (c.run (part w)).map fun result => (result.1, put w result.2) := by
  induction c generalizing w with
  | done a => simp [onPart, hself]
  | stuck => rfl
  | look next ih => exact ih _ w
  | write f next ih =>
      change (next.onPart part put).run (put w (f (part w))) = _
      rw [ih, hpart]
      simp only [hput]
      rfl

/-- One access leaves what the code does as a whole unchanged. -/
theorem run_of_step (h : c.step s = some (c', s')) : c.run s = c'.run s' := by
  cases c with
  | done a => cases h
  | stuck => cases h
  | look next =>
      obtain ⟨rfl, rfl⟩ := Prod.mk.inj (Option.some.inj h)
      rfl
  | write f next =>
      obtain ⟨rfl, rfl⟩ := Prod.mk.inj (Option.some.inj h)
      rfl

theorem run_forEach_append (body : β → Code σ Unit) (items more : List β) (s : σ) :
    (forEach body (items ++ more)).run s =
      ((forEach body items).run s).bind fun result => (forEach body more).run result.2 := by
  induction items generalizing s with
  | nil => rfl
  | cons item items ih =>
      simp only [List.cons_append, forEach, run_bind, Option.bind_assoc, ih]

/-- A counting loop that takes one state of a sequence to the next. -/
theorem run_forEach_range (body : Nat → Code σ Unit) (state : Nat → σ) {n : Nat}
    (hbody : ∀ i, i < n → (body i).run (state i) = some ((), state (i + 1))) :
    (forEach body (List.range n)).run (state 0) = some ((), state n) := by
  induction n with
  | zero => rfl
  | succ n ih =>
      rw [List.range_succ, run_forEach_append, ih fun i hi => hbody i (Nat.lt_succ_of_lt hi)]
      simp [forEach, hbody n (Nat.lt_succ_self n)]

/-- A search that changes nothing before it succeeds. -/
theorem run_firstOf {body : β → Code σ (Option α)} {s : σ} {found : β → Option α}
    {after : β → σ} (hbody : ∀ item, (body item).run s =
      some (found item, if (found item).isSome then after item else s)) (items : List β) :
    (firstOf body items).run s = some (match items.find? fun item => (found item).isSome with
      | some item => (found item, after item)
      | none => (none, s)) := by
  induction items with
  | nil => rfl
  | cons item rest ih =>
      rw [firstOf, run_bind, hbody]
      cases hfound : found item with
      | some a => simp [hfound]
      | none => simpa [hfound] using ih

end Meaning

section Respect

/-- Where every look finds a state of `R`, every write keeps to `G` and the result satisfies
`Q`. -/
def Code.Respects (R : σ → Prop) (G : σ → σ → Prop) (Q : α → Prop) : Code σ α → Prop
  | .done a => Q a
  | .stuck => True
  | .look next => ∀ s, R s → Respects R G Q (next s)
  | .write f next => (∀ s, G s (f s)) ∧ Respects R G Q next

variable {R : σ → Prop} {G : σ → σ → Prop} {Q : α → Prop} {Q' : β → Prop} {c : Code σ α}

theorem Code.Respects.mono {Q'' : α → Prop} (h : c.Respects R G Q) (hQ : ∀ a, Q a → Q'' a) :
    Respects R G Q'' c := by
  induction c with
  | done a => exact hQ a h
  | stuck => trivial
  | look next ih => exact fun s hs => ih s (h s hs)
  | write f next ih => exact ⟨h.1, ih h.2⟩

theorem Code.Respects.bind {f : α → Code σ β} (h : c.Respects R G Q)
    (hf : ∀ a, Q a → Respects R G Q' (f a)) : Respects R G Q' (c >>= f) := by
  induction c with
  | done a => exact hf a h
  | stuck => trivial
  | look next ih => exact fun s hs => ih s (h s hs)
  | write g next ih => exact ⟨h.1, ih h.2⟩

theorem respects_pure {a : α} (h : Q a) : Respects R G Q (pure a) := h

theorem respects_get {f : σ → α} (h : ∀ s, R s → Q (f s)) : Respects R G Q (Code.get f) :=
  h

theorem respects_modify {f : σ → σ} (h : ∀ s, G s (f s)) :
    Respects R G (fun _ => True) (Code.modify f) :=
  ⟨h, trivial⟩

theorem respects_ite {p : Prop} [Decidable p] {c' : Code σ α} (h : p → Respects R G Q c)
    (h' : ¬p → Respects R G Q c') : Respects R G Q (if p then c else c') := by
  split
  · next hp => exact h hp
  · next hp => exact h' hp

theorem respects_forEach {body : β → Code σ Unit} {items : List β}
    (h : ∀ item ∈ items, Respects R G (fun _ => True) (body item)) :
    Respects R G (fun _ => True) (forEach body items) := by
  induction items with
  | nil => trivial
  | cons item items ih =>
      refine (h item List.mem_cons_self).bind fun _ _ => ?_
      exact ih fun item hitem => h item (List.mem_cons_of_mem _ hitem)

theorem respects_foldOver {body : α → β → Code σ α} {items : List β} (acc : α)
    (h : ∀ acc, ∀ item ∈ items, Respects R G (fun _ => True) (body acc item)) :
    Respects R G (fun _ => True) (foldOver body acc items) := by
  induction items generalizing acc with
  | nil => trivial
  | cons item items ih =>
      refine (h acc item List.mem_cons_self).bind fun acc _ => ?_
      exact ih acc fun acc item hitem => h acc item (List.mem_cons_of_mem _ hitem)

/-- One access of respectful code. -/
theorem Code.Respects.step {c' : Code σ α} {s s' : σ} (h : c.Respects R G Q) (hs : R s)
    (hstep : c.step s = some (c', s')) : Respects R G Q c' ∧ (s' = s ∨ G s s') := by
  cases c with
  | done a => cases hstep
  | stuck => cases hstep
  | look next =>
      obtain ⟨rfl, rfl⟩ := Prod.mk.inj (Option.some.inj hstep)
      exact ⟨h s hs, Or.inl rfl⟩
  | write f next =>
      obtain ⟨rfl, rfl⟩ := Prod.mk.inj (Option.some.inj hstep)
      exact ⟨h.2, Or.inr (h.1 s)⟩

end Respect

end Stm32f411.StatementPrograms
