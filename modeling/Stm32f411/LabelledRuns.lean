import Mathlib.Data.List.Basic

/-!
Runs of a labelled transition relation, and of the partial step function that
evaluates one.
-/

namespace Stm32f411.LabelledRuns

variable {σ ℓ : Type*}

/-- A finite run, extended at its end. -/
inductive Run (R : σ → ℓ → σ → Prop) (s : σ) : List ℓ → σ → Prop
  | nil : Run R s [] s
  | snoc {labels : List ℓ} {s' s'' : σ} {label : ℓ} :
      Run R s labels s' → R s' label s'' → Run R s (labels ++ [label]) s''

/-- Reachable from an initial state by some run. -/
def Reachable (R : σ → ℓ → σ → Prop) (start : σ → Prop) (s : σ) : Prop :=
  ∃ s₀ labels, start s₀ ∧ Run R s₀ labels s

section Rules

variable {R R' : σ → ℓ → σ → Prop} {start : σ → Prop} {s s' s'' : σ}

theorem Run.single {label : ℓ} (h : R s label s') : Run R s [label] s' :=
  .snoc .nil h

theorem Run.append {l₁ l₂ : List ℓ} (h₁ : Run R s l₁ s') (h₂ : Run R s' l₂ s'') :
    Run R s (l₁ ++ l₂) s'' := by
  induction h₂ with
  | nil => simpa using h₁
  | snoc _ hstep ih =>
      rw [← List.append_assoc]
      exact .snoc ih hstep

theorem Run.cons {label : ℓ} {labels : List ℓ} (h : R s label s') (hrun : Run R s' labels s'') :
    Run R s (label :: labels) s'' :=
  (Run.single h).append hrun

theorem Run.mono (hR : ∀ s label s', R s label s' → R' s label s') {labels : List ℓ}
    (h : Run R s labels s') : Run R' s labels s' := by
  induction h with
  | nil => exact .nil
  | snoc _ hstep ih => exact .snoc ih (hR _ _ _ hstep)

/-- What every step preserves, every run preserves. -/
theorem Run.preserves {I : σ → Prop} (hstep : ∀ s label s', I s → R s label s' → I s')
    {labels : List ℓ} (h : Run R s labels s') (hs : I s) : I s' := by
  induction h with
  | nil => exact hs
  | snoc _ hlast ih => exact hstep _ _ _ ih hlast

/-- A run with more than `n` labels of a kind is cut at the first one after `n` others. -/
theorem Run.cut {f : ℓ → Bool} {n : Nat} {labels : List ℓ} (h : Run R s labels s')
    (hn : n < labels.countP f) :
    ∃ before label after s₁ s₂, labels = before ++ label :: after ∧ f label = true ∧
      before.countP f = n ∧ Run R s before s₁ ∧ R s₁ label s₂ ∧ Run R s₂ after s' := by
  induction h with
  | nil => simp at hn
  | @snoc labels s' s'' label hrest hlast ih =>
      by_cases hbefore : n < labels.countP f
      · obtain ⟨before, first, after, s₁, s₂, rfl, hf, hcount, hrun, hstep, hafter⟩ := ih hbefore
        exact ⟨before, first, after ++ [label], s₁, s₂, by simp, hf, hcount, hrun, hstep,
          .snoc hafter hlast⟩
      · rw [List.countP_append, List.countP_singleton] at hn
        split at hn
        · next hf => exact ⟨labels, label, [], s', s'', rfl, hf, by omega, hrest, hlast, .nil⟩
        · omega

theorem Reachable.initial (h : start s) : Reachable R start s :=
  ⟨s, [], h, .nil⟩

theorem Reachable.run {labels : List ℓ} (hs : Reachable R start s) (h : Run R s labels s') :
    Reachable R start s' := by
  obtain ⟨s₀, l, hstart, hrun⟩ := hs
  exact ⟨s₀, l ++ labels, hstart, hrun.append h⟩

theorem Reachable.step {label : ℓ} (hs : Reachable R start s) (h : R s label s') :
    Reachable R start s' :=
  hs.run (.single h)

theorem Reachable.mono (hR : ∀ s label s', R s label s' → R' s label s')
    (h : Reachable R start s) : Reachable R' start s := by
  obtain ⟨s₀, l, hstart, hrun⟩ := h
  exact ⟨s₀, l, hstart, hrun.mono hR⟩

/-- An invariant holds at the start and survives every step from a reachable state. -/
theorem Reachable.invariant {I : σ → Prop} (hstart : ∀ s, start s → I s)
    (hstep : ∀ s label s', Reachable R start s → I s → R s label s' → I s')
    (h : Reachable R start s) : I s := by
  obtain ⟨s₀, l, hs₀, hrun⟩ := h
  induction hrun with
  | nil => exact hstart _ hs₀
  | snoc hrest hlast ih => exact hstep _ _ _ ⟨s₀, _, hs₀, hrest⟩ ih hlast

/-- A system whose every step another one takes in a run of its own. -/
theorem Reachable.simulate {σ' ℓ' : Type*} {S : σ' → ℓ' → σ' → Prop} {start' : σ' → Prop}
    (f : σ → σ') (hstart : ∀ s, start s → start' (f s))
    (hstep : ∀ s label s', R s label s' → ∃ labels, Run S (f s) labels (f s'))
    (h : Reachable R start s) : Reachable S start' (f s) := by
  apply h.invariant (I := fun s => Reachable S start' (f s))
  · exact fun s hs => .initial (hstart s hs)
  · intro s label s' _ hs hlast
    obtain ⟨labels, hrun⟩ := hstep s label s' hlast
    exact hs.run hrun

/-- Steps that satisfy a relation wherever a run can get to make a run of that relation. -/
theorem Reachable.refine
    (hR : ∀ s label s', Reachable R start s → R s label s' → R' s label s')
    (h : Reachable R start s) : Reachable R' start s := by
  apply h.invariant (fun s hs => Reachable.initial hs)
  intro s label s' hs hs' hstep
  exact hs'.step (hR s label s' hs hstep)

end Rules

section Exec

/-- Run a partial step function over a list of labels. -/
def exec (step : σ → ℓ → Option σ) (s : σ) : List ℓ → Option σ
  | [] => some s
  | label :: labels => (step s label).bind fun s' => exec step s' labels

def Steps (step : σ → ℓ → Option σ) (s : σ) (label : ℓ) (s' : σ) : Prop :=
  step s label = some s'

variable {step : σ → ℓ → Option σ}

theorem exec_append (s : σ) (l₁ l₂ : List ℓ) :
    exec step s (l₁ ++ l₂) = (exec step s l₁).bind fun s' => exec step s' l₂ := by
  induction l₁ generalizing s with
  | nil => rfl
  | cons label l₁ ih =>
      rw [List.cons_append, exec, exec, Option.bind_assoc]
      congr 1
      funext s'
      exact ih s'

theorem run_of_exec {labels : List ℓ} {s s' : σ} (h : exec step s labels = some s') :
    Run (Steps step) s labels s' := by
  induction labels generalizing s with
  | nil =>
      obtain rfl : s = s' := by simpa [exec] using h
      exact .nil
  | cons label labels ih =>
      obtain ⟨m, hm, hrest⟩ := Option.bind_eq_some_iff.mp h
      exact Run.append (.single hm) (ih hrest)

theorem exec_run {labels : List ℓ} {s : σ} (h : (exec step s labels).isSome = true) :
    Run (Steps step) s labels ((exec step s labels).getD s) := by
  obtain ⟨s', hs'⟩ := Option.isSome_iff_exists.mp h
  rw [hs']
  exact run_of_exec hs'

theorem exec_run_append {l₁ l₂ : List ℓ} {s : σ} (h : (exec step s (l₁ ++ l₂)).isSome = true) :
    Run (Steps step) ((exec step s l₁).getD s) l₂ ((exec step s (l₁ ++ l₂)).getD s) := by
  obtain ⟨s'', hs''⟩ := Option.isSome_iff_exists.mp h
  rw [hs'']
  rw [exec_append] at hs''
  obtain ⟨s', hs', hrest⟩ := Option.bind_eq_some_iff.mp hs''
  rw [hs']
  exact run_of_exec hrest

theorem exec_step {labels : List ℓ} {label : ℓ} {s : σ}
    (h : (exec step s (labels ++ [label])).isSome = true) :
    Steps step ((exec step s labels).getD s) label
      ((exec step s (labels ++ [label])).getD s) := by
  obtain ⟨s'', hs''⟩ := Option.isSome_iff_exists.mp h
  rw [hs'']
  rw [exec_append] at hs''
  obtain ⟨s', hs', hlast⟩ := Option.bind_eq_some_iff.mp hs''
  simpa [hs', exec, Steps] using hlast

end Exec

end Stm32f411.LabelledRuns
