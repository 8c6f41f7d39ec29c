import Stm32f411.RegisterPrograms

/-!
Programs that share a device, one access at a time in any order. Where each stores only to a
part of the device of its own, every one of them runs as if it had the device to itself.
-/

namespace Stm32f411.SharedDevices

open Stm32f411.LabelledRuns
open Stm32f411.RegisterPrograms
open Relation

variable {κ ρ ν α β σ : Type}

/-- A move of the hardware, or an access of one program. -/
inductive Interleaves [DecidableEq κ] (D : Device ρ ν σ) :
    (κ → Program ρ ν α) × σ → Option κ → (κ → Program ρ ν α) × σ → Prop
  | hardware {programs : κ → Program ρ ν α} {s s' : σ} :
      D.hardware s s' → Interleaves D (programs, s) none (programs, s')
  | access {programs : κ → Program ρ ν α} {s s' : σ} {c : κ} {access : Access ρ ν}
      {p' : Program ρ ν α} :
      Moves D (programs c, s) (some access) (p', s') →
      Interleaves D (programs, s) (some c) (Function.update programs c p', s')

/-- How a device is divided: when two states agree on the part of `c`, when two values of a
register differ only in what is no business of `c`, and what `c` may store. -/
structure Division (κ ρ ν σ : Type) where
  same : κ → σ → σ → Prop
  alike : κ → ρ → ν → ν → Prop
  owns : κ → Assignment → ρ → ν → Prop

/-- Two programs that make the same accesses, and stores of `c` only, as long as what they read
is alike to `c`; their results are then related by `R`. -/
inductive Alike (V : Division κ ρ ν σ) (c : κ) (R : α → α → Prop) :
    Program ρ ν α → Program ρ ν α → Prop
  | done {a a' : α} : R a a' → Alike V c R (.done a) (.done a')
  | read {r : ρ} {next next' : ν → Program ρ ν α} :
      (∀ v v', V.alike c r v v' → Alike V c R (next v) (next' v')) →
      Alike V c R (.read r next) (.read r next')
  | store {how : Assignment} {r : ρ} {v : ν} {next next' : Program ρ ν α} :
      V.owns c how r v → Alike V c R next next' →
      Alike V c R (.store how r v next) (.store how r v next')

/-- The program stores to the part of `c`, and the rest of the device can change its result no
further than `R` allows. -/
def Confined (V : Division κ ρ ν σ) (c : κ) (R : α → α → Prop) (p : Program ρ ν α) : Prop :=
  Alike V c R p p

/-- The parts are really apart: an access works on the part of its program in the same way
whatever the rest of the device is like, and leaves every other part alone. -/
structure Apart (D : Device ρ ν σ) (V : Division κ ρ ν σ) : Prop where
  refl : ∀ c s, V.same c s s
  alike : ∀ c r v, V.alike c r v v
  read : ∀ {c s t r v s'}, V.same c s t → D.effect s (.read r v) s' →
    ∃ v' t', D.effect t (.read r v') t' ∧ V.alike c r v v' ∧ V.same c s' t'
  store : ∀ {c s t how r v s'}, V.owns c how r v → V.same c s t →
    D.effect s (.store how r v) s' → ∃ t', D.effect t (.store how r v) t' ∧ V.same c s' t'
  readElse : ∀ {c s t r v s'}, V.same c s t → D.effect s (.read r v) s' → V.same c s' t
  storeElse : ∀ {c d s t how r v s'}, d ≠ c → V.owns d how r v → V.same c s t →
    D.effect s (.store how r v) s' → V.same c s' t
  hardware : ∀ {c s t s'}, V.same c s t → D.hardware s s' →
    ∃ t', ReflTransGen D.hardware t t' ∧ V.same c s' t'

variable {D : Device ρ ν σ} {V : Division κ ρ ν σ} {programs programs' : κ → Program ρ ν α}
variable {s s' t : σ} {c : κ} {R : α → α → Prop}

theorem Alike.bind {S : β → β → Prop} {p p' : Program ρ ν α} {f f' : α → Program ρ ν β}
    (hp : Alike V c R p p') (hf : ∀ a a', R a a' → Alike V c S (f a) (f' a')) :
    Alike V c S (p >>= f) (p' >>= f') := by
  induction hp with
  | done hresult => exact hf _ _ hresult
  | read _ ih => exact .read ih
  | store howns _ ih => exact .store howns ih

/-- An access of a confined program, seen from the part of `c`: if the program is that of `c`,
an access of any program alike to it, and otherwise none. -/
theorem Confined.access {d : κ} {p p' q : Program ρ ν α} {access : Access ρ ν}
    (happart : Apart D V) (hp : Confined V d R p) (hsame : V.same c s t)
    (h : Moves D (p, s) (some access) (p', s')) :
    Confined V d R p' ∧ (d ≠ c → V.same c s' t) ∧
      (d = c → Alike V c R p q → ∃ access' q' t', Moves D (q, t) (some access') (q', t') ∧
        Alike V c R p' q' ∧ V.same c s' t') := by
  cases h with
  | read heffect =>
      cases hp with
      | read hnext =>
          refine ⟨hnext _ _ (happart.alike ..), fun _ => happart.readElse hsame heffect, ?_⟩
          rintro rfl (_ | halike | _)
          obtain ⟨v', t', heffect', hvalue, hsame'⟩ := happart.read hsame heffect
          exact ⟨_, _, t', .read heffect', halike _ _ hvalue, hsame'⟩
  | store heffect =>
      cases hp with
      | store howns hnext =>
          refine ⟨hnext, fun hne => happart.storeElse hne howns hsame heffect, ?_⟩
          rintro rfl (_ | _ | ⟨_, halike⟩)
          obtain ⟨t', heffect', hsame'⟩ := happart.store howns hsame heffect
          exact ⟨_, _, t', .store heffect', halike, hsame'⟩

/-- One step, seen from the part of `c`: a step of a program alike to its own, or none. -/
theorem Interleaves.project [DecidableEq κ] {label : Option κ} {q : Program ρ ν α}
    (happart : Apart D V) (hconfined : ∀ c, Confined V c R (programs c))
    (halike : Alike V c R (programs c) q) (hsame : V.same c s t)
    (h : Interleaves D (programs, s) label (programs', s')) :
    (∀ c, Confined V c R (programs' c)) ∧
      ∃ events q' t', Run (Moves D) (q, t) events (q', t') ∧
        Alike V c R (programs' c) q' ∧ V.same c s' t' := by
  cases h with
  | hardware hmove =>
      obtain ⟨t', hmoves, hsame'⟩ := happart.hardware hsame hmove
      obtain ⟨events, hrun⟩ := run_hardware q hmoves
      exact ⟨hconfined, events, q, t', hrun, halike, hsame'⟩
  | @access _ _ _ d access p' hmove =>
      obtain ⟨hp', helse, hown⟩ := (hconfined d).access (q := q) happart hsame hmove
      refine ⟨fun e => ?_, ?_⟩
      · rcases eq_or_ne e d with rfl | hne
        · simpa using hp'
        · simpa [hne] using hconfined e
      · rcases eq_or_ne d c with rfl | hne
        · obtain ⟨access', q', t', hmove', halike', hsame'⟩ := hown rfl halike
          rw [Function.update_self]
          exact ⟨[some access'], q', t', .single hmove', halike', hsame'⟩
        · rw [Function.update_of_ne hne.symm]
          exact ⟨[], q, t, .nil, halike, helse hne⟩

/-- Every program of a run runs on its own part as it would alone. -/
theorem run_project [DecidableEq κ] {labels : List (Option κ)} (happart : Apart D V)
    (hconfined : ∀ c, Confined V c R (programs c))
    (h : Run (Interleaves D) (programs, s) labels (programs', s')) (c : κ) :
    ∃ events q t, Run (Moves D) (programs c, s) events (q, t) ∧
      Alike V c R (programs' c) q ∧ V.same c s' t := by
  suffices hall : (∀ c, Confined V c R (programs' c)) ∧
      ∃ events q t, Run (Moves D) (programs c, s) events (q, t) ∧
        Alike V c R (programs' c) q ∧ V.same c s' t from hall.2
  generalize hto : (programs', s') = state at h
  induction h generalizing programs' s' with
  | nil =>
      obtain ⟨rfl, rfl⟩ := Prod.mk.inj hto
      exact ⟨hconfined, [], _, _, .nil, hconfined c, happart.refl c _⟩
  | @snoc labels middle _ label _ hlast ih =>
      subst hto
      obtain ⟨between, u⟩ := middle
      obtain ⟨hmiddle, events, q, t, hrun, halike, hsame⟩ := ih rfl
      obtain ⟨hend, later, q', t', hlater, halike', hsame'⟩ :=
        hlast.project happart hmiddle halike hsame
      exact ⟨hend, events ++ later, q', t', hrun.append hlater, halike', hsame'⟩

section Calls

variable {γ : Type} {program : γ → Program ρ ν α} {next : β → γ → β}
  {returns : β → γ → α → Prop}
variable {shows : β → σ → Prop} {calls : List γ} {b : β}

/-- What calls return one after another, each in the state the ones before it leave. -/
def Returned (next : β → γ → β) (returns : β → γ → α → Prop) : β → List γ → List α → Prop
  | _, [], [] => True
  | b, call :: calls, a :: as => returns b call a ∧ Returned next returns (next b call) calls as
  | _, _, _ => False

theorem Returned.forall₂ {R : γ → α → Prop} {as : List α}
    (h : Returned next (fun _ => R) b calls as) : List.Forall₂ R calls as := by
  induction calls generalizing b as with
  | nil =>
      cases as with
      | nil => exact .nil
      | cons a as => exact h.elim
  | cons call calls ih =>
      cases as with
      | nil => exact h.elim
      | cons a as => exact .cons h.1 (ih h.2)

theorem Returned.of_related {as as' : List α} (h : List.Forall₂ R as as')
    (hreturns : ∀ b call a a', R a a' → returns b call a' → returns b call a)
    (h' : Returned next returns b calls as') : Returned next returns b calls as := by
  induction h generalizing b calls with
  | nil => exact h'
  | cons hhead _ ih =>
      cases calls with
      | nil => exact h'.elim
      | cons call calls => exact ⟨hreturns _ _ _ _ hhead h'.1, ih h'.2⟩

/-- The device shows `b` throughout the call or, from one access on, what the call makes of
`b`; and it returns what it should. -/
def Performs (D : Device ρ ν σ) (shows : β → σ → Prop) (next : β → γ → β)
    (returns : β → γ → α → Prop) (call : γ) (p : Program ρ ν α) : Prop :=
  ∀ b s, shows b s → Always D (fun _ _ s' => shows b s' ∨ shows (next b call) s')
    (fun a s' => shows (next b call) s' ∧ returns b call a) p s

theorem confined_mapM (h : ∀ call ∈ calls, Confined V c R (program call)) :
    Confined V c (List.Forall₂ R) (calls.mapM' program) := by
  induction calls with
  | nil => exact .done .nil
  | cons call calls ih =>
      refine (h call (List.mem_cons_self ..)).bind fun a a' hhead => ?_
      have hcalls := ih fun call' hcall' => h call' (List.mem_cons_of_mem _ hcall')
      exact hcalls.bind fun as as' htail => .done (.cons hhead htail)

/-- Calls in turn show what some of them, in order, make of the first state. -/
theorem always_mapM (hstable : ∀ b, Stable D (shows b))
    (h : ∀ call ∈ calls, Performs D shows next returns call (program call)) (hs : shows b s) :
    Always D (fun _ _ s' => ∃ n ≤ calls.length, shows ((calls.take n).foldl next b) s')
      (fun as s' => shows (calls.foldl next b) s' ∧ Returned next returns b calls as)
      (calls.mapM' program) s := by
  induction calls generalizing b s with
  | nil => exact always_done (hstable b) hs fun _ hs' => ⟨hs', trivial⟩
  | cons call calls ih =>
      have hfirst := h call (List.mem_cons_self ..) b s hs
      refine always_bind.mpr (hfirst.mono ?_ fun a s' ⟨hs', hreturns⟩ => ?_)
      · rintro _ _ s' (hs' | hs')
        · exact ⟨0, Nat.zero_le _, hs'⟩
        · exact ⟨1, by simp, by simpa using hs'⟩
      · have hrest := ih (fun call' hcall' => h call' (List.mem_cons_of_mem _ hcall')) hs'
        refine always_bind.mpr (hrest.mono ?_ fun as s'' ⟨hs'', has⟩ => ?_)
        · rintro _ _ s'' ⟨n, hn, hs''⟩
          exact ⟨n + 1, by simpa using hn, hs''⟩
        · exact always_done (hstable _) hs'' fun _ ht => ⟨ht, hreturns, has⟩

variable [DecidableEq κ]

/-- Contexts that make their calls at the same time, each in its own part: at every moment
the part of `c` shows what the first so many calls of `c` make of it, all of them when `c` is
done, and its calls return what they return alone. -/
theorem shared_calls {calls : κ → List γ} {programs : κ → Program ρ ν (List α)}
    {labels : List (Option κ)} (happart : Apart D V) (hstable : ∀ b, Stable D (shows b))
    (hconfined : ∀ c, ∀ call ∈ calls c, Confined V c R (program call))
    (hreturns : ∀ b call a a', R a a' → returns b call a' → returns b call a)
    (hperforms : ∀ call, Performs D shows next returns call (program call)) (hs : shows b s)
    (h : Run (Interleaves D) ((fun c => (calls c).mapM' program), s) labels (programs, s'))
    (c : κ) :
    ∃ t, V.same c s' t ∧
      (∃ n ≤ (calls c).length, shows (((calls c).take n).foldl next b) t) ∧
      ∀ as, programs c = .done as →
        shows ((calls c).foldl next b) t ∧ Returned next returns b (calls c) as := by
  obtain ⟨events, q, t, hrun, halike, hsame⟩ :=
    run_project happart (fun c => confined_mapM (hconfined c)) h c
  have halways := always_mapM hstable (fun call (_ : call ∈ calls c) => hperforms call) hs
  refine ⟨t, hsame, ?_, fun as has => ?_⟩
  · exact halways.along (J := fun t => ∃ n ≤ (calls c).length,
      shows (((calls c).take n).foldl next b) t) (fun t t' ⟨n, hn, ht⟩ hmove =>
        ⟨n, hn, hstable _ _ _ ht hmove⟩) ⟨0, Nat.zero_le _, hs⟩ hrun
  · rw [has] at halike
    cases halike with
    | done hresults =>
        obtain ⟨hshows, hreturned⟩ := halways.run hrun t .refl
        exact ⟨hshows, hreturned.of_related hresults hreturns⟩

end Calls

end Stm32f411.SharedDevices
