import Mathlib.Data.List.ReduceOption
import Mathlib.Logic.Relation
import Stm32f411.LabelledRuns

/-!
Straight-line and bounded-loop programs over memory-mapped registers. A program is the
tree of its reads and stores; what a read returns is up to the device. Its traces are one
meaning of it, its runs against a device that may move on its own between two accesses are
the other.
-/

namespace Stm32f411.RegisterPrograms

open Stm32f411.LabelledRuns
open Relation

/-- The operators `=`, `|=` and `&= ~`. -/
inductive Assignment
  | assign | set | clear
  deriving DecidableEq

inductive Access (ρ ν : Type)
  | read (r : ρ) (v : ν)
  | store (how : Assignment) (r : ρ) (v : ν)
  deriving DecidableEq

inductive Program (ρ ν α : Type)
  | done (a : α)
  | read (r : ρ) (next : ν → Program ρ ν α)
  | store (how : Assignment) (r : ρ) (v : ν) (next : Program ρ ν α)

variable {ρ ν α β : Type}

namespace Program

def bind : Program ρ ν α → (α → Program ρ ν β) → Program ρ ν β
  | .done a, f => f a
  | .read r next, f => .read r fun v => (next v).bind f
  | .store how r v next, f => .store how r v (next.bind f)

instance : Monad (Program ρ ν) where
  pure := .done
  bind := bind

@[simp] theorem pure_eq (a : α) : (pure a : Program ρ ν α) = .done a := rfl

@[simp] theorem bind_done (a : α) (f : α → Program ρ ν β) :
    (Program.done a >>= f) = f a := rfl

@[simp] theorem bind_read (r : ρ) (next : ν → Program ρ ν α) (f : α → Program ρ ν β) :
    (Program.read r next >>= f) = .read r fun v => next v >>= f := rfl

@[simp] theorem bind_store (how : Assignment) (r : ρ) (v : ν) (next : Program ρ ν α)
    (f : α → Program ρ ν β) :
    (Program.store how r v next >>= f) = .store how r v (next >>= f) := rfl

end Program

def readReg (r : ρ) : Program ρ ν ν := .read r .done

def assignReg (r : ρ) (v : ν) : Program ρ ν Unit := .store .assign r v (.done ())

def setBits (r : ρ) (mask : ν) : Program ρ ν Unit := .store .set r mask (.done ())

def clearBits (r : ρ) (mask : ν) : Program ρ ν Unit := .store .clear r mask (.done ())

section Traces

/-- The program ends with `a` after the accesses of `trace`. -/
inductive Ends : Program ρ ν α → List (Access ρ ν) → α → Prop
  | done {a : α} : Ends (.done a) [] a
  | read {r : ρ} {next : ν → Program ρ ν α} {v : ν} {trace : List (Access ρ ν)} {a : α} :
      Ends (next v) trace a → Ends (.read r next) (.read r v :: trace) a
  | store {how : Assignment} {r : ρ} {v : ν} {next : Program ρ ν α}
      {trace : List (Access ρ ν)} {a : α} :
      Ends next trace a → Ends (.store how r v next) (.store how r v :: trace) a

variable {p : Program ρ ν α} {f : α → Program ρ ν β} {trace : List (Access ρ ν)} {a : α} {b : β}

@[simp] theorem ends_done {a' : α} : Ends (.done a : Program ρ ν α) trace a' ↔
    trace = [] ∧ a' = a := by
  constructor
  · rintro ⟨⟩
    exact ⟨rfl, rfl⟩
  · rintro ⟨rfl, rfl⟩
    exact .done

theorem ends_read {r : ρ} {next : ν → Program ρ ν α} : Ends (.read r next) trace a ↔
    ∃ v rest, trace = .read r v :: rest ∧ Ends (next v) rest a := by
  constructor
  · rintro ⟨⟩
    exact ⟨_, _, rfl, ‹_›⟩
  · rintro ⟨v, rest, rfl, h⟩
    exact .read h

theorem ends_store {how : Assignment} {r : ρ} {v : ν} {next : Program ρ ν α} :
    Ends (.store how r v next) trace a ↔
      ∃ rest, trace = .store how r v :: rest ∧ Ends next rest a := by
  constructor
  · rintro ⟨⟩
    exact ⟨_, rfl, ‹_›⟩
  · rintro ⟨rest, rfl, h⟩
    exact .store h

/-- A sequence of two programs ends in two stages. -/
theorem ends_bind : Ends (p >>= f) trace b ↔
    ∃ before a after, trace = before ++ after ∧ Ends p before a ∧ Ends (f a) after b := by
  induction p generalizing trace with
  | done a =>
      rw [Program.bind_done]
      simp [ends_done]
  | read r next ih =>
      simp only [Program.bind_read, ends_read, ih]
      constructor
      · rintro ⟨v, rest, rfl, before, a, after, rfl, hp, hf⟩
        exact ⟨.read r v :: before, a, after, rfl, ⟨v, before, rfl, hp⟩, hf⟩
      · rintro ⟨_, a, after, rfl, ⟨v, before, rfl, hp⟩, hf⟩
        exact ⟨v, before ++ after, rfl, before, a, after, rfl, hp, hf⟩
  | store how r v next ih =>
      simp only [Program.bind_store, ends_store, ih]
      constructor
      · rintro ⟨rest, rfl, before, a, after, rfl, hp, hf⟩
        exact ⟨.store how r v :: before, a, after, rfl, ⟨before, rfl, hp⟩, hf⟩
      · rintro ⟨_, a, after, rfl, ⟨before, rfl, hp⟩, hf⟩
        exact ⟨before ++ after, rfl, before, a, after, rfl, hp, hf⟩

theorem ends_readReg_bind {r : ρ} {f : ν → Program ρ ν β} :
    Ends (readReg r >>= f) trace b ↔
      ∃ v rest, trace = .read r v :: rest ∧ Ends (f v) rest b :=
  ends_read

theorem ends_assignReg_bind {r : ρ} {v : ν} {f : Unit → Program ρ ν β} :
    Ends (assignReg r v >>= f) trace b ↔
      ∃ rest, trace = .store .assign r v :: rest ∧ Ends (f ()) rest b :=
  ends_store

theorem ends_setBits_bind {r : ρ} {v : ν} {f : Unit → Program ρ ν β} :
    Ends (setBits r v >>= f) trace b ↔
      ∃ rest, trace = .store .set r v :: rest ∧ Ends (f ()) rest b :=
  ends_store

theorem ends_clearBits_bind {r : ρ} {v : ν} {f : Unit → Program ρ ν β} :
    Ends (clearBits r v >>= f) trace b ↔
      ∃ rest, trace = .store .clear r v :: rest ∧ Ends (f ()) rest b :=
  ends_store

/-- Whatever the reads return, all accesses of the program satisfy `P`. -/
def Only (P : Access ρ ν → Prop) : Program ρ ν α → Prop
  | .done _ => True
  | .read r next => ∀ v, P (.read r v) ∧ Only P (next v)
  | .store how r v next => P (.store how r v) ∧ Only P next

theorem only_bind {P : Access ρ ν → Prop} (hp : Only P p) (hf : ∀ a, Only P (f a)) :
    Only P (p >>= f) := by
  induction p with
  | done a => exact hf a
  | read r next ih => exact fun v => ⟨(hp v).1, ih v (hp v).2⟩
  | store how r v next ih => exact ⟨hp.1, ih hp.2⟩

theorem only_ite {P : Access ρ ν → Prop} {c : Prop} [Decidable c] {q : Program ρ ν α}
    (hp : c → Only P p) (hq : ¬c → Only P q) : Only P (if c then p else q) := by
  split
  · next h => exact hp h
  · next h => exact hq h

theorem Only.mono {P Q : Access ρ ν → Prop} (h : Only P p)
    (hPQ : ∀ access, P access → Q access) : Only Q p := by
  induction p with
  | done a => trivial
  | read r next ih => exact fun v => ⟨hPQ _ (h v).1, ih v (h v).2⟩
  | store how r v next ih => exact ⟨hPQ _ h.1, ih h.2⟩

theorem Only.ends {P : Access ρ ν → Prop} (hp : Only P p) (h : Ends p trace a) :
    ∀ access ∈ trace, P access := by
  induction h with
  | done => simp
  | read _ ih =>
      intro access haccess
      rcases List.mem_cons.mp haccess with rfl | htail
      · exact (hp _).1
      · exact ih (hp _).2 access htail
  | store _ ih =>
      intro access haccess
      rcases List.mem_cons.mp haccess with rfl | htail
      · exact hp.1
      · exact ih hp.2 access htail

/-- Whatever the reads return, the program ends. -/
theorem exists_ends [Inhabited ν] (p : Program ρ ν α) : ∃ trace a, Ends p trace a := by
  induction p with
  | done a => exact ⟨[], a, .done⟩
  | read r next ih =>
      obtain ⟨trace, a, h⟩ := ih default
      exact ⟨_, a, .read h⟩
  | store how r v next ih =>
      obtain ⟨trace, a, h⟩ := ih
      exact ⟨_, a, .store h⟩

end Traces

/-- A device: the moves it makes on its own, and what an access does to it. The value a
read returns is part of the access. -/
structure Device (ρ ν σ : Type) where
  hardware : σ → σ → Prop
  effect : σ → Access ρ ν → σ → Prop

section Devices

variable {σ : Type}

/-- One move of a program and its device: an access, or (`none`) one of the hardware. -/
inductive Moves (D : Device ρ ν σ) :
    Program ρ ν α × σ → Option (Access ρ ν) → Program ρ ν α × σ → Prop
  | hardware {p : Program ρ ν α} {s s' : σ} :
      D.hardware s s' → Moves D (p, s) none (p, s')
  | read {r : ρ} {next : ν → Program ρ ν α} {v : ν} {s s' : σ} :
      D.effect s (.read r v) s' →
      Moves D (.read r next, s) (some (.read r v)) (next v, s')
  | store {how : Assignment} {r : ρ} {v : ν} {next : Program ρ ν α} {s s' : σ} :
      D.effect s (.store how r v) s' →
      Moves D (.store how r v next, s) (some (.store how r v)) (next, s')

/-- Every access satisfies `G` and every end satisfies `Q`, whatever the device does. -/
def Always (D : Device ρ ν σ) (G : σ → Access ρ ν → σ → Prop) (Q : α → σ → Prop) :
    Program ρ ν α → σ → Prop
  | .done a, s => ∀ s', ReflTransGen D.hardware s s' → Q a s'
  | .read r next, s => ∀ s', ReflTransGen D.hardware s s' → ∀ v s'',
      D.effect s' (.read r v) s'' →
        G s' (.read r v) s'' ∧ Always D G Q (next v) s''
  | .store how r v next, s => ∀ s', ReflTransGen D.hardware s s' → ∀ s'',
      D.effect s' (.store how r v) s'' →
        G s' (.store how r v) s'' ∧ Always D G Q next s''

variable {D : Device ρ ν σ} {G : σ → Access ρ ν → σ → Prop} {Q : α → σ → Prop}
  {p p' : Program ρ ν α} {s s' : σ}

theorem Always.hardware (h : Always D G Q p s) (hmove : ReflTransGen D.hardware s s') :
    Always D G Q p s' := by
  cases p with
  | done a => exact fun s'' hs'' => h s'' (hmove.trans hs'')
  | read r next => exact fun s'' hs'' => h s'' (hmove.trans hs'')
  | store how r v next => exact fun s'' hs'' => h s'' (hmove.trans hs'')

theorem Always.move {event : Option (Access ρ ν)} (h : Always D G Q p s)
    (hmove : Moves D (p, s) event (p', s')) :
    Always D G Q p' s' ∧ ∀ access, event = some access → G s access s' := by
  cases hmove with
  | hardware hmove => exact ⟨h.hardware (.single hmove), by simp⟩
  | read heffect =>
      obtain ⟨hg, hnext⟩ := h s .refl _ _ heffect
      exact ⟨hnext, by simpa using hg⟩
  | store heffect =>
      obtain ⟨hg, hnext⟩ := h s .refl _ heffect
      exact ⟨hnext, by simpa using hg⟩

theorem Always.run {events : List (Option (Access ρ ν))} (h : Always D G Q p s)
    (hrun : Run (Moves D) (p, s) events (p', s')) : Always D G Q p' s' := by
  generalize hfrom : (p, s) = c at hrun
  generalize hto : (p', s') = c' at hrun
  induction hrun generalizing p' s' with
  | nil =>
      obtain ⟨rfl, rfl⟩ := Prod.mk.inj (hto.trans hfrom.symm)
      exact h
  | @snoc _ middle _ _ _ hlast ih =>
      subst hto
      exact ((ih rfl).move hlast).1

theorem run_hardware (p : Program ρ ν α) (h : ReflTransGen D.hardware s s') :
    ∃ events, Run (Moves D) (p, s) events (p, s') := by
  induction h with
  | refl => exact ⟨[], .nil⟩
  | tail _ hlast ih =>
      obtain ⟨events, hrun⟩ := ih
      exact ⟨_, hrun.snoc (.hardware hlast)⟩

/-- A program can end where every access has an effect. -/
theorem exists_run_done (hread : ∀ s r, ∃ v s', D.effect s (.read r v) s')
    (hstore : ∀ s how r v, ∃ s', D.effect s (.store how r v) s') (p : Program ρ ν α) (s : σ) :
    ∃ events a s', Run (Moves D) (p, s) events (.done a, s') := by
  induction p generalizing s with
  | done a => exact ⟨_, a, s, .nil⟩
  | read r next ih =>
      obtain ⟨v, t, heffect⟩ := hread s r
      obtain ⟨events, a, s', hrun⟩ := ih v t
      exact ⟨_, a, s', .cons (.read heffect) hrun⟩
  | store how r v next ih =>
      obtain ⟨t, heffect⟩ := hstore s how r v
      obtain ⟨events, a, s', hrun⟩ := ih t
      exact ⟨_, a, s', .cons (.store heffect) hrun⟩

/-- `Always` says exactly what holds along every run. -/
theorem always_iff_runs : Always D G Q p s ↔
    ∀ events p' s', Run (Moves D) (p, s) events (p', s') →
      (∀ access p'' s'', Moves D (p', s') (some access) (p'', s'') → G s' access s'') ∧
        ∀ a, p' = .done a → Q a s' := by
  constructor
  · intro h events p' s' hrun
    have halways := h.run hrun
    refine ⟨fun access p'' s'' hmove => (halways.move hmove).2 access rfl, ?_⟩
    rintro a rfl
    exact halways s' .refl
  · intro h
    induction p generalizing s with
    | done a =>
        intro s' hmove
        obtain ⟨events, hrun⟩ := run_hardware (.done a) hmove
        exact (h events _ s' hrun).2 a rfl
    | read r next ih =>
        intro s' hmove v s'' heffect
        obtain ⟨events, hrun⟩ := run_hardware (.read r next) hmove
        refine ⟨(h events _ s' hrun).1 _ _ _ (.read heffect), ih v fun later p' t ht => ?_⟩
        exact h _ p' t (hrun.append (.cons (.read heffect) ht))
    | store how r v next ih =>
        intro s' hmove s'' heffect
        obtain ⟨events, hrun⟩ := run_hardware (.store how r v next) hmove
        refine ⟨(h events _ s' hrun).1 _ _ _ (.store heffect), ih fun later p' t ht => ?_⟩
        exact h _ p' t (hrun.append (.cons (.store heffect) ht))

theorem Always.mono {G' : σ → Access ρ ν → σ → Prop} {Q' : α → σ → Prop}
    (h : Always D G Q p s) (hG : ∀ s access s', G s access s' → G' s access s')
    (hQ : ∀ a s, Q a s → Q' a s) : Always D G' Q' p s := by
  induction p generalizing s with
  | done a => exact fun s' hs' => hQ a s' (h s' hs')
  | read r next ih =>
      intro s' hs' v s'' heffect
      obtain ⟨hg, hnext⟩ := h s' hs' v s'' heffect
      exact ⟨hG _ _ _ hg, ih v hnext⟩
  | store how r v next ih =>
      intro s' hs' s'' heffect
      obtain ⟨hg, hnext⟩ := h s' hs' s'' heffect
      exact ⟨hG _ _ _ hg, ih hnext⟩

/-- A sequence of two programs is proved in two stages. -/
theorem always_bind {f : α → Program ρ ν β} {Q : β → σ → Prop} :
    Always D G Q (p >>= f) s ↔ Always D G (fun a s => Always D G Q (f a) s) p s := by
  induction p generalizing s with
  | done a =>
      rw [Program.bind_done]
      exact ⟨fun h s' hs' => h.hardware hs', fun h => h s .refl⟩
  | read r next ih =>
      refine forall₂_congr fun s' _ => forall₃_congr fun v s'' _ => and_congr_right fun _ => ?_
      exact ih v
  | store how r v next ih =>
      exact forall₂_congr fun s' _ => forall₂_congr fun s'' _ => and_congr_right fun _ => ih

/-- An assertion that the hardware does not break. -/
def Stable (D : Device ρ ν σ) (A : σ → Prop) : Prop :=
  ∀ s s', A s → D.hardware s s' → A s'

theorem Stable.reach {A : σ → Prop} (h : Stable D A) (hs : A s)
    (hmove : ReflTransGen D.hardware s s') : A s' := by
  induction hmove with
  | refl => exact hs
  | tail _ hlast ih => exact h _ _ ih hlast

/-- What every access brings about and the hardware does not break holds all along. -/
theorem Always.along {J : σ → Prop} {events : List (Option (Access ρ ν))}
    (h : Always D (fun _ _ s' => J s') Q p s) (hstable : Stable D J) (hs : J s)
    (hrun : Run (Moves D) (p, s) events (p', s')) : J s' := by
  generalize hto : (p', s') = state at hrun
  induction hrun generalizing p' s' with
  | nil =>
      obtain ⟨rfl, rfl⟩ := Prod.mk.inj hto
      exact hs
  | @snoc _ middle _ event hrest hlast ih =>
      subst hto
      obtain ⟨q, t⟩ := middle
      have hmiddle : J t := ih rfl
      cases event with
      | none =>
          cases hlast with
          | hardware hmove => exact hstable _ _ hmiddle hmove
      | some access => exact ((h.run hrest).move hlast).2 access rfl

theorem always_done {A : σ → Prop} {a : α} (hstable : Stable D A) (hs : A s)
    (hQ : ∀ s, A s → Q a s) : Always D G Q (.done a) s :=
  fun _ hmove => hQ _ (hstable.reach hs hmove)

theorem always_read {A : σ → Prop} {r : ρ} {next : ν → Program ρ ν α} (hstable : Stable D A)
    (hs : A s) (h : ∀ s v s', A s → D.effect s (.read r v) s' →
      G s (.read r v) s' ∧ Always D G Q (next v) s') : Always D G Q (.read r next) s :=
  fun _ hmove _ _ heffect => h _ _ _ (hstable.reach hs hmove) heffect

theorem always_store {A : σ → Prop} {how : Assignment} {r : ρ} {v : ν}
    {next : Program ρ ν α} (hstable : Stable D A) (hs : A s)
    (h : ∀ s s', A s → D.effect s (.store how r v) s' →
      G s (.store how r v) s' ∧ Always D G Q next s') :
    Always D G Q (.store how r v next) s :=
  fun _ hmove _ heffect => h _ _ (hstable.reach hs hmove) heffect

theorem always_readReg_bind {A : σ → Prop} {r : ρ} {f : ν → Program ρ ν β}
    {Q : β → σ → Prop} (hstable : Stable D A) (hs : A s)
    (h : ∀ s v s', A s → D.effect s (.read r v) s' →
      G s (.read r v) s' ∧ Always D G Q (f v) s') : Always D G Q (readReg r >>= f) s :=
  always_read hstable hs h

/-- The rule of `assignReg`, `setBits` and `clearBits`. -/
theorem always_store_bind {A : σ → Prop} {how : Assignment} {r : ρ} {v : ν}
    {f : Unit → Program ρ ν β} {Q : β → σ → Prop} (hstable : Stable D A) (hs : A s)
    (h : ∀ s s', A s → D.effect s (.store how r v) s' →
      G s (.store how r v) s' ∧ Always D G Q (f ()) s') :
    Always D G Q (Program.store how r v (.done ()) >>= f) s :=
  always_store hstable hs h

/-- Accesses that keep an invariant make a program that keeps it. -/
theorem Only.always {P : Access ρ ν → Prop} {A : σ → Prop} (hp : Only P p) (hstable : Stable D A)
    (hstep : ∀ s access s', P access → A s → D.effect s access s' → G s access s' ∧ A s')
    (hs : A s) : Always D G (fun _ s => A s) p s := by
  induction p generalizing s with
  | done a => exact always_done hstable hs fun _ hs => hs
  | read r next ih =>
      refine always_read hstable hs fun s v s' hs heffect => ?_
      obtain ⟨hG, hs'⟩ := hstep s _ s' (hp v).1 hs heffect
      exact ⟨hG, ih v (hp v).2 hs'⟩
  | store how r v next ih =>
      refine always_store hstable hs fun s s' hs heffect => ?_
      obtain ⟨hG, hs'⟩ := hstep s _ s' hp.1 hs heffect
      exact ⟨hG, ih hp.2 hs'⟩

theorem Always.after_read {r : ρ} {v : ν} {f : ν → Program ρ ν β} {Q : β → σ → Prop}
    (h : Always D G Q (readReg r >>= f) s) (heffect : D.effect s (.read r v) s') :
    Always D G Q (f v) s' :=
  (h s .refl v s' heffect).2

theorem Always.after_assign {r : ρ} {v : ν} {f : Unit → Program ρ ν β} {Q : β → σ → Prop}
    (h : Always D G Q (assignReg r v >>= f) s) (heffect : D.effect s (.store .assign r v) s') :
    Always D G Q (f ()) s' :=
  (h s .refl s' heffect).2

/-- The accesses of a run, without the moves of the hardware. -/
def accesses (events : List (Option (Access ρ ν))) : List (Access ρ ν) :=
  events.reduceOption

theorem accesses_append (before later : List (Option (Access ρ ν))) :
    accesses (before ++ later) = accesses before ++ accesses later :=
  List.reduceOption_append before later

/-- What the program does after a run continues the accesses of the run. -/
theorem ends_of_run {c c' : Program ρ ν α × σ} {events : List (Option (Access ρ ν))}
    {trace : List (Access ρ ν)} {a : α} (hrun : Run (Moves D) c events c')
    (h : Ends c'.1 trace a) : Ends c.1 (accesses events ++ trace) a := by
  induction hrun generalizing trace with
  | nil => exact h
  | snoc _ hlast ih =>
      rw [accesses_append, List.append_assoc]
      apply ih
      cases hlast with
      | hardware _ => exact h
      | read _ => exact .read h
      | store _ => exact .store h

/-- A run that ends the program shows one of its traces. -/
theorem run_ends {events : List (Option (Access ρ ν))} {a : α}
    (hrun : Run (Moves D) (p, s) events (.done a, s')) : Ends p (accesses events) a := by
  simpa using ends_of_run hrun .done

end Devices

end Stm32f411.RegisterPrograms
