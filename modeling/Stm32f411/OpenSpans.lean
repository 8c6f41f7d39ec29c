import Mathlib.Data.List.Basic

/-!
Spans of a history. Some events open a span under a label and some close it; the open
span is the part of the history since it was opened.
-/

namespace Stm32f411.OpenSpans

/-- What an event means for the span under way. -/
inductive Mark (α : Type*)
  | opens (label : α)
  | closes
  | inside

variable {ε α : Type*}

def advance (mark : ε → Mark α) (span : Option (α × List ε)) (event : ε) :
    Option (α × List ε) :=
  match mark event with
  | .opens label => some (label, [])
  | .closes => none
  | .inside => span.map fun s => (s.1, s.2 ++ [event])

/-- The span open at the end of a history: its label and the events since. -/
def openSpan (mark : ε → Mark α) (log : List ε) : Option (α × List ε) :=
  log.foldl (advance mark) none

variable {mark : ε → Mark α} {log more body : List ε} {event : ε} {label : α}

theorem openSpan_snoc :
    openSpan mark (log ++ [event]) = advance mark (openSpan mark log) event := by
  rw [openSpan, openSpan, List.foldl_append]
  rfl

theorem openSpan_opens (h : mark event = .opens label) :
    openSpan mark (log ++ [event]) = some (label, []) := by
  rw [openSpan_snoc, advance, h]

/-- Events inside the span only make it longer. -/
theorem openSpan_inside (hspan : openSpan mark log = some (label, body))
    (h : ∀ event ∈ more, mark event = .inside) :
    openSpan mark (log ++ more) = some (label, body ++ more) := by
  induction more generalizing log body with
  | nil => simpa using hspan
  | cons event more ih =>
      have hevent : openSpan mark (log ++ [event]) = some (label, body ++ [event]) := by
        rw [openSpan_snoc, advance, h event (by simp), hspan]
        rfl
      have hmore := ih hevent fun e he => h e (by simp [he])
      simpa using hmore

end Stm32f411.OpenSpans
