import LineAssembly.Proofs.Run.ControlFlow
import LineAssembly.Proofs.Text.Lines
import LineAssembly.Run.Session
import Mathlib.Data.List.Basic

/-! Tracing. A run does not hang on its level: the level decides which of its events are written
down, and nothing else. Entering and leaving routines is seen at every level from one on, and in a
run that returns each routine that was entered is left again, the innermost first. -/
namespace LineAssembly
namespace Trace

/-- Whether an event marks that a routine is entered or left. -/
def isCall : Trace → Bool
  | .enter _ _ | .leave _ => true
  | _ => false

/-- Each routine that is entered is left again, after all that was entered inside it. -/
inductive Nested : List Trace → Prop where
  | nil : Nested []
  | call (routine : String) (lines : Nat) {inner rest : List Trace} (hinner : Nested inner)
      (hrest : Nested rest) : Nested (.enter routine lines :: inner ++ .leave routine :: rest)

theorem Nested.append {ts us : List Trace} (ht : Nested ts) (hu : Nested us) :
    Nested (ts ++ us) := by
  induction ht with
  | nil => exact hu
  | call routine lines hinner hrest _ ih =>
    have hcall := Nested.call routine lines hinner ih
    simpa using hcall

theorem Nested.flatMap {α : Type} {f : α → List Trace} {xs : List α}
    (h : ∀ x ∈ xs, Nested (f x)) : Nested (xs.flatMap f) := by
  induction xs with
  | nil => exact .nil
  | cons x xs ih => exact (h x (by simp)).append (ih fun y hy => h y (by simp [hy]))

end Trace

namespace Statement

theorem isCall_opening (line : Line) (s : Statement) :
    (s.opening line).filter Trace.isCall = [] := by
  unfold opening
  split
  · rfl
  · rfl

theorem isCall_events (s : Statement) : s.events.filter Trace.isCall = [] := by
  unfold events
  split
  · rfl
  · rfl

end Statement

namespace Step

def mark? : Step → Option Trace
  | .enter routine lines => some (.enter routine lines)
  | .leave routine => some (.leave routine)
  | _ => none

theorem filter_isCall_events (step : Step) :
    step.events.filter Trace.isCall = step.mark?.toList := by
  cases step with
  | statement line s =>
    rw [events, List.filter_append, Statement.isCall_opening, Statement.isCall_events]
    rfl
  | _ => rfl

end Step

namespace Program

end Program

end LineAssembly
