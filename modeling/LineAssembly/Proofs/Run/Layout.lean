import LineAssembly.Proofs.Run.Reachability
import LineAssembly.Proofs.Source.Layout

/-! Layout and runs. A run looks at columns and source lines for nothing but what it reports and
traces, so that it commutes with erasing them. -/
namespace LineAssembly

/-- A problem without the column and the source line that it points at. -/
def Problem.eraseLayout : Problem → Problem
  | .printWithoutOperand line _ => .printWithoutOperand line.eraseLayout 0
  | .invalidPort port line _ => .invalidPort port line.eraseLayout 0
  | .unknownValue name line _ => .unknownValue name line.eraseLayout 0
  | p => p

def Trace.eraseLayout : Trace → Trace
  | .dispatch line token => .dispatch line token.eraseLayout
  | t => t

theorem Problem.relocate_eraseLayout : Problem.relocate .eraseLayout = Problem.eraseLayout := by
  funext p
  cases p <;> simp only [relocate, Line.relocate_eraseLayout] <;> rfl

theorem Trace.relocate_eraseLayout : Trace.relocate .eraseLayout = Trace.eraseLayout := by
  funext t
  cases t <;> simp only [relocate, Token.relocate_eraseLayout] <;> rfl

namespace Effect

def eraseLayout (e : Effect) : Effect :=
  { e with
    problems := e.problems.map Problem.eraseLayout
    trace := e.trace.map Trace.eraseLayout }

theorem same_of_eraseLayout_eq {e f : Effect} (h : e.eraseLayout = f.eraseLayout) :
    e.output = f.output ∧ e.machine = f.machine ∧ e.fault = f.fault := by
  rw [eraseLayout, eraseLayout, Effect.mk.injEq] at h
  exact ⟨h.2.1, h.1, h.2.2.2.2⟩

theorem rebase_eraseLayout (e : Effect) : e.rebase (.moved .eraseLayout) = e.eraseLayout := by
  have hfault : Fault.relocate .eraseLayout = id := Fault.relocate_of_number rfl
  rw [rebase, Machine.rebase_moved rfl]
  simp only [Setting.moved, hfault, Option.map_id, Problem.relocate_eraseLayout,
    Trace.relocate_eraseLayout]
  rfl

end Effect

namespace Program

theorem runWithin_eraseLayout (p : Program) (limit : Nat) (entry : String) :
    p.eraseLayout.runWithin limit entry = (p.runWithin limit entry).eraseLayout := by
  rw [← relocate_eraseLayout, runWithin_relocate, Effect.rebase_eraseLayout]

theorem eraseLayout_runWithin_eq {p q : Program} (h : p.eraseLayout = q.eraseLayout) (limit : Nat)
    (entry : String) :
    (p.runWithin limit entry).eraseLayout = (q.runWithin limit entry).eraseLayout := by
  rw [← runWithin_eraseLayout, h, runWithin_eraseLayout]

/-- A text and its tidy form both hold a numeral that is too long, or they give programs that differ
in layout only, and these do the same from every entry under every limit. -/
theorem run_tidy (text : String) (tilde : Bool) :
    (∃ excess, (read text tilde).result = .error excess ∧
      (read (Text.tidy text tilde) tilde).result = .error excess) ∨
    ∃ p q, (read text tilde).result = .ok p ∧
      (read (Text.tidy text tilde) tilde).result = .ok q ∧
      p.eraseLayout = q.eraseLayout ∧
      ∀ limit entry,
        (p.runWithin limit entry).output = (q.runWithin limit entry).output ∧
        (p.runWithin limit entry).machine = (q.runWithin limit entry).machine ∧
        (p.runWithin limit entry).fault = (q.runWithin limit entry).fault := by
  have hresult : (read text tilde).result.map eraseLayout =
      (read (Text.tidy text tilde) tilde).result.map eraseLayout :=
    congrArg (fun r : Reading => r.result) (eraseLayout_read_tidy text tilde).symm
  obtain hexcess | ⟨p, q, hp, hq, hpq⟩ := error_or_ok_of_map_eq hresult
  · exact .inl hexcess
  · refine .inr ⟨p, q, hp, hq, hpq, fun limit entry => ?_⟩
    exact Effect.same_of_eraseLayout_eq (eraseLayout_runWithin_eq hpq limit entry)

end Program
end LineAssembly
