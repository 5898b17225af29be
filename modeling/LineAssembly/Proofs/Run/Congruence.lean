import LineAssembly.Proofs.Run.Statement

/-! Two runs side by side. A relation between effects that sequencing respects holds of whole runs
as soon as it holds of the single statements. -/
namespace LineAssembly
namespace Effect

@[simp] theorem trace_traced (ts : List Trace) (e : Effect) :
    (e.traced ts).trace = ts ++ e.trace := rfl

theorem andThen_of_fault_eq_none {e : Effect} (h : e.fault = Option.none)
    (next : Machine → Effect) :
    e.andThen next =
      { machine := (next e.machine).machine
        output := e.output ++ (next e.machine).output
        problems := e.problems ++ (next e.machine).problems
        trace := e.trace ++ (next e.machine).trace
        fault := (next e.machine).fault } := by
  simp [andThen, h]

/-- A relation between effects that sequencing respects, where what follows starts from machines
related by `R`. -/
structure Congruence (R : Machine → Machine → Prop) (E : Effect → Effect → Prop) : Prop where
  none : ∀ {m n}, R m n → E (.none m) (.none n)
  traced : ∀ (ts : List Trace) {e f}, E e f → E (e.traced ts) (f.traced ts)
  andThen : ∀ {e f next next'}, E e f → (∀ {m n}, R m n → E (next m) (next' n)) →
    E (e.andThen next) (f.andThen next')

end Effect

namespace Statement

def Caller.Respects (call : Caller) (R : Machine → Machine → Prop) (E : Effect → Effect → Prop) :
    Prop :=
  ∀ name {m n}, R m n → E (call name m) (call name n)

end Statement

variable {R : Machine → Machine → Prop} {E : Effect → Effect → Prop} {call : Statement.Caller}

namespace Effect.Congruence

theorem runStatements (hE : Congruence R E) {line : Line} {ss : List Statement}
    (hact : ∀ s ∈ ss, ∀ {m n}, R m n → E (s.act call line m) (s.act call line n)) {m n : Machine}
    (h : R m n) : E (runStatements call line ss m) (runStatements call line ss n) := by
  induction ss generalizing m n with
  | nil => exact hE.none h
  | cons s ss ih =>
    have hs : E (s.run call line m) (s.run call line n) := hE.traced _ (hact s (by simp) h)
    exact hE.andThen hs fun hmn => ih (fun x hx => hact x (by simp [hx])) hmn

theorem runLines (hE : Congruence R E) {ls : List Line}
    (hact : ∀ l ∈ ls, ∀ s ∈ Statement.split l.tokens, ∀ {m n}, R m n →
      E (s.act call l m) (s.act call l n)) {m n : Machine} (h : R m n) :
    E (runLines Trace.top call ls m) (runLines Trace.top call ls n) := by
  induction ls generalizing m n with
  | nil => exact hE.none h
  | cons l ls ih =>
    have hl : E (runTokens Trace.top call l l.tokens m) (runTokens Trace.top call l l.tokens n) := by
      rw [runTokens_eq_runStatements, runTokens_eq_runStatements]
      exact hE.runStatements (hact l (by simp)) h
    exact hE.andThen hl fun hmn => ih (fun x hx => hact x (by simp [hx])) hmn

/-- A relation holds of the runs of a routine if it holds of the statements of the program, where
calls may be taken to respect it, and of what a run adds to them. -/
theorem runRoutine (hE : Congruence R E) (p : Program)
    (hunknown : ∀ name {m n}, R m n →
      E (.report m (.unknownRoutine name)) (.report n (.unknownRoutine name)))
    (hnesting : ∀ {m n}, R m n → E (.fail m .nesting) (.fail n .nesting))
    (hclear : ∀ {m n}, R m n → R m.clearVariables n.clearVariables)
    (hact : ∀ {call : Statement.Caller}, call.Respects R E → ∀ r ∈ p.routines, ∀ l ∈ r.lines,
      ∀ s ∈ Statement.split l.tokens, ∀ {m n}, R m n → E (s.act call l m) (s.act call l n))
    (depth : Nat) : Statement.Caller.Respects (p.runRoutine depth) R E := by
  induction depth with
  | zero =>
    intro name m n h
    rw [Program.runRoutine_zero, Program.runRoutine_zero]
    cases p.find? name with
    | none => exact hunknown name h
    | some r => exact hnesting h
  | succ depth ih =>
    intro name m n h
    rw [Program.runRoutine_succ, Program.runRoutine_succ]
    cases hr : p.find? name with
    | none => exact hunknown name h
    | some r =>
      have hmem : r ∈ p.routines := List.mem_of_find?_eq_some hr
      have hlines := hE.runLines (hact ih r hmem) h
      exact hE.traced _ (hE.andThen hlines fun hmn => hE.traced _ (hE.none (hclear hmn)))

end Effect.Congruence
end LineAssembly
