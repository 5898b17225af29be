import LineAssembly.Proofs.Run.Watching

/-! Control flow does not hang on data. Whatever machine a routine is run on, the run goes through
the steps of its script in order; a fault may end it earlier, and nothing else can. -/
namespace LineAssembly
namespace Step

/-- The events of a step. The machine has no say in them. -/
def events : Step → List Trace
  | .enter routine lines => [.enter routine lines]
  | .statement line s => s.opening line ++ s.events
  | .leave routine => [.leave routine]
  | .unknown _ | .tooDeep _ => []

theorem trace_run (step : Step) (m : Machine) : (step.run m).trace = step.events := by
  cases step with
  | statement line s =>
    rw [run, Statement.runAlone, Statement.run, Effect.trace_traced,
      (Statement.outcome_act line s m).binds.2, events]
  | _ => rfl

/-- Performing steps leaves the events of those that a fault does not cut off. -/
theorem trace_perform (steps : List Step) (m : Machine) :
    (perform steps m).trace <+: steps.flatMap events ∧
      ((perform steps m).fault = none → (perform steps m).trace = steps.flatMap events) := by
  induction steps generalizing m with
  | nil => exact ⟨List.prefix_rfl, fun _ => rfl⟩
  | cons step steps ih =>
    obtain ⟨hbegins, hequal⟩ := ih (step.run m).machine
    rw [perform, Effect.sequence, List.flatMap_cons, ← trace_run step m]
    cases hfault : (step.run m).fault with
    | some x =>
      rw [Effect.andThen_of_fault hfault]
      refine ⟨List.prefix_append _ _, fun hreturns => ?_⟩
      rw [hfault] at hreturns
      cases hreturns
    | none =>
      rw [Effect.andThen_of_fault_eq_none hfault]
      exact ⟨(List.prefix_append_right_inj _).mpr hbegins,
        fun hreturns => congrArg ((step.run m).trace ++ ·) (hequal hreturns)⟩

end Step

def Effect.traceMessages (e : Effect) : List String := e.trace.map Trace.text

namespace Program

/-- The messages of all steps of a routine, as far as a level shows them. -/
def scriptMessages (p : Program) (level depth : Nat) (name : String) : List String :=
  (Trace.upTo level ((p.script depth name).flatMap Step.events)).map Trace.text

theorem traceMessages_runRoutineAt (p : Program) (level depth : Nat) (name : String)
    (m : Machine) :
    let e := p.runRoutineAt level depth name m
    e.traceMessages <+: p.scriptMessages level depth name ∧
      (e.fault = none → e.traceMessages = p.scriptMessages level depth name) := by
  intro e
  have he : e = (Step.perform (p.script depth name) m).watched level := by
    rw [← runRoutine_eq_perform]
    exact p.runRoutineAt_eq_watched level depth name m
  obtain ⟨hbegins, hequal⟩ := Step.trace_perform (p.script depth name) m
  rw [he]
  refine ⟨(hbegins.filter _).map _, fun hreturns => ?_⟩
  rw [scriptMessages, ← hequal hreturns]
  rfl

/-- Of the messages that two runs of a routine emit, those of one begin with those of the other, and
two runs that return emit the same. Both emit messages of the steps of the routine in their order,
all of them unless a fault ends the run: none is skipped, repeated or moved. What a handler leaves
of its line is the same on every machine and whatever the called routines do. -/
theorem traceMessages_comparable (p : Program) (depth : Nat) (name : String) (level : Nat)
    (m n : Machine) :
    let e := p.runRoutineAt level depth name m
    let f := p.runRoutineAt level depth name n
    (e.traceMessages <+: f.traceMessages ∨ f.traceMessages <+: e.traceMessages) ∧
    (e.fault = none → f.traceMessages <+: e.traceMessages) ∧
    (e.fault = none → f.fault = none → e.traceMessages = f.traceMessages) ∧
    e.traceMessages <+: p.scriptMessages level depth name ∧
    (e.fault = none → e.traceMessages = p.scriptMessages level depth name) ∧
    ∀ (call call' : Statement.Caller) (line : Line) (head : Token) (tokens : List Token),
      (Statement.dispatch level call line head tokens m).rest =
        (Statement.dispatch level call' line head tokens n).rest := by
  intro e f
  obtain ⟨he, heq⟩ := p.traceMessages_runRoutineAt level depth name m
  obtain ⟨hf, hfeq⟩ := p.traceMessages_runRoutineAt level depth name n
  refine ⟨List.prefix_or_prefix_of_prefix he hf, ?_, ?_, he, heq, ?_⟩
  · intro hreturns
    rw [heq hreturns]
    exact hf
  · intro hreturns hreturns'
    rw [heq hreturns, hfeq hreturns']
  · intro call call' line head tokens
    rw [Statement.rest_dispatch, Statement.rest_dispatch]

end Program
end LineAssembly
