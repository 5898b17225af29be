import LineAssembly.Proofs.Run.Reachability
import LineAssembly.Proofs.Run.Tracing
import LineAssembly.Proofs.Source.IdleLines

/-! Idle lines and runs. A line without tokens has no statements. It shows in a run only where the
length of a routine is traced, so that a run commutes with leaving such lines out once these lengths
are forgotten. -/
namespace LineAssembly

def Trace.forgetLength : Trace → Trace
  | .enter routine _ => .enter routine 0
  | t => t

def Step.forgetLength : Step → Step
  | .enter routine _ => .enter routine 0
  | step => step

def Effect.forgetLengths (e : Effect) : Effect := { e with trace := e.trace.map Trace.forgetLength }

theorem Trace.map_forgetLength_of_isCall {ts : List Trace} (h : ts.filter isCall = []) :
    ts.map forgetLength = ts := by
  refine (List.map_congr_left fun t ht => ?_).trans (List.map_id ts)
  have hcall : t.isCall = false := by simpa using List.filter_eq_nil_iff.mp h t ht
  cases t with
  | enter routine lines => cases hcall
  | _ => rfl

namespace Effect

theorem forgetLengths_andThen (e : Effect) (next : Machine → Effect) :
    (e.andThen next).forgetLengths = e.forgetLengths.andThen fun m => (next m).forgetLengths := by
  cases h : e.fault with
  | some f =>
    have hforget : e.forgetLengths.fault = some f := h
    rw [andThen_of_fault h, andThen_of_fault hforget]
  | none =>
    have hforget : e.forgetLengths.fault = Option.none := h
    rw [andThen_of_fault_eq_none h, andThen_of_fault_eq_none hforget]
    simp [forgetLengths]

end Effect

namespace Step

theorem run_forgetLength (step : Step) (m : Machine) :
    step.forgetLength.run m = (step.run m).forgetLengths := by
  cases step with
  | statement line s =>
    have hmarks : ((statement line s).run m).trace.filter Trace.isCall = [] := by
      rw [trace_run, filter_isCall_events]
      rfl
    have htrace := Trace.map_forgetLength_of_isCall hmarks
    simp only [forgetLength, Effect.forgetLengths, htrace]
  | _ => rfl

theorem perform_forgetLength (steps : List Step) (m : Machine) :
    perform (steps.map forgetLength) m = (perform steps m).forgetLengths := by
  induction steps generalizing m with
  | nil => rfl
  | cons step steps ih =>
    have hrest : perform (steps.map forgetLength) = fun n => (perform steps n).forgetLengths :=
      funext ih
    calc perform ((step :: steps).map forgetLength) m
        = (step.forgetLength.run m).andThen (perform (steps.map forgetLength)) := rfl
      _ = (step.run m).forgetLengths.andThen fun n => (perform steps n).forgetLengths := by
          rw [run_forgetLength, hrest]
      _ = (perform (step :: steps) m).forgetLengths :=
          (Effect.forgetLengths_andThen (step.run m) (perform steps)).symm

end Step

theorem Line.statements_compact (ls : List Line) :
    Line.statements (Line.compact ls) = Line.statements ls :=
  flatMap_compact (fun l hl => by rw [hl, Statement.split_nil, List.map_nil]) ls

namespace Program

theorem find?_compact (p : Program) (name : String) :
    p.compact.find? name = (p.find? name).map Routine.compact := by
  rw [find?, compact, List.find?_map]
  rfl

/-- The steps of a run are the same without idle lines, but for the lengths of routines. -/
theorem script_compact (p : Program) (depth : Nat) (name : String) :
    (p.compact.script depth name).map Step.forgetLength =
      (p.script depth name).map Step.forgetLength := by
  induction depth generalizing name with
  | zero =>
    simp only [script, find?_compact]
    cases p.find? name <;> rfl
  | succ depth ih =>
    simp only [script, find?_compact]
    cases p.find? name with
    | none => rfl
    | some r =>
      have hcalls (callee : Option String) :
          (callee.elim [] (p.compact.script depth)).map Step.forgetLength =
            (callee.elim [] (p.script depth)).map Step.forgetLength := by
        cases callee with
        | none => rfl
        | some callee => exact ih callee
      simp only [Option.map_some, Routine.compact, Line.statements_compact, List.map_append,
        List.map_cons, List.map_flatMap, hcalls]
      rfl

theorem forgetLengths_closeRun (entry : String) (e : Effect) :
    (closeRun entry e).forgetLengths = closeRun entry e.forgetLengths := by
  obtain ⟨machine, output, problems, trace, fault⟩ := e
  match fault with
  | none | some (.halt h) | some (.digits excess) | some .nesting => rfl

/-- Without idle lines a program runs as it does, but for the lengths of routines. -/
theorem forgetLengths_runWithin_compact (p : Program) (limit : Nat) (entry : String) :
    (p.compact.runWithin limit entry).forgetLengths = (p.runWithin limit entry).forgetLengths := by
  have hfresh : p.compact.freshMachine = p.freshMachine := by
    rw [freshMachine, labels_compact]
    rfl
  rw [runWithin, runWithin, forgetLengths_closeRun, forgetLengths_closeRun, hfresh,
    runRoutine_eq_perform, runRoutine_eq_perform, ← Step.perform_forgetLength, script_compact,
    Step.perform_forgetLength]

/-- Put a line that is blank or a comment anywhere into a source. Then a numeral that is too long
stops the reading before and after, or the sources give programs with the same number of errors that
differ only in idle lines and in the numbers of the lines below. From every entry and under every
limit these do the same: they write the same, leave the same machine but for where its labels stand,
stop alike and report and trace the same, but for the numbers of lines and the lengths of
routines. -/
theorem run_insert_idle {text text' : String} {tilde : Bool} {before after : List String}
    {raw : String} (htext : Text.sourceLines text tilde = before ++ after)
    (htext' : Text.sourceLines text' tilde = before ++ raw :: after)
    (hidle : Word.isIdle raw = true) :
    let ρ := Relocation.gap before.length
    (∃ excess, (read text tilde).result = .error excess ∧
      (read text' tilde).result = .error excess) ∨
    ∃ p q, (read text tilde).result = .ok p ∧ (read text' tilde).result = .ok q ∧
      q.errorCount = p.errorCount ∧ q.compact = (p.relocate ρ).compact ∧
      ∀ limit entry,
        let e := p.runWithin limit entry
        let f := q.runWithin limit entry
        f.output = e.output ∧
        f.machine = { e.machine with labels := e.machine.labels.map (Label.relocate ρ) } ∧
        f.fault = e.fault.map (Fault.relocate ρ) ∧
        f.problems = e.problems.map (Problem.relocate ρ) ∧
        f.trace.map Trace.forgetLength =
          (e.trace.map (Trace.relocate ρ)).map Trace.forgetLength := by
  intro ρ
  have hread : (read text' tilde).result.map compact =
      (read text tilde).result.map fun p => (p.relocate ρ).compact := by
    rw [read, read, htext, htext']
    exact readLines_insert_idle hidle before after
  obtain ⟨excess, hq, hp⟩ | ⟨q, p, hq, hp, hqp⟩ := error_or_ok_of_map_eq hread
  · exact .inl ⟨excess, hp, hq⟩
  have hcount := congrArg Program.errorCount hqp
  refine .inr ⟨p, q, hp, hq, hcount, hqp, fun limit entry => ?_⟩
  intro e f
  have hrun : f.forgetLengths = (e.rebase (.moved ρ)).forgetLengths := by
    rw [← forgetLengths_runWithin_compact, hqp, forgetLengths_runWithin_compact,
      runWithin_relocate]
  rw [Effect.forgetLengths, Effect.forgetLengths, Effect.mk.injEq] at hrun
  obtain ⟨hmachine, houtput, hproblems, htrace, hfault⟩ := hrun
  refine ⟨houtput, ?_, hfault, hproblems, htrace⟩
  rw [hmachine]
  simp [Effect.rebase, Machine.rebase, Setting.moved]

/-- A comment behind the header that holds a header and a quotation mark itself. The routine has one
line more, its label and the statement that stops the run stand one line further down, and the stack
is the same. -/
theorem run_insert_idle_of_comment :
    let text := "fn main ( )\nx: push 1\nadds\n"
    let text' := "fn main ( )\n; fn g ( \"\nx: push 1\nadds\n"
    (Text.sourceLines text false = ["fn main ( )"] ++ ["x: push 1", "adds"] ∧
      Text.sourceLines text' false = ["fn main ( )"] ++ "; fn g ( \"" :: ["x: push 1", "adds"] ∧
      Word.isIdle "; fn g ( \"" = true) ∧
    ∃ p q, (read text false).result = .ok p ∧ (read text' false).result = .ok q ∧
      q.errorCount = p.errorCount ∧
      ((p.run "main").fault = some (.halt (.stackUnderflow "adds" 3)) ∧
        (p.run "main").machine.labels.map Label.line = [2] ∧
        (p.run "main").trace.head? = some (.enter "main" 2)) ∧
      ((q.run "main").fault = some (.halt (.stackUnderflow "adds" 4)) ∧
        (q.run "main").machine.labels.map Label.line = [3] ∧
        (q.run "main").machine.stack = (p.run "main").machine.stack) ∧
      (q.run "main").trace.head? = some (.enter "main" 3) := by
  intro text text'
  have htext : Text.sourceLines text false = ["fn main ( )"] ++ ["x: push 1", "adds"] := by decide
  have htext' : Text.sourceLines text' false =
      ["fn main ( )"] ++ "; fn g ( \"" :: ["x: push 1", "adds"] := by decide
  have hidle : Word.isIdle "; fn g ( \"" = true := by decide
  have hp : (read "fn main ( )\nx: push 1\nadds\n" false).result = .ok _ := rfl
  have hq : (read "fn main ( )\n; fn g ( \"\nx: push 1\nadds\n" false).result = .ok _ := rfl
  refine ⟨⟨htext, htext', hidle⟩, ?_⟩
  obtain ⟨excess, hexcess, -⟩ | ⟨p, q, hread, hread', hcount, -, hruns⟩ :=
    run_insert_idle htext htext' hidle
  · rw [hp] at hexcess
    cases hexcess
  · obtain ⟨-, hmachine, hfault, -⟩ := hruns callLimit "main"
    rw [← run_eq_runWithin, ← run_eq_runWithin] at hmachine hfault
    have hstack : (q.run "main").machine.stack = (p.run "main").machine.stack := by rw [hmachine]
    have hlabels : (q.run "main").machine.labels =
        (p.run "main").machine.labels.map (Label.relocate (.gap 1)) := by rw [hmachine]; rfl
    obtain rfl := Except.ok.inj (hp.symm.trans hread)
    obtain rfl := Except.ok.inj (hq.symm.trans hread')
    refine ⟨_, _, hp, hq, hcount, ?_, ⟨?_, ?_, hstack⟩, ?_⟩
    · decide +kernel
    · rw [hfault]
      decide +kernel
    · rw [hlabels]
      decide +kernel
    · decide +kernel

end Program
end LineAssembly
