import LineAssembly.Proofs.Run.Script
import LineAssembly.Proofs.Source.Relocation

/-! Runs in another setting. A run carries along where its lines stand, the labels of its machine
and the errors that were counted before it, and looks at none of them. So each statement, and with
it each step of a run, commutes with changing them. -/
namespace LineAssembly

section Relocation

variable (ρ : Relocation)

def Problem.relocate : Problem → Problem
  | .unexpected value line => .unexpected value (ρ.number line)
  | .letWithoutName line => .letWithoutName (ρ.number line)
  | .letNotName line => .letNotName (ρ.number line)
  | .letWithoutValue line => .letWithoutValue (ρ.number line)
  | .noComma line => .noComma (ρ.number line)
  | .pushWithoutNumber line => .pushWithoutNumber (ρ.number line)
  | .pushNotNumber line => .pushNotNumber (ρ.number line)
  | .movTooShort line => .movTooShort (ρ.number line)
  | .movTarget line => .movTarget (ρ.number line)
  | .callWithoutName line => .callWithoutName (ρ.number line)
  | .printWithoutOperand line column => .printWithoutOperand (line.relocate ρ) (ρ.column column)
  | .invalidPort port line column => .invalidPort port (line.relocate ρ) (ρ.column column)
  | .unknownValue name line column => .unknownValue name (line.relocate ρ) (ρ.column column)
  | p => p

def Trace.relocate : Trace → Trace
  | .opcode line op => .opcode (ρ.number line) op
  | .dispatch line token => .dispatch (ρ.number line) (token.relocate ρ)
  | t => t

def Halt.relocate (h : Halt) : Halt := { h with line := h.line.map ρ.number }

def Fault.relocate : Fault → Fault
  | .halt h => .halt (h.relocate ρ)
  | f => f

theorem Problem.relocate_default : Problem.relocate {} = id := by
  funext p
  cases p <;> simp only [relocate, Line.relocate_default] <;> rfl

theorem Trace.relocate_default : Trace.relocate {} = id := by
  funext t
  cases t <;> simp only [relocate, Token.relocate_default] <;> rfl

/-- A fault has no column and no text of a line, so that only numbers move it. -/
theorem Fault.relocate_of_number {ρ : Relocation} (hnumber : ρ.number = id) :
    Fault.relocate ρ = id := by
  funext f
  cases f with
  | halt h => simp [relocate, Halt.relocate, hnumber]
  | _ => rfl

def Fetch.relocate {α : Type} : Fetch α → Fetch α
  | .value a => .value a
  | .problem p => .problem (p.relocate ρ)
  | .fault f => .fault (f.relocate ρ)

def Statement.relocate (s : Statement) : Statement :=
  ⟨s.head.relocate ρ, s.operands.map (Token.relocate ρ)⟩

def Step.relocate : Step → Step
  | .statement line s => .statement (line.relocate ρ) (s.relocate ρ)
  | step => step

namespace Statement

theorem bindingCount_relocate (ts : List Token) :
    bindingCount (ts.map (Token.relocate ρ)) = bindingCount ts := by
  match ts with
  | [] => rfl
  | [_] => rfl
  | name :: comma :: rest => simp [bindingCount]

theorem operandCount_relocate (head : Token) (rest : List Token) :
    operandCount (head.relocate ρ) (rest.map (Token.relocate ρ)) = operandCount head rest := by
  rw [operandCount, operandCount, Token.kind_relocate, bindingCount_relocate]
  cases head.kind <;> rfl

theorem split_relocate (ts : List Token) :
    split (ts.map (Token.relocate ρ)) = (split ts).map (relocate ρ) := by
  fun_induction split ts with
  | case1 => exact split_nil
  | case2 head rest ih =>
    rw [List.map_cons, split_cons, first, operandCount_relocate, ← List.map_drop, ih,
      ← List.map_take]
    rfl

theorem operation?_relocate (s : Statement) : (s.relocate ρ).operation? = s.operation? := by
  simp [operation?, relocate]

theorem callee?_relocate (s : Statement) : (s.relocate ρ).callee? = s.callee? := by
  rw [callee?, callee?, operation?_relocate]
  cases h : s.operands with
  | nil => simp [relocate, h]
  | cons t ts =>
    by_cases ht : t.kind = .routineName
    · simp [relocate, h, ht, Option.filter_some]
    · simp [relocate, h, ht, Option.filter_some]

end Statement

theorem Line.statements_relocate (ls : List Line) :
    Line.statements (ls.map (Line.relocate ρ)) =
      (Line.statements ls).map fun x => (x.1.relocate ρ, x.2.relocate ρ) := by
  simp only [Line.statements, List.flatMap_map, List.map_flatMap, List.map_map, tokens_relocate,
    Statement.split_relocate, Function.comp_def]

end Relocation

/-- What a run carries along: how its places, the labels of its machine and the errors counted
before it differ from those of another. -/
structure Setting where
  places : Relocation := {}
  labels : List Label → List Label := id
  errors : Int := 0

/-- The setting of a program that moves, where the labels move with their lines. -/
def Setting.moved (ρ : Relocation) : Setting :=
  { places := ρ, labels := List.map (Label.relocate ρ) }

variable (σ : Setting)

def Machine.rebase (m : Machine) : Machine :=
  { m with labels := σ.labels m.labels, errorCount := m.errorCount + σ.errors }

/-- A machine has no place but in its labels, so that only numbers move it. -/
theorem Machine.rebase_moved {ρ : Relocation} (hnumber : ρ.number = id) (m : Machine) :
    m.rebase (.moved ρ) = m := by
  simp [rebase, Setting.moved, Label.relocate_of_number hnumber]

theorem Machine.countError_rebase (m : Machine) :
    (m.rebase σ).countError = m.countError.rebase σ := by
  simp only [countError, rebase, Int.add_right_comm]

namespace Effect

def rebase (e : Effect) : Effect :=
  { machine := e.machine.rebase σ
    output := e.output
    problems := e.problems.map (Problem.relocate σ.places)
    trace := e.trace.map (Trace.relocate σ.places)
    fault := e.fault.map (Fault.relocate σ.places) }

theorem report_rebase (m : Machine) (p : Problem) :
    report (m.rebase σ) (p.relocate σ.places) = (report m p).rebase σ := by
  rw [report, Machine.countError_rebase]
  rfl

theorem halt_rebase (m : Machine) (h : Halt) :
    halt (m.rebase σ) (h.relocate σ.places) = (halt m h).rebase σ := by
  rw [halt, Machine.countError_rebase]
  rfl

theorem traced_rebase (ts : List Trace) (e : Effect) :
    (e.rebase σ).traced (ts.map (Trace.relocate σ.places)) = (e.traced ts).rebase σ := by
  simp [rebase, traced]

theorem andThen_rebase_of_returns (e : Effect) {next next' : Machine → Effect}
    (h : e.fault = Option.none → next' (e.machine.rebase σ) = (next e.machine).rebase σ) :
    (e.rebase σ).andThen next' = (e.andThen next).rebase σ := by
  cases he : e.fault with
  | some f =>
    have hrebase : (e.rebase σ).fault = some (f.relocate σ.places) := by simp [rebase, he]
    rw [andThen_of_fault he, andThen_of_fault hrebase]
  | none =>
    have hrebase : (e.rebase σ).fault = Option.none := by simp [rebase, he]
    have hmachine : (e.rebase σ).machine = e.machine.rebase σ := rfl
    rw [andThen_of_fault_eq_none he, andThen_of_fault_eq_none hrebase, hmachine, h he]
    simp [rebase]

theorem andThen_rebase (e : Effect) {next next' : Machine → Effect}
    (h : ∀ m, next' (m.rebase σ) = (next m).rebase σ) :
    (e.rebase σ).andThen next' = (e.andThen next).rebase σ :=
  andThen_rebase_of_returns σ e fun _ => h e.machine

end Effect

namespace Fetch

variable {α β : Type}

theorem bind_relocate (ρ : Relocation) (x : Fetch α) {f : α → Fetch β}
    (hf : ∀ a, (f a).relocate ρ = f a) : (x.relocate ρ).bind f = (x.bind f).relocate ρ := by
  cases x with
  | value a => exact (hf a).symm
  | problem p => rfl
  | fault f => rfl

theorem ofWriting_relocate (ρ : Relocation) (r : Except Decimal.TooLong String) :
    (ofWriting r).relocate ρ = ofWriting r := by
  cases r <;> rfl

theorem run_rebase (m : Machine) (x : Fetch α) {next next' : α → Effect}
    (h : ∀ a, next' a = (next a).rebase σ) :
    (x.relocate σ.places).run (m.rebase σ) next' = (x.run m next).rebase σ := by
  cases x with
  | value a => exact h a
  | problem p => exact Effect.report_rebase σ m p
  | fault f => rfl

end Fetch

namespace Statement

variable (m : Machine) (line : Line)

theorem fetchPort_rebase (t : Token) :
    fetchPort (m.rebase σ) (line.relocate σ.places) (t.relocate σ.places) =
      (fetchPort m line t).relocate σ.places := by
  have hindex : (m.rebase σ).portIndex t.value = m.portIndex t.value := rfl
  rw [fetchPort, fetchPort, Token.value_relocate, hindex]
  cases m.portIndex t.value with
  | error excess => rfl
  | ok i => cases i <;> rfl

theorem fetchSource_rebase (target : Target) (t : Token) :
    fetchSource (m.rebase σ) (line.relocate σ.places) target (t.relocate σ.places) =
      (fetchSource m line target t).relocate σ.places := by
  rw [fetchSource, fetchSource, Token.kind_relocate, fetchPort_rebase]
  cases t.kind with
  | port => exact Fetch.bind_relocate σ.places _ fun _ => rfl
  | _ => rfl

theorem fetchText_rebase (t : Token) :
    fetchText (m.rebase σ) (line.relocate σ.places) (t.relocate σ.places) =
      (fetchText m line t).relocate σ.places := by
  have hlookup : (m.rebase σ).lookup (.string t.value) = m.lookup (.string t.value) := rfl
  rw [fetchText, fetchText, Token.kind_relocate, Token.value_relocate, fetchPort_rebase, hlookup]
  cases t.kind with
  | string => rfl
  | number n | accumulator | stack => exact (Fetch.ofWriting_relocate σ.places _).symm
  | port => exact Fetch.bind_relocate σ.places _ fun _ => Fetch.ofWriting_relocate σ.places _
  | _ =>
    cases m.lookup (.string t.value) with
    | none => rfl
    | some v =>
      cases v with
      | string => rfl
      | number => exact (Fetch.ofWriting_relocate σ.places _).symm

theorem runPush_rebase (operands : List Token) :
    (runPush (line.relocate σ.places) (operands.map (Token.relocate σ.places)) (m.rebase σ)).effect =
      (runPush line operands m).effect.rebase σ := by
  cases operands with
  | nil => exact Effect.report_rebase σ m (.pushWithoutNumber line.number)
  | cons t ts =>
    simp only [List.map_cons, runPush, Token.kind_relocate]
    cases t.kind with
    | number n => rfl
    | _ => exact Effect.report_rebase σ m (.pushNotNumber line.number)

theorem runComma_rebase (comma : Token) :
    runComma (line.relocate σ.places) (comma.relocate σ.places) (m.rebase σ) =
      (runComma line comma m).rebase σ := by
  by_cases hcomma : comma.kind = .comma
  · simp only [runComma, Token.kind_relocate, hcomma]
    rfl
  · simpa [runComma, hcomma, Problem.relocate] using Effect.report_rebase σ m (.noComma line.number)

theorem runMove_rebase (dest source : Token) :
    runMove (line.relocate σ.places) (dest.relocate σ.places) (source.relocate σ.places)
        (m.rebase σ) = (runMove line dest source m).rebase σ := by
  rw [runMove, runMove, Token.kind_relocate]
  simp only [fetchPort_rebase, fetchSource_rebase]
  cases dest.kind with
  | port =>
    refine Fetch.run_rebase σ m _ fun i => ?_
    exact Fetch.run_rebase σ m _ fun n => rfl
  | accumulator => exact Fetch.run_rebase σ m _ fun n => rfl
  | _ => exact Effect.report_rebase σ m (.movTarget line.number)

theorem runMov_rebase (operands : List Token) :
    (runMov (line.relocate σ.places) (operands.map (Token.relocate σ.places)) (m.rebase σ)).effect =
      (runMov line operands m).effect.rebase σ := by
  match operands with
  | [] | [_] | [_, _] => exact Effect.report_rebase σ m (.movTooShort line.number)
  | dest :: comma :: source :: _ =>
    simp only [List.map_cons, runMov, runComma_rebase]
    exact Effect.andThen_rebase σ _ fun n => runMove_rebase σ n line dest source

theorem runArithmetic_rebase (op : Arithmetic) :
    runArithmetic (line.relocate σ.places) op (m.rebase σ) =
      (runArithmetic line op m).rebase σ := by
  have hstack : (m.rebase σ).stack = m.stack := rfl
  rw [runArithmetic_eq, runArithmetic_eq, hstack]
  split
  · split
    · exact Effect.halt_rebase σ m (.divisionByZero line.number)
    · rfl
  · exact Effect.halt_rebase σ m (.stackUnderflow op.name line.number)

theorem runPrint_rebase (head : Token) (operands : List Token) :
    (runPrint (line.relocate σ.places) (head.relocate σ.places)
        (operands.map (Token.relocate σ.places)) (m.rebase σ)).effect =
      (runPrint line head operands m).effect.rebase σ := by
  cases operands with
  | nil => exact Effect.report_rebase σ m (.printWithoutOperand line head.column)
  | cons t ts =>
    simp only [List.map_cons, runPrint, fetchText_rebase]
    exact Fetch.run_rebase σ m _ fun text => rfl

theorem runCall_rebase (operands : List Token) :
    (runCall (fun _ => Effect.none) (line.relocate σ.places)
        (operands.map (Token.relocate σ.places)) (m.rebase σ)).effect =
      (runCall (fun _ => Effect.none) line operands m).effect.rebase σ := by
  cases operands with
  | nil => exact Effect.report_rebase σ m (.callWithoutName line.number)
  | cons t ts =>
    by_cases ht : t.kind = .routineName
    · simp only [List.map_cons, runCall, Token.kind_relocate, ht]
      rfl
    · have hreport := Effect.report_rebase σ m (.callWithoutName line.number)
      simpa [runCall, ht, Problem.relocate] using hreport

theorem bindValue_rebase (name value : Token) :
    bindValue Trace.top (name.relocate σ.places) (value.relocate σ.places) (m.rebase σ) =
      (bindValue Trace.top name value m).rebase σ := by
  rw [bindValue, bindValue, Token.kind_relocate]
  cases value.kind with
  | string | number n => rfl
  | _ => exact Effect.report_rebase σ m .letWrongValue

theorem runBinding_rebase (operands : List Token) :
    (runBinding Trace.top (line.relocate σ.places) (operands.map (Token.relocate σ.places))
        (m.rebase σ)).effect = (runBinding Trace.top line operands m).effect.rebase σ := by
  have hreport (n : Machine) (p : Problem) := Effect.report_rebase σ n p
  cases operands with
  | nil => exact hreport m (.letWithoutName line.number)
  | cons name rest =>
    by_cases hname : name.kind = .variableName
    · cases rest with
      | nil =>
        have hboth : ((Effect.report m (.noComma line.number)).rebase σ).andThen
              (fun n => .report n (.letWithoutValue (σ.places.number line.number))) =
            ((Effect.report m (.noComma line.number)).andThen
              fun n => .report n (.letWithoutValue line.number)).rebase σ :=
          Effect.andThen_rebase σ _ fun n => hreport n (.letWithoutValue line.number)
        simpa [runBinding, hname, Problem.relocate, ← hreport] using hboth
      | cons comma rest =>
        by_cases hcomma : comma.kind = .comma
        · cases rest with
          | nil =>
            have hvalue := hreport m (.letWithoutValue line.number)
            simpa [runBinding, hname, hcomma, Problem.relocate] using hvalue
          | cons value rest =>
            simpa [runBinding, hname, hcomma] using bindValue_rebase σ m name value
        · have hboth := Effect.andThen_rebase σ (.report m (.noComma line.number))
            fun n => bindValue_rebase σ n name comma
          simpa [runBinding, hname, hcomma, Problem.relocate, ← hreport] using hboth
    · simpa [runBinding, hname, Problem.relocate] using hreport m (.letNotName line.number)

theorem runOperation_rebase (s : Statement) :
    (runOperation (fun _ => Effect.none) (line.relocate σ.places) (s.relocate σ.places).head
        (s.relocate σ.places).operands (m.rebase σ)).effect =
      (runOperation (fun _ => Effect.none) line s.head s.operands m).effect.rebase σ := by
  have hvalue : (s.relocate σ.places).head.value = s.head.value := rfl
  rw [runOperation, runOperation, hvalue]
  cases Operation.ofOpcode s.head.value with
  | push => exact runPush_rebase σ m line s.operands
  | mov => exact runMov_rebase σ m line s.operands
  | arithmetic op => exact runArithmetic_rebase σ m line op
  | print => exact runPrint_rebase σ m line s.head s.operands
  | call => exact runCall_rebase σ m line s.operands
  | pop | idle => rfl

theorem act_rebase (s : Statement) :
    (s.relocate σ.places).act (fun _ => Effect.none) (line.relocate σ.places) (m.rebase σ) =
      (s.act (fun _ => Effect.none) line m).rebase σ := by
  have hkind : (s.relocate σ.places).head.kind = s.head.kind.relocate σ.places := rfl
  have hvalue : (s.relocate σ.places).head.value = s.head.value := rfl
  rw [act, act, hkind, hvalue, runOperation_rebase, runKeyword, runKeyword, hvalue]
  cases s.head.kind with
  | keyword =>
    by_cases hlet : s.head.value = "let"
    · simp only [Token.Kind.relocate, hlet]
      exact runBinding_rebase σ m line s.operands
    · simp only [Token.Kind.relocate, hlet]
      rfl
  | opcode | label | bracket | string | comment | newline => rfl
  | _ => exact Effect.report_rebase σ m (.unexpected s.head.value line.number)

theorem opening_relocate (ρ : Relocation) (s : Statement) :
    (s.relocate ρ).opening (line.relocate ρ) = (s.opening line).map (Trace.relocate ρ) := by
  by_cases hhead : s.head.kind = .opcode
  · simp [opening, relocate, Trace.relocate, hhead]
  · simp [opening, relocate, Trace.relocate, hhead]

theorem runAlone_rebase (s : Statement) :
    (s.relocate σ.places).runAlone (line.relocate σ.places) (m.rebase σ) =
      (s.runAlone line m).rebase σ := by
  rw [runAlone, run, act_rebase, opening_relocate, Effect.traced_rebase]
  rfl

end Statement

namespace Step

theorem run_rebase (step : Step) (m : Machine) :
    (step.relocate σ.places).run (m.rebase σ) = (step.run m).rebase σ := by
  cases step with
  | statement line s => exact Statement.runAlone_rebase σ m line s
  | unknown routine => exact Effect.report_rebase σ m (.unknownRoutine routine)
  | enter routine lines => rfl
  | leave routine => rfl
  | tooDeep routine => rfl

end Step

theorem Program.closeRun_rebase (entry : String) (e : Effect) :
    closeRun entry (e.rebase σ) = (closeRun entry e).rebase σ := by
  obtain ⟨machine, output, problems, trace, fault⟩ := e
  match fault with
  | none | some (.halt h) | some (.digits excess) => rfl
  | some .nesting =>
    simp only [closeRun, Effect.rebase, Option.map_some, Fault.relocate,
      Machine.countError_rebase]
    rfl

end LineAssembly
