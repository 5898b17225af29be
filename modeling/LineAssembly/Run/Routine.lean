import LineAssembly.Run.Step
import LineAssembly.Source.Program

/-! Running routines and programs. -/
namespace LineAssembly

def callLimit : Nat := 250

/-- Leaving a routine empties the variables, those of its caller too. -/
def leaveRoutine (level : Nat) (name : String) (m : Machine) : Effect :=
  (Effect.none m.clearVariables).traced (Trace.emit level 1 (.leave name))

namespace Program

def runRoutineAt (p : Program) (level : Nat) : Nat → String → Machine → Effect
  | 0, name, m =>
    match p.find? name with
    | none => .report m (.unknownRoutine name)
    | some _ => .fail m .nesting
  | depth + 1, name, m =>
    match p.find? name with
    | none => .report m (.unknownRoutine name)
    | some r =>
      ((runLines level (runRoutineAt p level depth) r.lines m).andThen
        (leaveRoutine level name)).traced (Trace.emit level 1 (.enter name r.lines.length))

def freshMachine (p : Program) : Machine := { labels := p.labels, errorCount := p.errorCount }

/-- Calls nested too deep end a run like any fatal condition, under the name of its entry. -/
def closeRun (entry : String) (e : Effect) : Effect :=
  match e.fault with
  | some .nesting =>
    { e with machine := e.machine.countError, fault := some (.halt (.callDepth entry)) }
  | _ => e

def runAt (p : Program) (level : Nat) (entry : String) : Effect :=
  closeRun entry (p.runRoutineAt level callLimit entry p.freshMachine)

end Program

def Effect.messages (e : Effect) : List Message := e.problems.flatMap Problem.messages

end LineAssembly
