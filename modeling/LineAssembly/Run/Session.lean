import LineAssembly.Machine.Snapshot
import LineAssembly.Machine.Table
import LineAssembly.Run.Routine

/-! Sessions: one machine driven by a sequence of commands. -/
namespace LineAssembly

inductive Session.Lines where
  /-- A negative index counts from the end. -/
  | routine (index : Int)
  | all
  | dangling
  deriving Repr, DecidableEq

inductive Session.Command where
  | load (source : String) (tilde : Bool)
  | run (entry : String)
  /-- Runs the loaded program on a machine apart. -/
  | runApart (entry : String)
  | runRoutine (name : String)
  | runLines (which : Session.Lines)
  | runGiven (lines : List Line)
  | write (text : String)
  | clearVariables
  | remark (text : String)
  | restore (snapshot : Json)
  | table
  | dump (indent : Option Int)
  deriving Repr

inductive Session.Failure where
  | fault (f : Fault)
  | snapshot (e : SnapshotError)
  | noRoutine
  deriving Repr, DecidableEq

inductive Session.Answer where
  | done
  | loaded (routines : Nat)
  | finished (output : String) (errorCount : Int)
  | finishedApart (output : String) (machine : Machine)
  | text (s : String)
  deriving Repr, DecidableEq

/-- Traces go to the trace of a run while one is going, and are printed otherwise. -/
structure Session where
  level : Nat := 0
  machine : Machine := {}
  output : String := ""
  program : Program := {}
  runTrace : Option String := none
  deriving Repr, DecidableEq

structure Session.Reply where
  result : Except Session.Failure Session.Answer
  messages : List Message := []
  printed : String := ""

namespace Session

def resultOf (fault : Option Fault) (answer : Answer) : Except Failure Answer :=
  match fault with
  | some f => .error (.fault f)
  | none => .ok answer

def absorb (s : Session) (e : Effect) : Session :=
  { s with machine := e.machine, output := s.output ++ e.output }

def perform (s : Session) (e : Effect) : Session × Reply :=
  (s.absorb e,
   { result := resultOf e.fault .done
     messages := e.messages
     printed := Trace.render e.trace })

def runProgram (s : Session) (p : Program) (entry : String) : Session × Reply :=
  let e := p.runAt s.level entry
  ({ s with
     machine := e.machine, output := e.output, program := p
     runTrace := if 0 < s.level then some (Trace.render e.trace) else s.runTrace },
   { result := resultOf e.fault (.finished e.output e.machine.errorCount), messages := e.messages })

def load (s : Session) (source : String) (tilde : Bool) : Session × Reply :=
  let reading := Program.read source tilde
  match reading.result with
  | .ok p =>
    ({ s with program := p },
     { result := .ok (.loaded p.routines.length), messages := reading.messages })
  | .error excess =>
    (s, { result := .error (.fault (.digits excess)), messages := reading.messages })

/-- Lines run outside of a routine; calls go to the loaded program. -/
def runGiven (s : Session) (lines : List Line) : Session × Reply :=
  s.perform
    (runLines s.level (s.program.runRoutineAt s.level callLimit) lines s.machine)

/-- An element by its index; a negative one counts from the end. -/
def atIndex? {α : Type} (xs : List α) (index : Int) : Option α :=
  let i := if index < 0 then index + xs.length else index
  if i < 0 then none else xs[i.toNat]?

def linesOf (s : Session) : Lines → Option (List Line)
  | .routine index => (atIndex? s.program.routines index).map Routine.lines
  | .all => some s.program.lines
  | .dangling => some s.program.dangling

def textReply (r : Except Decimal.TooLong String) : Reply :=
  match r with
  | .ok text => { result := .ok (.text text) }
  | .error excess => { result := .error (.fault (.digits excess)) }

def step (s : Session) : Command → Session × Reply
  | .load source tilde => s.load source tilde
  | .run entry => s.runProgram s.program entry
  | .runApart entry =>
    let e := s.program.runAt 0 entry
    (s, { result := resultOf e.fault (.finishedApart e.output e.machine), messages := e.messages })
  | .runRoutine name => s.perform (s.program.runRoutineAt s.level callLimit name s.machine)
  | .runLines which =>
    match s.linesOf which with
    | some lines => s.runGiven lines
    | none => (s, { result := .error .noRoutine })
  | .runGiven lines => s.runGiven lines
  | .write text => ({ s with output := s.output ++ text }, { result := .ok .done })
  | .clearVariables => ({ s with machine := s.machine.clearVariables }, { result := .ok .done })
  | .remark text =>
    (s, { result := .ok .done, printed := Trace.render (Trace.emit s.level 1 (.remark text)) })
  | .restore snapshot =>
    match snapshot.toMachine with
    | .ok m => ({ s with machine := m }, { result := .ok .done })
    | .error e => (s, { result := .error (.snapshot e) })
  | .table => (s, textReply s.machine.writeTable)
  | .dump indent => (s, textReply (s.machine.dump indent))

end Session
end LineAssembly
