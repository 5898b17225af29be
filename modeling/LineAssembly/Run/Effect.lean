import LineAssembly.Machine.Fault
import LineAssembly.Machine.State
import LineAssembly.Run.Problem
import LineAssembly.Run.Trace

/-! Effects: what a piece of a run leaves behind. -/
namespace LineAssembly

/-- The machine afterwards, what was written, reported and traced, and the fault that stopped the
run if one did. -/
structure Effect where
  machine : Machine
  output : String := ""
  problems : List Problem := []
  trace : List Trace := []
  fault : Option Fault := none
  deriving Repr, DecidableEq

namespace Effect

def none (m : Machine) : Effect := { machine := m }

def write (m : Machine) (text : String) : Effect := { machine := m, output := text }

def report (m : Machine) (p : Problem) : Effect := { machine := m.countError, problems := [p] }

def fail (m : Machine) (f : Fault) : Effect := { machine := m, fault := some f }

/-- A fatal condition is counted as an error. -/
def halt (m : Machine) (h : Halt) : Effect := fail m.countError (.halt h)

def traced (ts : List Trace) (e : Effect) : Effect := { e with trace := ts ++ e.trace }

def andThen (e : Effect) (next : Machine → Effect) : Effect :=
  match e.fault with
  | some _ => e
  | Option.none =>
    let e' := next e.machine
    { machine := e'.machine
      output := e.output ++ e'.output
      problems := e.problems ++ e'.problems
      trace := e.trace ++ e'.trace
      fault := e'.fault }

@[simp] theorem machine_none (m : Machine) : (none m).machine = m := rfl

@[simp] theorem machine_traced (ts : List Trace) (e : Effect) :
    (e.traced ts).machine = e.machine := rfl

theorem andThen_of_fault {e : Effect} {f : Fault} (h : e.fault = some f)
    (next : Machine → Effect) : e.andThen next = e := by
  simp [andThen, h]

theorem none_andThen (m : Machine) (next : Machine → Effect) : (none m).andThen next = next m := by
  simp [andThen, none]

end Effect

inductive Fetch (α : Type) where
  | value (a : α)
  | problem (p : Problem)
  | fault (f : Fault)
  deriving Repr, DecidableEq

namespace Fetch

variable {α β : Type}

def bind (x : Fetch α) (f : α → Fetch β) : Fetch β :=
  match x with
  | .value a => f a
  | .problem p => .problem p
  | .fault g => .fault g

def ofWriting : Except Decimal.TooLong String → Fetch String
  | .ok s => .value s
  | .error excess => .fault (.digits excess)

def run (m : Machine) (x : Fetch α) (next : α → Effect) : Effect :=
  match x with
  | .value a => next a
  | .problem p => Effect.report m p
  | .fault f => Effect.fail m f

end Fetch
end LineAssembly
