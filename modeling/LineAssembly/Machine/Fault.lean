import LineAssembly.Number.Decimal

/-! Conditions that stop a run. -/
namespace LineAssembly

inductive Halt.Kind where
  | general | stackUnderflow | divisionByZero | callDepth
  deriving Repr, DecidableEq

structure Halt where
  kind : Halt.Kind
  message : String
  line : Option Int := none
  deriving Repr, DecidableEq

namespace Halt

def text (h : Halt) : String :=
  match h.line with
  | some n => h.message ++ " at line " ++ Decimal.text n
  | none => h.message

def stackUnderflow (op : String) (line : Int) : Halt :=
  ⟨.stackUnderflow, "`" ++ op ++ "` needs two values on the stack", some line⟩

def divisionByZero (line : Int) : Halt := ⟨.divisionByZero, "division by zero", some line⟩

def callDepth (entry : String) : Halt :=
  ⟨.callDepth, "call stack exhausted while running `" ++ entry ++ "`", none⟩

end Halt

/-- Why a run stopped: the machine cannot go on, calls are nested too deep, or a number is too
long. -/
inductive Fault where
  | halt (h : Halt)
  | nesting
  | digits (excess : Decimal.TooLong)
  deriving Repr, DecidableEq

end LineAssembly
