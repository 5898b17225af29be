import LineAssembly.Number.Decimal
import LineAssembly.Source.Token

/-! The machine: a stack, ports, an accumulator and one flat table of variables. -/
namespace LineAssembly

/-- A run names its variables by texts; in a restored machine a name may be any value. -/
inductive Variable where
  | string (name : Json) (value : String)
  | number (name : Json) (value : Int)
  deriving Repr, DecidableEq

def Variable.name : Variable → Json
  | .string name _ => name
  | .number name _ => name

def portCount : Nat := 8

/-- The stack has its top first and the variables the newest first. A later variable shadows an
earlier one of its name without removing it. -/
structure Machine where
  stack : List Int := []
  ports : List Int := List.replicate portCount 0
  accumulator : Int := 0
  vars : List Variable := []
  labels : List Label := []
  errorCount : Int := 0
  deriving Repr, DecidableEq

namespace Machine

def lookup (m : Machine) (name : Json) : Option Variable :=
  m.vars.find? fun v => v.name = name

def define (m : Machine) (v : Variable) : Machine := { m with vars := v :: m.vars }

def clearVariables (m : Machine) : Machine := { m with vars := [] }

def push (m : Machine) (n : Int) : Machine := { m with stack := n :: m.stack }

def pop (m : Machine) : Machine := { m with stack := m.stack.tail }

def top (m : Machine) : Int := m.stack.headD 0

def countError (m : Machine) : Machine := { m with errorCount := m.errorCount + 1 }

def setPort (m : Machine) (i : Nat) (n : Int) : Machine := { m with ports := m.ports.set i n }

def setAccumulator (m : Machine) (n : Int) : Machine := { m with accumulator := n }

theorem lookup_define (m : Machine) (v : Variable) (name : Json) :
    (m.define v).lookup name = if v.name = name then some v else m.lookup name := by
  by_cases h : v.name = name <;> simp [lookup, define, h]

@[simp] theorem lookup_clearVariables (m : Machine) (name : Json) :
    m.clearVariables.lookup name = none := rfl

@[simp] theorem length_ports_setPort (m : Machine) (i : Nat) (n : Int) :
    (m.setPort i n).ports.length = m.ports.length := by
  simp [setPort]

/-- The port that a reference such as `P3` names. The first character is not looked at; what
follows it must be a numeral below the number of ports. -/
def portIndex (m : Machine) (reference : String) : Except Decimal.TooLong (Option Nat) :=
  let digits := reference.toList.drop 1
  if !Decimal.isNumeral digits then .ok none
  else match Decimal.read digits with
    | .error excess => .error excess
    | .ok i => .ok (if i < m.ports.length then some i else none)

theorem portIndex_lt {m : Machine} {reference : String} {i : Nat}
    (h : m.portIndex reference = .ok (some i)) : i < m.ports.length := by
  unfold portIndex at h
  simp only at h
  split at h
  · simp at h
  · split at h
    · simp at h
    · rename_i j _
      by_cases hj : j < m.ports.length
      · simp only [hj, if_true, Except.ok.injEq, Option.some.injEq] at h
        omega
      · simp [hj] at h

def port (m : Machine) (i : Nat) : Int := m.ports.getD i 0

end Machine
end LineAssembly
