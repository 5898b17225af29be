import LineAssembly.Number.Decimal
import LineAssembly.Source.Token

/-! Traces: what a run did, as events. -/
namespace LineAssembly

inductive Trace where
  | enter (routine : String) (lines : Nat)
  | leave (routine : String)
  | opcode (line : Int) (op : String)
  | bind (name value : String)
  | dispatch (line : Int) (token : Token)
  /-- A remark from outside the run. -/
  | remark (text : String)
  deriving Repr, DecidableEq

namespace Trace

def text : Trace → String
  | .enter routine lines => "enter " ++ routine ++ " (" ++ Decimal.text lines ++ " lines)"
  | .leave routine => "leave " ++ routine
  | .opcode line op => "line " ++ Decimal.text line ++ ": " ++ op
  | .bind name value => "let " ++ name ++ " = " ++ Text.quoted value
  | .dispatch line token => "line " ++ Decimal.text line ++ ": dispatch " ++ token.shown
  | .remark text => text

/-- An event is traced at a level that reaches the threshold of the place it arises at. -/
def emit (level threshold : Nat) (t : Trace) : List Trace := if threshold ≤ level then [t] else []

def render (ts : List Trace) : String := String.join (ts.map fun t => t.text ++ "\n")

end Trace
end LineAssembly
