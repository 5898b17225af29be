import LineAssembly.Report.Message
import LineAssembly.Source.Token

/-! Problems: what is wrong with a statement that is run. A problem is counted and reported, and
the run goes on. -/
namespace LineAssembly

inductive Target where
  | port | accumulator
  deriving Repr, DecidableEq

inductive Problem where
  | unknownRoutine (name : String)
  | unexpected (value : String) (line : Int)
  | letWithoutName (line : Int)
  | letNotName (line : Int)
  | letWithoutValue (line : Int)
  | letWrongValue
  | noComma (line : Int)
  | pushWithoutNumber (line : Int)
  | pushNotNumber (line : Int)
  | movTooShort (line : Int)
  | movTarget (line : Int)
  | movSource (target : Target)
  | callWithoutName (line : Int)
  | printWithoutOperand (line : Line) (column : Nat)
  | invalidPort (port : String) (line : Line) (column : Nat)
  | unknownValue (name : String) (line : Line) (column : Nat)
  deriving Repr, DecidableEq

namespace Problem

def movForm : String := "mov <Port or Accu> <,> <value>"

def pointAt (message : String) (line : Line) (column : Nat) (label : String) : Message :=
  .caret
    { message, source := line.source, line := line.number
      word := Caret.wordIndex line.source column, label }

def report : Problem → Message
  | .unknownRoutine name => .error ("function `" ++ name ++ "` not found")
  | .unexpected value line =>
    .error ("unexpected token '" ++ value ++ "' at line " ++ Decimal.text line)
  | .letWithoutName line => .error ("Expected arguments after let at line " ++ Decimal.text line)
  | .letNotName line => .error ("Expected variable name at line " ++ Decimal.text line)
  | .letWithoutValue line => .error ("Expected value for let at line " ++ Decimal.text line)
  | .letWrongValue => .error "You can only store Strings and Numbers inside a Variable"
  | .noComma line => .error ("Expected comma at line " ++ Decimal.text line)
  | .pushWithoutNumber line => .error ("Expected number after push at line " ++ Decimal.text line)
  | .pushNotNumber line =>
    .error ("You can only push numbers to the stack (line " ++ Decimal.text line ++ ")")
  | .movTooShort line => .error ("Expected more tokens after mov at line " ++ Decimal.text line)
  | .movTarget line => .error ("Expected Port or Accu at line " ++ Decimal.text line)
  | .movSource .port => .error "You can only move a number or the value of a Port to this Port"
  | .movSource .accumulator =>
    .error "You can only move a number or the value of a Port to the Accumulator"
  | .callWithoutName line =>
    .error ("Expected function name after call at line " ++ Decimal.text line)
  | .printWithoutOperand line column =>
    pointAt "expected token after prnt statement" line column ""
  | .invalidPort port line column =>
    pointAt ("invalid port `" ++ port ++ "`") line column "expected P0 - P7"
  | .unknownValue name line column =>
    pointAt ("cannot find value `" ++ name ++ "` in this scope") line column
      "not found in this scope"

/-- All that a problem shows: its error, and the form of a move that is too short. -/
def messages (p : Problem) : List Message :=
  match p with
  | .movTooShort _ => [p.report, .note .usage movForm]
  | _ => [p.report]

theorem isError_report (p : Problem) : p.report.isError = true := by
  cases p with
  | movSource target => cases target <;> rfl
  | _ => rfl

end Problem
end LineAssembly
