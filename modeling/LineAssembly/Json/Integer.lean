import LineAssembly.Json.Basic
import LineAssembly.Number.Decimal
import LineAssembly.Text.Blank
import LineAssembly.Text.DecimalDigit
import LineAssembly.Text.Quoted

/-! The integer that a JSON value stands for. -/
namespace LineAssembly

inductive IntegerError where
  | wrongType
  | infinite
  | notNumber
  | badText (text : String)
  | tooLong (excess : Decimal.TooLong)
  deriving Repr, DecidableEq

namespace IntegerText

/-- Blanks around an integer text; the separators 28-31 are not among them. -/
def isOuterBlank (c : Char) : Bool :=
  Text.isBlank c && !(0x1C ≤ c.toNat && c.toNat ≤ 0x1F)

def asciiDigit (c : Char) : Char :=
  match Text.decimalDigit? c with
  | some d => Char.ofNat ('0'.toNat + d)
  | none => c

def isDigitOrJoint (c : Char) : Bool := Decimal.isDigit c || c = '_'

/-- Joints stand singly between digits. -/
def wellJoined : List Char → Bool
  | [] => true
  | ['_'] => false
  | '_' :: '_' :: _ => false
  | _ :: cs => wellJoined cs

/-- A text without its sign. The length of the digits is looked at before what follows them. -/
def readUnsigned (whole : String) (cs : List Char) : Except IntegerError Nat :=
  let body := cs.takeWhile isDigitOrJoint
  let rest := cs.dropWhile isDigitOrJoint
  let digits := body.filter Decimal.isDigit
  if body.head? = some '_' || !wellJoined body then .error (.badText whole)
  else match Decimal.read digits with
    | .error excess => .error (.tooLong excess)
    | .ok n => if digits.isEmpty || !(rest.all isOuterBlank) then .error (.badText whole) else .ok n

def read (text : String) : Except IntegerError Int :=
  match (text.toList.map asciiDigit).dropWhile isOuterBlank with
  | '-' :: cs => (readUnsigned text cs).map fun n => -(n : Int)
  | '+' :: cs => (readUnsigned text cs).map fun n => (n : Int)
  | cs => (readUnsigned text cs).map fun n => (n : Int)

end IntegerText

namespace IntegerError

def shownLength : Nat := 200

def message : IntegerError → String
  | .wrongType => "not a number"
  | .infinite => "cannot convert float infinity to integer"
  | .notNumber => "cannot convert float NaN to integer"
  | .badText text => "invalid literal for int() with base 10: " ++
      String.ofList ((Text.quoteChars text.toList).take shownLength)
  | .tooLong excess => excess.message

end IntegerError

namespace Json

/-- Integers stay, other numbers lose their fraction, truth values count as one and zero, and a
string is read. -/
def toInt : Json → Except IntegerError Int
  | .int n => .ok n
  | .bool b => .ok (if b then 1 else 0)
  | .real x =>
    match x with
    | .nan => .error .notNumber
    | .infinite _ => .error .infinite
    | .finite negative m e => .ok ((Binary64.finite negative m e).truncate?.getD 0)
  | .string s => IntegerText.read s
  | _ => .error .wrongType

end Json
end LineAssembly
