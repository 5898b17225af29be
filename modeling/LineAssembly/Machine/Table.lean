import LineAssembly.Json.Display
import LineAssembly.Json.Render
import LineAssembly.Machine.State
import LineAssembly.Number.Hex
import LineAssembly.Text.Quoted

/-! The machine as a table of text. -/
namespace LineAssembly

namespace Variable

def shown : Variable → String
  | .string name value => "String(" ++ name.plainText ++ " = " ++ Text.quoted value ++ ")"
  | .number name value => "Number(" ++ name.plainText ++ " = " ++ Decimal.text value ++ ")"

def fits : Variable → Bool
  | .string name _ => name.fits
  | .number name value => name.fits && Decimal.fits value

def write (v : Variable) : Except Decimal.TooLong String :=
  if v.fits then .ok v.shown else .error .writing

end Variable

namespace Machine

def portText (i : Nat) (n : Int) : String := "P" ++ Decimal.text i ++ ": " ++ Hex.text n

def portRow (ports : List Int) : String :=
  "      " ++ ", ".intercalate (ports.zipIdx.map fun (n, i) => portText i n)

def labelRow (l : Label) : String :=
  "    " ++ l.name.plainText ++ " (line " ++ Decimal.text l.line ++ ")"

def variableRow (v : Variable) : String := "    " ++ v.shown

/-- The rows of the table, oldest value and variable first. -/
def rows (m : Machine) : List String :=
  ["Stack:          " ++ Decimal.listText m.stack.reverse,
   "Port:           \x7b", portRow m.ports, "\x7d",
   "Jump Locations: \x7b"] ++ m.labels.map labelRow ++
  ["\x7d",
   "Accumulator:    " ++ Decimal.text m.accumulator,
   "Vars: \x7b"] ++ m.vars.reverse.map variableRow ++ ["\x7d"]

def table (m : Machine) : String := "\n".intercalate m.rows ++ "\n"

def tableFits (m : Machine) : Bool :=
  m.stack.all Decimal.fits && m.labels.all (fun l => l.name.fits && Decimal.fits l.line) &&
    Decimal.fits m.accumulator && m.vars.all Variable.fits

def writeTable (m : Machine) : Except Decimal.TooLong String :=
  if m.tableFits then .ok m.table else .error .writing

end Machine
end LineAssembly
