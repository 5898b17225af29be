import LineAssembly.Json.Display
import LineAssembly.Json.Integer
import LineAssembly.Json.Render
import LineAssembly.Machine.State

/-! Snapshots: the machine as a JSON value, and back. -/
namespace LineAssembly

inductive SnapshotError where
  /-- The whole is no object. -/
  | notObject
  /-- A part has the wrong type. -/
  | wrongType
  | missing (key : String)
  | unknownKind (kind : Json)
  | wrongPorts (found : Nat)
  | infinite
  | notNumber
  | badText (text : String)
  | tooLong (excess : Decimal.TooLong)
  deriving Repr, DecidableEq

namespace SnapshotError

def ofInteger : IntegerError → SnapshotError
  | .wrongType => .wrongType
  | .infinite => .infinite
  | .notNumber => .notNumber
  | .badText text => .badText text
  | .tooLong excess => .tooLong excess

def message : SnapshotError → String
  | .notObject => "not an object"
  | .wrongType => "wrong type"
  | .missing key => Text.quoted key
  | .unknownKind kind => "unknown variable kind " ++ kind.quotedText
  | .wrongPorts found =>
    "expected " ++ Decimal.text portCount ++ " ports, got " ++ Decimal.text found
  | .infinite => IntegerError.message .infinite
  | .notNumber => IntegerError.message .notNumber
  | .badText text => IntegerError.message (.badText text)
  | .tooLong excess => excess.message

end SnapshotError

namespace Json

def ofVariable : Variable → Json
  | .string name value =>
    .object [("kind", .string "String"), ("name", name), ("value", .string value)]
  | .number name value =>
    .object [("kind", .string "Number"), ("name", name), ("value", .int value)]

def ofLabel (l : Label) : Json := .object [("name", l.name), ("line", .int l.line)]

/-- The snapshot of a machine, oldest value and variable first. -/
def ofMachine (m : Machine) : Json :=
  .object
    [("stack", .array (m.stack.reverse.map .int)),
     ("ports", .array (m.ports.map .int)),
     ("accumulator", .int m.accumulator),
     ("vars", .array (m.vars.reverse.map ofVariable)),
     ("jump_locations", .array (m.labels.map ofLabel)),
     ("error_count", .int m.errorCount)]

def need (key : String) : Json → Except SnapshotError Json
  | .object fields =>
    match field? key fields with
    | some v => .ok v
    | none => .error (.missing key)
  | _ => .error .wrongType

/-- What a value consists of: items, the characters of a string, the keys of an object. -/
def elements : Json → Except SnapshotError (List Json)
  | .array items => .ok items
  | .string s => .ok (s.toList.map fun c => .string (String.singleton c))
  | .object fields => .ok (fields.map fun f => .string f.1)
  | _ => .error .wrongType

def integer (v : Json) : Except SnapshotError Int :=
  match v.toInt with
  | .ok n => .ok n
  | .error e => .error (.ofInteger e)

def limited {α : Type} (v : Json) (made : Except SnapshotError α) : Except SnapshotError α :=
  if v.fits then made else .error (.tooLong .writing)

/-- The kind is looked at first, then the name, then the value. Any value is a name. -/
def toVariable (v : Json) : Except SnapshotError Variable := do
  let kind ← v.need "kind"
  match kind with
  | .string "String" =>
    let name ← v.need "name"
    let value ← v.need "value"
    value.limited (.ok (.string name value.plainText))
  | .string "Number" =>
    let name ← v.need "name"
    let value ← v.need "value"
    return .number name (← value.integer)
  | _ => kind.limited (.error (.unknownKind kind))

def toLabel (v : Json) : Except SnapshotError Label := do
  let name ← v.need "name"
  let line ← v.need "line"
  return ⟨name, ← line.integer⟩

/-- The elements of a field, each read by `f`; a missing field has none. -/
def readList {α : Type} (f : Json → Except SnapshotError α) (key : String)
    (fields : List (String × Json)) : Except SnapshotError (List α) :=
  match field? key fields with
  | none => .ok []
  | some v => do (← v.elements).mapM f

def readInteger (key : String) (fields : List (String × Json)) : Except SnapshotError Int :=
  match field? key fields with
  | none => .ok 0
  | some v => v.integer

def readPorts (fields : List (String × Json)) : Except SnapshotError (List Int) :=
  match field? "ports" fields with
  | none | some .null => .ok (List.replicate portCount 0)
  | some v => do
    let items ← v.elements
    if items.length = portCount then items.mapM integer else throw (.wrongPorts items.length)

/-- Fields are read in a fixed order, and the first that fails decides. -/
def toMachine : Json → Except SnapshotError Machine
  | .object fields => do
    let stack ← readList integer "stack" fields
    let accumulator ← readInteger "accumulator" fields
    let vars ← readList toVariable "vars" fields
    let labels ← readList toLabel "jump_locations" fields
    let errorCount ← readInteger "error_count" fields
    let ports ← readPorts fields
    return { stack := stack.reverse, ports, accumulator, vars := vars.reverse, labels,
             errorCount }
  | _ => .error .notObject

end Json

def Machine.dump (m : Machine) (indent : Option Int) : Except Decimal.TooLong String :=
  (Json.ofMachine m).write (.ofIndent indent)

end LineAssembly
