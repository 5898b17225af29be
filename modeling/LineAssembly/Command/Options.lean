import LineAssembly.Number.Decimal
import LineAssembly.Text.DecimalDigit
import LineAssembly.Text.Quoted

/-! Options of the command line. All arguments are first told apart by their look, then taken from
left to right. -/
namespace LineAssembly
namespace Command

inductive Switch where
  | help | verbose | entry | showState | dumpState | html | tildeNewlines | noProgress | noColor
  deriving Repr, DecidableEq

namespace Switch

def names : Switch → List String
  | .help => ["-h", "--help"]
  | .verbose => ["-v"]
  | .entry => ["--entry"]
  | .showState => ["--show-state"]
  | .dumpState => ["--dump-state"]
  | .html => ["--html"]
  | .tildeNewlines => ["--tilde-newlines"]
  | .noProgress => ["--no-progress"]
  | .noColor => ["--no-color"]

def all : List Switch :=
  [.help, .verbose, .entry, .showState, .dumpState, .html, .tildeNewlines, .noProgress, .noColor]

def takesValue : Switch → Bool
  | .entry | .dumpState | .html => true
  | _ => false

def title (s : Switch) : String := "/".intercalate s.names

def table : List (String × Switch) := all.flatMap fun s => s.names.map fun n => (n, s)

def ofName? (name : String) : Option Switch := (table.find? fun e => e.1 = name).map Prod.snd

end Switch

inductive UsageError where
  | ambiguous (argument : String) (matching : List String)
  | ignoredValue (switch : Switch) (value : String)
  | missingValue (switch : Switch)
  | missingProgram
  | unrecognized (arguments : List String)
  deriving Repr, DecidableEq

namespace UsageError

def message : UsageError → String
  | .ambiguous argument matching =>
    "ambiguous option: " ++ argument ++ " could match " ++ ", ".intercalate matching
  | .ignoredValue switch value =>
    "argument " ++ switch.title ++ ": ignored explicit argument " ++ Text.quoted value
  | .missingValue switch => "argument " ++ switch.title ++ ": expected one argument"
  | .missingProgram => "the following arguments are required: program"
  | .unrecognized arguments => "unrecognized arguments: " ++ " ".intercalate arguments

def line (e : UsageError) : String := "russembly: error: " ++ e.message

end UsageError

inductive Look where
  | operand
  /-- The mark `--`, after which all are operands. -/
  | endOfSwitches
  | unknown
  | switch (s : Switch) (name : String) (value : Option String)
  deriving Repr, DecidableEq

def splitAtEquals (arg : List Char) : Option (List Char × List Char) :=
  match arg.dropWhile (· ≠ '=') with
  | [] => none
  | _ :: value => some (arg.takeWhile (· ≠ '='), value)

def dropFinalNewline (cs : List Char) : List Char :=
  if cs.getLast? = some '\n' then cs.dropLast else cs

/-- A minus sign with digits after it, perhaps with a point before the last of them. A line feed at
the end does not count. -/
def looksNegative (arg : List Char) : Bool :=
  let isDigit := fun c => (Text.decimalDigit? c).isSome
  match dropFinalNewline arg with
  | '-' :: cs =>
    match cs.dropWhile isDigit with
    | [] => !cs.isEmpty
    | '.' :: ds => !ds.isEmpty && ds.all isDigit
    | _ => false
  | _ => false

/-- The switches that an argument may mean which is not the full name of one. A long name may be
cut short, and a short one may be followed by more. -/
def candidates (arg : List Char) : List (Switch × String × Option String) :=
  match arg with
  | '-' :: '-' :: _ =>
    let (stem, value) := match splitAtEquals arg with
      | some (stem, value) => (stem, some (String.ofList value))
      | none => (arg, none)
    Switch.table.filterMap fun (name, s) =>
      if stem.isPrefixOf name.toList then some (s, name, value) else none
  | _ =>
    Switch.table.filterMap fun (name, s) =>
      if name.toList = arg.take 2 then some (s, name, some (String.ofList (arg.drop 2)))
      else if arg.isPrefixOf name.toList then some (s, name, none)
      else none

def assigned? (arg : List Char) : Option Look := do
  let (name, value) ← splitAtEquals arg
  let s ← Switch.ofName? (String.ofList name)
  return .switch s (String.ofList name) (some (String.ofList value))

def lookOfDashed (arg : String) : Except UsageError Look :=
  match assigned? arg.toList with
  | some look => .ok look
  | none =>
    match candidates arg.toList with
    | [(s, name, value)] => .ok (.switch s name value)
    | [] => .ok (if looksNegative arg.toList || arg.toList.contains ' ' then .operand else .unknown)
    | several => .error (.ambiguous arg (several.map fun c => c.2.1))

def lookOf (arg : String) : Except UsageError Look :=
  if arg.toList.head? ≠ some '-' then .ok .operand
  else match Switch.ofName? arg with
    | some s => .ok (.switch s arg none)
    | none => if arg.length = 1 then .ok .operand else lookOfDashed arg

def looksOf : List String → Except UsageError (List (String × Look))
  | [] => .ok []
  | arg :: args =>
    if arg = "--" then .ok ((arg, .endOfSwitches) :: args.map fun a => (a, .operand))
    else do
      let look ← lookOf arg
      let looks ← looksOf args
      return (arg, look) :: looks

structure Options where
  verbosity : Nat := 0
  entry : String := "main"
  showState : Bool := false
  dumpState : Option String := none
  html : Option String := none
  tildeNewlines : Bool := false
  noProgress : Bool := false
  noColor : Bool := false
  program : String := ""
  deriving Repr, DecidableEq

inductive Request where
  | help
  | run (options : Options)
  deriving Repr, DecidableEq

structure Taken where
  options : Options := {}
  program : Option String := none
  extras : List String := []
  deriving Repr, DecidableEq

namespace Taken

/-- What an entry is called that was given as the mark `--`; no routine has this name. -/
def noEntry : String := "[]"

/-- The mark `--` is no value, so it names neither a routine nor a file. -/
def withValue (t : Taken) (s : Switch) (value : String) : Taken :=
  let given := if value = "--" then none else some value
  match s with
  | .entry => { t with options := { t.options with entry := given.getD noEntry } }
  | .dumpState => { t with options := { t.options with dumpState := given } }
  | .html => { t with options := { t.options with html := given } }
  | _ => t

def withFlag (t : Taken) (s : Switch) : Taken :=
  match s with
  | .verbose => { t with options := { t.options with verbosity := t.options.verbosity + 1 } }
  | .showState => { t with options := { t.options with showState := true } }
  | .tildeNewlines => { t with options := { t.options with tildeNewlines := true } }
  | .noProgress => { t with options := { t.options with noProgress := true } }
  | .noColor => { t with options := { t.options with noColor := true } }
  | _ => t

def extra (t : Taken) (arg : String) : Taken := { t with extras := t.extras ++ [arg] }

def request (t : Taken) : Except UsageError Request :=
  match t.program with
  | none => .error .missingProgram
  | some program =>
    if t.extras.isEmpty then .ok (.run { t.options with program })
    else .error (.unrecognized t.extras)

end Taken

/-- Short switches written together: the first, and what is written behind it. -/
def togetherFrom (s : Switch) : List Char → Except UsageError (List Switch)
  | [] => .ok [s]
  | c :: cs =>
    match Switch.ofName? (String.ofList ['-', c]) with
    | some next => (togetherFrom next cs).map (s :: ·)
    | none => .error (.ignoredValue s (String.ofList (c :: cs)))

def together (s : Switch) (name : String) : Option String → Except UsageError (List Switch)
  | none => .ok [s]
  | some value =>
    if value.isEmpty || name.length ≠ 2 then .error (.ignoredValue s value)
    else togetherFrom s value.toList

/-- Takes arguments from left to right. The first operand is the program; a mark `--` beside it
belongs to it. -/
def take (t : Taken) : List (String × Look) → Except UsageError Request
  | [] => t.request
  | (arg, .operand) :: rest =>
    match t.program with
    | some _ => take (t.extra arg) rest
    | none =>
      match rest with
      | (_, .endOfSwitches) :: rest => take { t with program := some arg } rest
      | rest => take { t with program := some arg } rest
  | (arg, .endOfSwitches) :: rest =>
    match t.program, rest with
    | none, (program, .operand) :: rest => take { t with program := some program } rest
    | _, rest => take (t.extra arg) rest
  | (arg, .unknown) :: rest => take (t.extra arg) rest
  | (_, .switch s name value) :: rest =>
    if s.takesValue then
      match value, rest with
      | some v, rest => take (t.withValue s v) rest
      | none, (v, .operand) :: rest => take (t.withValue s v) rest
      | none, _ => .error (.missingValue s)
    else
      match together s name value with
      | .error e => .error e
      | .ok switches =>
        if switches.contains .help then .ok .help else take (switches.foldl Taken.withFlag t) rest

def parse (args : List String) : Except UsageError Request := do take {} (← looksOf args)

end Command
end LineAssembly
