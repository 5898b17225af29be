import LineAssembly.Report.Message
import LineAssembly.Source.Token

/-! Routines: a header line opens a routine, and the lines up to the next header are its body.
Braces are not balanced. -/
namespace LineAssembly

structure Routine where
  name : String
  arguments : List Token
  lines : List Line
  deriving Repr, DecidableEq

def Routine.shown (r : Routine) : String := "<function " ++ r.name ++ ">"

/-- What a header line has to report. A missing name was counted when the line was read. -/
inductive Header.Note where
  | nameless
  | noBracket (name : String) (line : Int)
  | wrongBracket (found : String)
  | nestedBracket (name : String)
  | unclosed (name : String)
  deriving Repr, DecidableEq

namespace Header

def form : String := "\nfn `name` (`arguments`) \x7b\n`code`\n\x7d"

namespace Note

def isError : Note → Bool
  | .nameless => false
  | _ => true

def messages : Note → List Message
  | .nameless => [.note .usage form]
  | .noBracket name line =>
    [.error ("Expected opening brackets after `" ++ name ++ "` at line " ++ Decimal.text line),
     .note .usage form]
  | .wrongBracket found => [.error ("Expected `(` but found " ++ found), .note .usage form]
  | .nestedBracket name =>
    [.error ("Unexpected `(` in argument list of `" ++ name ++ "`"), .note .usage form]
  | .unclosed name => [.error ("Expected closing brackets for `" ++ name ++ "`"), .note .usage form]

end Note

/-- An argument list: its tokens, how many brackets open inside it, and what follows the closing
bracket if there is one. -/
structure Arguments where
  taken : List Token
  nested : Nat
  rest : Option (List Token)
  deriving Repr, DecidableEq

def readArguments : List Token → Arguments
  | [] => ⟨[], 0, none⟩
  | t :: ts =>
    if t.value = ")" then ⟨[], 0, some ts⟩
    else
      let more := readArguments ts
      if t.value = "(" then { more with nested := more.nested + 1 }
      else { more with taken := t :: more.taken }

def inlineBody (line : Line) (rest : List Token) : List Line :=
  let tokens := rest.filter fun t => t.kind ≠ .bracket
  if tokens.isEmpty then [] else [{ tokens, source := line.source, number := line.number }]

structure Reading where
  notes : List Note
  routine : Option Routine
  deriving Repr, DecidableEq

def read (line : Line) : Reading :=
  match line.tokens.drop 1 with
  | [] => ⟨[.nameless], none⟩
  | name :: afterName =>
    if name.kind ≠ .routineName then ⟨[.nameless], none⟩
    else
      match afterName with
      | [] => ⟨[.noBracket name.value line.number], none⟩
      | bracket :: tokens =>
        if bracket.value ≠ "(" then ⟨[.wrongBracket bracket.value], none⟩
        else
          let arguments := readArguments tokens
          { notes := List.replicate arguments.nested (.nestedBracket name.value) ++
              (if arguments.rest.isNone then [.unclosed name.value] else [])
            routine := some
              { name := name.value
                arguments := arguments.taken
                lines := inlineBody line (arguments.rest.getD []) } }

end Header

structure Extraction where
  routines : List Routine
  dangling : List Line
  messages : List Message
  errorCount : Nat
  deriving Repr, DecidableEq

namespace Extraction

/-- What a pass over the lines has found so far: with the results, the routine in progress, and
whether the last header opened none. -/
structure State where
  routines : List Routine := []
  current : Option Routine := none
  orphaned : Bool := false
  dangling : List Line := []
  messages : List Message := []
  errorCount : Nat := 0
  deriving Repr, DecidableEq

namespace State

def flush (s : State) : State :=
  match s.current with
  | some r => { s with routines := s.routines ++ [r] }
  | none => s

def record (s : State) (n : Header.Note) : State :=
  { s with
    messages := s.messages ++ n.messages
    errorCount := if n.isError then s.errorCount + 1 else s.errorCount }

def openRoutine (s : State) (line : Line) : State :=
  let reading := Header.read line
  { reading.notes.foldl record s.flush with
    current := reading.routine
    orphaned := reading.routine.isNone }

/-- A line outside of any routine; it is an error if it has tokens and no header came before. -/
def leaveDangling (s : State) (line : Line) : State :=
  let s := { s with dangling := s.dangling ++ [line] }
  if !line.tokens.isEmpty && !s.orphaned then
    { s with
      messages := s.messages ++
        [.error ("Top level code is not allowed (line " ++ Decimal.text line.number ++ ")")]
      errorCount := s.errorCount + 1 }
  else s

def step (s : State) (line : Line) : State :=
  if line.startsRoutine then s.openRoutine line
  else
    match s.current with
    | some r => { s with current := some { r with lines := r.lines ++ [line] } }
    | none => s.leaveDangling line

def result (s : State) : Extraction := ⟨s.routines, s.dangling, s.messages, s.errorCount⟩

end State

/-- One pass over the lines; the routine in progress at the end is complete too. -/
def ofLines (lines : List Line) : Extraction := (lines.foldl State.step {}).flush.result

end Extraction
end LineAssembly
