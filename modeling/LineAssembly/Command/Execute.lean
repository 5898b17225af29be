import LineAssembly.Command.Directory
import LineAssembly.Command.Options
import LineAssembly.Machine.Snapshot
import LineAssembly.Machine.Table
import LineAssembly.Run.Routine
import LineAssembly.Text.Document

/-! The command as a function from its arguments and files to all that it leaves behind. -/
namespace LineAssembly
namespace Command

inductive Failure where
  | path (e : PathError)
  | encoding
  | digits (excess : Decimal.TooLong)
  deriving Repr, DecidableEq

inductive Ending where
  | exit (status : Nat)
  | failure (f : Failure)
  deriving Repr, DecidableEq

inductive Content where
  | text (s : String)
  | page (console : String)
  deriving Repr, DecidableEq

structure Outcome where
  ending : Ending
  stdout : String := ""
  stderr : String := ""
  files : List (String × Content) := []
  deriving Repr, DecidableEq

namespace Outcome

def print (o : Outcome) (text : String) : Outcome := { o with stdout := o.stdout ++ text }

def complain (o : Outcome) (text : String) : Outcome := { o with stderr := o.stderr ++ text }

/-- A file written again takes the place of the one before. -/
def write (o : Outcome) (name : String) (content : Content) : Outcome :=
  { o with files := o.files.filter (fun f => f.1 ≠ name) ++ [(name, content)] }

def names (o : Outcome) : List String := o.files.map Prod.fst

def fail (o : Outcome) (f : Failure) : Outcome := { o with ending := .failure f }

def andThen (o : Outcome) (next : Outcome → Outcome) : Outcome :=
  match o.ending with
  | .exit _ => next o
  | .failure _ => o

end Outcome

def rule : String := String.ofList (List.replicate 29 '-')

def traceName : String := "debug.txt"

/-- The progress bar leaves an empty line. -/
def progressLine (options : Options) : String := if options.noProgress then "" else "\n"

def reportRun (options : Options) (e : Effect) (o : Outcome) : Outcome :=
  let o := o.print (Console.line "\nOutput:" ++ Console.line rule ++ Message.consoleAll e.messages)
  let o := if 0 < options.verbosity then
    o.write traceName (.text (Trace.render e.trace)) else o
  let ended := fun (o : Outcome) => o.print (Console.line e.output ++ Console.line rule ++
    (Message.note .cpu ("Interpreting the tokens returned " ++ Decimal.text e.machine.errorCount ++
      " errors")).console)
  match e.fault with
  | none => ended o
  | some (.halt h) =>
    ended ({ o with ending := .exit 1 }.complain ("Runtime error: " ++ h.text ++ "\n"))
  | some (.digits excess) => o.fail (.digits excess)
  | some .nesting => { o with ending := .exit 1 }

def showState (options : Options) (m : Machine) (o : Outcome) : Outcome :=
  if options.showState then
    match m.writeTable with
    | .ok table => o.print (Console.shown table)
    | .error excess => o.fail (.digits excess)
  else o

/-- The file that an option names; an empty name means none. -/
def fileOf (option : Option String) : Option String := option.filter fun name => !name.isEmpty

/-- Writes the snapshot of the machine if it is asked for. The file is there even if the snapshot
cannot be written. -/
def dumpState (directory : Directory) (options : Options) (m : Machine) (o : Outcome) : Outcome :=
  match fileOf options.dumpState with
  | none => o
  | some path =>
    match directory.target o.names path with
    | .error e => o.fail (.path e)
    | .ok name =>
      match m.dump (some 2) with
      | .ok text => o.write name (.text text)
      | .error excess => (o.write name (.text "")).fail (.digits excess)

def exportPage (directory : Directory) (options : Options) (o : Outcome) : Outcome :=
  match fileOf options.html with
  | none => o
  | some path =>
    match directory.target o.names path with
    | .error e => o.fail (.path e)
    | .ok name => o.write name (.page o.stdout)

def runSource (directory : Directory) (options : Options) (source : String) : Outcome :=
  let reading := Program.read source options.tildeNewlines
  let o : Outcome := { ending := .exit 0 }
  let o := o.print ((Message.note .lexer "Parsing tokens...").console ++
    Message.consoleAll reading.messages ++ progressLine options)
  match reading.result with
  | .error excess => o.fail (.digits excess)
  | .ok program =>
    let e := program.runAt options.verbosity options.entry
    let o := o.print (Message.note .info "Finished parsing tokens").console
    (((reportRun options e o).andThen (showState options e.machine)).andThen
      (dumpState directory options e.machine)).andThen (exportPage directory options)

/-- The source that a program argument names; a lone minus sign means the standard input. -/
def readSource (directory : Directory) (stdin : ByteArray) (program : String) :
    Except Outcome String :=
  let decode := fun bytes =>
    (Text.ofBytes? bytes).elim (.error { ending := .failure .encoding }) .ok
  if program = "-" then decode stdin
  else match directory.read (Path.plain program) with
    | .ok bytes => decode bytes
    | .error e => .error (
        if e.isAbsent then
          { ending := .exit 1, stderr := "Error: file " ++ program ++ " not found\n" }
        else { ending := .failure (.path e) })

def runOptions (directory : Directory) (stdin : ByteArray) (options : Options) : Outcome :=
  match readSource directory stdin options.program with
  | .error o => o
  | .ok source => runSource directory options source

def usage : String :=
  "usage: russembly [-h] [-v] [--entry ENTRY] [--show-state] [--dump-state JSON_FILE]\n" ++
  "                 [--html HTML_FILE] [--tilde-newlines] [--no-progress] [--no-color]\n" ++
  "                 program\n"

def execute (args : List String) (directory : Directory) (stdin : ByteArray) : Outcome :=
  match parse args with
  | .error e => { ending := .exit 2, stderr := e.line }
  | .ok .help => { ending := .exit 0, stdout := usage }
  | .ok (.run options) => runOptions directory stdin options

end Command
end LineAssembly
