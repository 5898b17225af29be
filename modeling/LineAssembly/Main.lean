import LineAssembly.Command.Execute
import LineAssembly.Report.Page

/-! The command itself: reads what it needs, and carries out the outcome. -/
namespace LineAssembly
namespace Command

def isDirectoryCode : UInt32 := 21

def readOnDisk (path : String) : IO (Except PathError ByteArray) := do
  if let .error e := Path.check path then
    return .error e
  try
    return .ok (← IO.FS.readBinFile path)
  catch
    | .noFileOrDirectory .. => return .error (.missing path)
    | .inappropriateType _ code _ =>
      return .error (if code = isDirectoryCode then .directory path else .notDirectory path)
    | e => throw e

partial def readAll (stream : IO.FS.Stream) (bytes : ByteArray) : IO ByteArray := do
  let chunk ← stream.read 65536
  if chunk.isEmpty then return bytes else readAll stream (bytes ++ chunk)

def Content.document : Content → String
  | .text s => s
  | .page console => Page.render console

def Outcome.perform (o : Outcome) : IO UInt32 := do
  IO.print o.stdout
  IO.eprint o.stderr
  for (name, content) in o.files do
    IO.FS.writeFile name content.document
  match o.ending with
  | .exit status => return status.toUInt32
  | .failure (.path e) => IO.eprintln e.message; return 1
  | .failure .encoding => IO.eprintln "the program is not well formed UTF-8"; return 1
  | .failure (.digits excess) => IO.eprintln excess.message; return 1

/-- Only the program is looked up beforehand; whether a file can be written shows when it is. -/
def runOnDisk (options : Options) : IO UInt32 := do
  let fromStdin := options.program = "-"
  let stdin ← if fromStdin then readAll (← IO.getStdin) ByteArray.empty else pure ByteArray.empty
  let path := Path.plain options.program
  let bytes ← if fromStdin then pure (.error (.missing path)) else readOnDisk path
  (runOptions { read := fun _ => bytes, target := fun _ name => .ok name } stdin options).perform

end Command
end LineAssembly

open LineAssembly.Command in
def main (args : List String) : IO UInt32 := do
  match parse args with
  | .error e => IO.eprintln (usage ++ e.line); return 2
  | .ok .help => IO.print usage; return 0
  | .ok (.run options) => runOnDisk options
