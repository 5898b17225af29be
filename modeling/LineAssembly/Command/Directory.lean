import LineAssembly.Command.Path

/-! The files that a command works with. -/
namespace LineAssembly
namespace Command

/-- How paths are looked up: the bytes that one leads to, and under which name a file is written.
The latter hangs on the names that the command has written before. -/
structure Directory where
  read : String → Except PathError ByteArray
  target : List String → String → Except PathError String

def systemDirectories : List String :=
  ["bin", "boot", "dev", "etc", "home", "lib", "media", "mnt", "opt", "proc", "root", "run",
   "sbin", "srv", "sys", "tmp", "usr", "var"]

inductive Place where
  | here
  /-- A directory that holds the one of the command. -/
  | above
  | root
  | system (name : String)
  | file (bytes : ByteArray)

abbrev Files := List (String × ByteArray)

namespace Files

def find? (files : Files) : Place → String → Option Place
  | .here, name => if name = ".." then some .above else (files.lookup name).map .file
  | .above, name => if name = ".." then some .above else none
  | .root, name =>
    if name = ".." then some .root
    else if name ∈ systemDirectories then some (.system name)
    else none
  | .system dir, name =>
    if name = ".." then some .root
    else if dir = "dev" ∧ name = "null" then some (.file ByteArray.empty)
    else none
  | .file _, _ => none

/-- Goes on by one name. A point stays, and below a file there is nothing. -/
def enter (files : Files) (path : String) (place : Place) (name : String) :
    Except PathError Place :=
  match place with
  | .file _ => .error (.notDirectory path)
  | _ =>
    if name = "." then .ok place
    else if Path.nameLimit < name.utf8ByteSize then .error (.tooLong path)
    else match files.find? place name with
      | some next => .ok next
      | none => .error (.missing path)

def walk (files : Files) (path : String) (names : List String) : Except PathError Place :=
  names.foldlM (files.enter path) (if Path.isAbsolute path then .root else .here)

def read (files : Files) (path : String) : Except PathError ByteArray := do
  Path.check path
  match ← files.walk path (Path.names path) with
  | .file bytes => return bytes
  | _ => throw (.directory path)

/-- A file stands under its name in the directory of the command, and under its path elsewhere. -/
def create (files : Files) (path name : String) (place : Place) : Except PathError String :=
  if Path.endsInSlash path then .error (.directory path)
  else if Path.nameLimit < name.utf8ByteSize then .error (.tooLong path)
  else match place, files.find? place name with
    | .here, _ => .ok name
    | _, none | _, some (.file _) => .ok path
    | _, some _ => .error (.directory path)

/-- Whether a path can be opened for writing, and under which name the file then stands. Only the
last name of the path may be a new one. -/
def writtenName (files : Files) (path : String) : Except PathError String := do
  Path.check path
  let names := Path.names path
  match names.getLast? with
  | none => throw (if path.isEmpty then .missing path else .directory path)
  | some name =>
    if name = "." ∨ name = ".." then
      discard (files.walk path names)
      throw (.directory path)
    else
      match ← files.walk path names.dropLast with
      | .file _ => throw (.notDirectory path)
      | place => files.create path name place

/-- Files that were written before are there as well. -/
def target (files : Files) (written : List String) (path : String) : Except PathError String :=
  Files.writtenName (files ++ written.map fun name => (name, ByteArray.empty)) path

def directory (files : Files) : Directory := ⟨files.read, files.target⟩

end Files
end Command
end LineAssembly
