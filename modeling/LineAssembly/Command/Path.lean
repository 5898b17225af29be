import LineAssembly.Text.Quoted

/-! Paths: the names between their slashes, and why one cannot be opened. -/
namespace LineAssembly
namespace Command

inductive PathError where
  | missing (path : String)
  | directory (path : String)
  | notDirectory (path : String)
  | tooLong (path : String)
  | nullByte
  deriving Repr, DecidableEq

namespace PathError

def message : PathError → String
  | .missing path => "[Errno 2] No such file or directory: " ++ Text.quoted path
  | .directory path => "[Errno 21] Is a directory: " ++ Text.quoted path
  | .notDirectory path => "[Errno 20] Not a directory: " ++ Text.quoted path
  | .tooLong path => "[Errno 36] File name too long: " ++ Text.quoted path
  | .nullByte => "embedded null byte"

def isAbsent : PathError → Bool
  | .missing _ | .notDirectory _ | .nullByte => true
  | .directory _ | .tooLong _ => false

end PathError

namespace Path

def nameLimit : Nat := 255

def lengthLimit : Nat := 4095

def names (path : String) : List String := (path.splitOn "/").filter (· ≠ "")

/-- Two slashes at the start are kept; one, or more than two, count as one. -/
def root (path : String) : String :=
  match (path.toList.takeWhile (· = '/')).length with
  | 0 => ""
  | 2 => "//"
  | _ => "/"

def isAbsolute (path : String) : Bool := path.toList.head? = some '/'

def endsInSlash (path : String) : Bool := path.toList.getLast? = some '/'

/-- A path without the parts that say nothing: empty names and single points. -/
def plain (path : String) : String :=
  let text := root path ++ "/".intercalate ((names path).filter (· ≠ "."))
  if text.isEmpty then "." else text

def check (path : String) : Except PathError Unit :=
  if path.toList.any (·.toNat = 0) then .error .nullByte
  else if lengthLimit < path.utf8ByteSize then .error (.tooLong path)
  else .ok ()

end Path
end Command
end LineAssembly
