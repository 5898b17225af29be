import LineAssembly.Report.Message
import LineAssembly.Source.Item

/-! A listing: the lines read so far, numbered from one. -/
namespace LineAssembly

namespace Item

def messages (number : Int) : Item → List Message
  | .dropped w =>
    [.note .lexer ("unexpected word `" ++ w.text ++ "`"),
     .error ("Unexpected instruction at line " ++ Decimal.text number)]
  | .nameless => [.error ("Expected function name at line " ++ Decimal.text number)]
  | .unterminated => [.error ("Unterminated string literal at line " ++ Decimal.text number)]
  | _ => []

end Item

structure Listing where
  lines : List Line := []
  errorCount : Nat := 0
  deriving Repr, DecidableEq

/-- What reading one line gives: its reports, and the line or the numeral that was too long. -/
structure LineReading where
  messages : List Message
  errors : Nat
  result : Except Decimal.TooLong Line

def Item.readable (items : List Item) : List Item := items.takeWhile fun i => i.overlong?.isNone

def Line.read (number : Int) (raw : String) : LineReading :=
  let items := Item.ofLine number raw
  let seen := Item.readable items
  { messages := seen.flatMap (Item.messages number)
    errors := seen.countP Item.isError
    result := match items.findSome? Item.overlong? with
      | some excess => .error excess
      | none => .ok ⟨items.filterMap Item.token?, raw, number, items.findSome? Item.comment?⟩ }

namespace Listing

def next (l : Listing) : Nat := l.lines.length + 1

/-- Reads one more line. A line that cannot be read is left out, and what it reported stays. -/
def add (l : Listing) (raw : String) : Listing × LineReading :=
  let reading := Line.read l.next raw
  match reading.result with
  | .ok line =>
    ({ lines := l.lines ++ [line], errorCount := l.errorCount + reading.errors }, reading)
  | .error _ => ({ l with errorCount := l.errorCount + reading.errors }, reading)

def progress (number : Nat) (total : Int) (reading : LineReading) : List (Nat × Int) :=
  match reading.result with
  | .ok _ => if 0 < total then [(number, total)] else []
  | .error _ => []

/-- Reads lines until one cannot be read. -/
def addAll (l : Listing) : List String → List Message × Except Decimal.TooLong Listing
  | [] => ([], .ok l)
  | raw :: raws =>
    let (l', reading) := l.add raw
    match reading.result with
    | .error excess => (reading.messages, .error excess)
    | .ok _ =>
      let (messages, result) := l'.addAll raws
      (reading.messages ++ messages, result)

end Listing
end LineAssembly
