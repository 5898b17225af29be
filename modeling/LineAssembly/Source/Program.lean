import LineAssembly.Source.Listing
import LineAssembly.Source.Routine
import LineAssembly.Text.Lines

/-! Programs: a source text read into lines and routines. Faulty text is reported and counted, and
only a numeral over the digit limit stops the reading. -/
namespace LineAssembly

structure Program where
  routines : List Routine := []
  dangling : List Line := []
  lines : List Line := []
  errorCount : Nat := 0
  deriving Repr, DecidableEq

namespace Program

/-- The first routine of a name; later ones are shadowed. -/
def find? (p : Program) (name : String) : Option Routine :=
  p.routines.find? fun r => r.name = name

def findIndex? (p : Program) (name : String) : Option Nat :=
  p.routines.findIdx? fun r => r.name = name

def labels (p : Program) : List Label := p.lines.flatMap Line.labels

structure Reading where
  messages : List Message
  result : Except Decimal.TooLong Program

def ofListing (l : Listing) : Program :=
  let found := Extraction.ofLines l.lines
  { routines := found.routines
    dangling := found.dangling
    lines := l.lines
    errorCount := l.errorCount + found.errorCount }

/-- An empty source is reported and not counted. -/
def emptyMessages (raws : List String) : List Message :=
  if raws.isEmpty then [.error "Please provide some code"] else []

/-- Reports on a finished listing: the lexical count, the structure, and a lack of routines. -/
def listingMessages (l : Listing) : List Message :=
  let found := Extraction.ofLines l.lines
  .note .lexer ("Parsing the tokens returned " ++ Decimal.text l.errorCount ++ " errors") ::
    found.messages ++
    (if found.routines.isEmpty then [.error "No functions found (empty)"] else [])

def readLines (raws : List String) : Reading :=
  match Listing.addAll {} raws with
  | (messages, .error excess) => ⟨emptyMessages raws ++ messages, .error excess⟩
  | (messages, .ok l) => ⟨emptyMessages raws ++ messages ++ listingMessages l, .ok (ofListing l)⟩

def read (text : String) (tilde : Bool) : Reading := readLines (Text.sourceLines text tilde)

end Program
end LineAssembly
