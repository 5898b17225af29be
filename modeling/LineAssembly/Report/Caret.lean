import LineAssembly.Number.Decimal
import LineAssembly.Report.Styled
import LineAssembly.Source.Word

/-! Caret blocks: a message, the source line behind a gutter with its number, and carets under one
word of it. Here the words of a line are its runs between blanks. -/
namespace LineAssembly

structure Caret where
  message : String
  source : String
  line : Int
  word : Int
  label : String := ""
  deriving Repr, DecidableEq

namespace Caret

/-- The index of the word that covers `column` or is the first after it; the last word if there is
none, and zero without words. -/
def wordIndex (source : String) (column : Int) : Nat :=
  let runs := Word.runs source
  (runs.findIdx? fun w => column < w.stop).getD (runs.length - 1)

def target? (b : Caret) : Option Word :=
  if b.word < 0 then none else (Word.runs b.source)[b.word.toNat]?

def number (b : Caret) : List Char := Decimal.ofInt b.line

def gutter (b : Caret) : List Char := List.replicate (b.number.length + 1) ' '

def pad (b : Caret) : List Char := List.replicate (b.target?.elim 0 Word.column) ' '

def carets (b : Caret) : List Char := List.replicate (b.target?.elim 0 fun w => w.text.length) '^'

def labelPiece (b : Caret) : List Piece :=
  if b.label.isEmpty then [] else [⟨' ' :: b.label.toList, some .caret⟩]

def pieces (b : Caret) : List Piece :=
  [⟨b.message.toList ++ ['\n'], some .error⟩,
   ⟨b.gutter, none⟩, ⟨['|', '\n'], some .bar⟩,
   ⟨b.number, some .bar⟩, ⟨[' '], none⟩, ⟨['|'], some .bar⟩,
   ⟨' ' :: (b.source.toList ++ ['\n']), none⟩,
   ⟨b.gutter, none⟩, ⟨['|'], some .bar⟩, ⟨' ' :: b.pad, none⟩, ⟨b.carets, some .caret⟩] ++
  b.labelPiece ++
  [⟨['\n'], none⟩, ⟨b.gutter, none⟩, ⟨['|'], some .bar⟩]

def plain (b : Caret) : String := String.ofList (Styled.plain b.pieces)

def spans (b : Caret) : List Span := Styled.spans b.pieces

end Caret
end LineAssembly
