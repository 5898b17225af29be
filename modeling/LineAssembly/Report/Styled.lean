import LineAssembly.Report.Console

/-! Styled text: pieces of text, some with a style. The plain text is the cleaned pieces joined,
and each styled piece marks a span of it. -/
namespace LineAssembly

inductive Style where
  | error | bar | caret
  deriving Repr, DecidableEq

def Style.name : Style → String
  | .error => "diag.error"
  | .bar => "diag.bar"
  | .caret => "diag.caret"

structure Span where
  start : Nat
  stop : Nat
  style : Style
  deriving Repr, DecidableEq

structure Piece where
  text : List Char
  style : Option Style := none
  deriving Repr, DecidableEq

namespace Piece

def shown (p : Piece) : List Char := Console.clean p.text

/-- The span of a piece whose cleaned text starts at `offset`; an empty piece has none. -/
def span? (offset : Nat) (p : Piece) : Option Span :=
  if p.text.isEmpty then none else p.style.map fun s => ⟨offset, offset + p.shown.length, s⟩

end Piece

namespace Styled

def plain (pieces : List Piece) : List Char := pieces.flatMap Piece.shown

@[simp] theorem plain_nil : plain [] = [] := rfl

@[simp] theorem plain_cons (p : Piece) (ps : List Piece) :
    plain (p :: ps) = p.shown ++ plain ps := rfl

def spansFrom (offset : Nat) : List Piece → List Span
  | [] => []
  | p :: ps => (p.span? offset).toList ++ spansFrom (offset + p.shown.length) ps

def spans (pieces : List Piece) : List Span := spansFrom 0 pieces

end Styled
end LineAssembly
