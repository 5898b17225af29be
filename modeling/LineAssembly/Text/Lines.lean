/-! Lines of a source text. A line ends at a line feed, and a carriage return right before the
line feed belongs to the ending. -/
namespace LineAssembly
namespace Text

def consFirst (c : Char) : List (List Char) → List (List Char)
  | [] => [[c]]
  | l :: ls => (c :: l) :: ls

/-- The pieces between line endings; there is always at least one. -/
def pieces : List Char → List (List Char)
  | [] => [[]]
  | '\r' :: '\n' :: cs => [] :: pieces cs
  | '\n' :: cs => [] :: pieces cs
  | c :: cs => consFirst c (pieces cs)

theorem consFirst_ne_nil (c : Char) (ls : List (List Char)) : consFirst c ls ≠ [] := by
  cases ls <;> simp [consFirst]

theorem pieces_ne_nil (cs : List Char) : pieces cs ≠ [] := by
  fun_cases pieces cs <;> simp [consFirst_ne_nil]

/-- Drops an empty last piece, which is what follows the final line ending. -/
def dropEmptyLast (ls : List (List Char)) : List (List Char) :=
  if ls.getLast? = some [] then ls.dropLast else ls

def lines (cs : List Char) : List (List Char) := dropEmptyLast (pieces cs)

/-- A tilde may stand for a line feed, so that a program fits on one line. -/
def tildeToNewline (c : Char) : Char := if c = '~' then '\n' else c

def sourceLines (text : String) (tilde : Bool) : List String :=
  let cs := if tilde then text.toList.map tildeToNewline else text.toList
  (lines cs).map String.ofList

end Text
end LineAssembly
