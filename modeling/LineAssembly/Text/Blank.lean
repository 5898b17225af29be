import LineAssembly.Text.Ranges

/-! Blank characters. They separate words and are stripped from comments. -/
namespace LineAssembly
namespace Text

/-- The blanks of the line language: ASCII controls 9-13 and 28-31, the space, and the
separators beyond ASCII. A zero-width space is not a blank. -/
def blankRanges : Ranges :=
  [(0x09, 0x0D), (0x1C, 0x20), (0x85, 0x85), (0xA0, 0xA0), (0x1680, 0x1680), (0x2000, 0x200A),
   (0x2028, 0x2029), (0x202F, 0x202F), (0x205F, 0x205F), (0x3000, 0x3000)]

def isBlank (c : Char) : Bool := blankRanges.has c

theorem isBlank_space : isBlank ' ' = true := by decide

def strip (cs : List Char) : List Char :=
  ((cs.dropWhile isBlank).reverse.dropWhile isBlank).reverse

end Text
end LineAssembly
