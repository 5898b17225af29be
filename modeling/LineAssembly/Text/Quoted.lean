import LineAssembly.Number.Hex
import LineAssembly.Text.Printable

/-! Quoted text: a text between quotes, with escapes for what cannot be seen. -/
namespace LineAssembly
namespace Text

/-- Single quotes, unless the text has a single quote and no double quote. -/
def quoteFor (cs : List Char) : Char :=
  if cs.contains '\'' && !cs.contains '"' then '"' else '\''

/-- An unprintable character by its code point, in two, four or eight digits. -/
def escapeCode (n : Nat) : List Char :=
  if n ≤ 0xFF then '\\' :: 'x' :: Hex.padded 2 n
  else if n ≤ 0xFFFF then '\\' :: 'u' :: Hex.padded 4 n
  else '\\' :: 'U' :: Hex.padded 8 n

def escapeChar (quote c : Char) : List Char :=
  if c = quote then ['\\', c]
  else if c = '\\' then ['\\', '\\']
  else if c = '\n' then ['\\', 'n']
  else if c = '\r' then ['\\', 'r']
  else if c = '\t' then ['\\', 't']
  else if isPrintable c then [c]
  else escapeCode c.toNat

def quoteWith (quote : Char) (cs : List Char) : List Char :=
  quote :: (cs.flatMap (escapeChar quote) ++ [quote])

def quoteChars (cs : List Char) : List Char := quoteWith (quoteFor cs) cs

def quoted (s : String) : String := String.ofList (quoteChars s.toList)

@[simp] theorem toList_quoted (s : String) : (quoted s).toList = quoteChars s.toList := by
  simp [quoted]

end Text
end LineAssembly
